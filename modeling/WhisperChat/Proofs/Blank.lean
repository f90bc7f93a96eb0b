import WhisperChat.Blank

/-!
# What trimming leaves

A text is trimmed of all the white space that it starts with and all that it ends with, and of no
other (`Blank.Trims`).  There is one such text for every text, which is the one that is worked out
(`Blank.trims_iff`).
-/

namespace WhisperChat.Blank

/-- The code points of the characters with the Unicode property White_Space. -/
def whiteSpace : List Nat :=
  [0x9, 0xA, 0xB, 0xC, 0xD, 0x20, 0x85, 0xA0, 0x1680, 0x2000, 0x2001, 0x2002, 0x2003, 0x2004,
    0x2005, 0x2006, 0x2007, 0x2008, 0x2009, 0x200A, 0x2028, 0x2029, 0x202F, 0x205F, 0x3000]

theorem isBlank_iff {c : Char} : isBlank c = true ↔ c.toNat ∈ whiteSpace := by
  simp only [isBlank, whiteSpace, Bool.or_eq_true, Bool.and_eq_true, decide_eq_true_eq,
    List.mem_cons, List.not_mem_nil, or_false]
  omega

/-- The second text is the first without the white space at its ends. -/
structure Trims (s t : String) : Prop where
  split : ∃ front back, s.toList = front ++ t.toList ++ back ∧
    (∀ c ∈ front, c.toNat ∈ whiteSpace) ∧ ∀ c ∈ back, c.toNat ∈ whiteSpace
  starts : ∀ c, t.toList.head? = some c → c.toNat ∉ whiteSpace
  ends : ∀ c, t.toList.getLast? = some c → c.toNat ∉ whiteSpace

variable {cs front rest back : List Char} {c : Char} {s t : String}

/-- Where white space has been dropped, none is left in front. -/
theorem not_isBlank_of_head?_trimStart (h : (trimStart cs).head? = some c) : isBlank c = false := by
  have hhead := List.head?_dropWhile_not isBlank cs
  rw [← trimStart, h] at hhead
  exact hhead

/-- White space in front of anything else is dropped, and nothing after it. -/
theorem trimStart_append (hfront : ∀ c ∈ front, isBlank c = true)
    (hrest : ∀ c, rest.head? = some c → isBlank c = false) : trimStart (front ++ rest) = rest := by
  rw [trimStart, List.dropWhile_append_of_pos hfront]
  cases rest with
  | nil => rfl
  | cons c rest => rw [List.dropWhile_cons_of_neg (by simp [hrest c rfl])]

theorem trimEnd_append (hback : ∀ c ∈ back, isBlank c = true)
    (hrest : ∀ c, rest.getLast? = some c → isBlank c = false) : trimEnd (rest ++ back) = rest := by
  have hreverse : trimStart (back.reverse ++ rest.reverse) = rest.reverse := by
    apply trimStart_append
    · exact fun c hc ↦ hback c (List.mem_reverse.1 hc)
    · exact fun c hc ↦ hrest c (List.head?_reverse ▸ hc)
  rw [trimEnd, List.reverse_append, ← trimStart, hreverse, List.reverse_reverse]

theorem exists_eq_trimStart (cs : List Char) :
    ∃ front, cs = front ++ trimStart cs ∧ ∀ c ∈ front, isBlank c = true :=
  ⟨cs.takeWhile isBlank, List.takeWhile_append_dropWhile.symm,
    fun _ hc ↦ List.all_eq_true.1 List.all_takeWhile _ hc⟩

theorem exists_eq_trimEnd (cs : List Char) :
    ∃ back, cs = trimEnd cs ++ back ∧ ∀ c ∈ back, isBlank c = true := by
  obtain ⟨front, hsplit, hfront⟩ := exists_eq_trimStart cs.reverse
  refine ⟨front.reverse, ?_, fun c hc ↦ hfront c (List.mem_reverse.1 hc)⟩
  have hreverse := congrArg List.reverse hsplit
  rwa [List.reverse_reverse, List.reverse_append] at hreverse

theorem trims_trim (s : String) : Trims s (trim s) := by
  obtain ⟨front, hfront, hfrontBlank⟩ := exists_eq_trimStart s.toList
  obtain ⟨back, hback, hbackBlank⟩ := exists_eq_trimEnd (trimStart s.toList)
  have htoList : (trim s).toList = trimEnd (trimStart s.toList) := String.toList_ofList
  constructor
  case split =>
    refine ⟨front, back, ?_, fun c hc ↦ isBlank_iff.1 (hfrontBlank c hc),
      fun c hc ↦ isBlank_iff.1 (hbackBlank c hc)⟩
    rw [htoList, List.append_assoc, ← hback, ← hfront]
  case starts =>
    intro c hc
    have hhead : (trimStart s.toList).head? = some c := by
      rw [hback, List.head?_append, ← htoList, hc, Option.some_or]
    rw [← isBlank_iff, not_isBlank_of_head?_trimStart hhead]
    decide
  case ends =>
    intro c hc
    have hhead : (trimStart (trimStart s.toList).reverse).head? = some c := by
      rwa [htoList, trimEnd, List.getLast?_reverse] at hc
    rw [← isBlank_iff, not_isBlank_of_head?_trimStart hhead]
    decide

/-- A text has one trimmed text. -/
theorem trims_iff : Trims s t ↔ t = trim s := by
  constructor
  · rintro ⟨⟨front, back, hsplit, hfront, hback⟩, hstarts, hends⟩
    simp only [← isBlank_iff, Bool.not_eq_true] at hfront hback hstarts hends
    have hcore : trimEnd (trimStart s.toList) = t.toList := by
      cases hcs : t.toList with
      | nil =>
        have hblank : ∀ c ∈ front ++ back, isBlank c = true :=
          List.forall_mem_append.2 ⟨hfront, hback⟩
        have hdropped : trimStart (front ++ back ++ []) = [] := trimStart_append hblank (by simp)
        rw [hsplit, hcs, List.append_nil, ← List.append_nil (front ++ back), hdropped]
        rfl
      | cons c cs =>
        have hdropped : trimStart (front ++ (t.toList ++ back)) = t.toList ++ back := by
          refine trimStart_append hfront fun d hd ↦ hstarts d ?_
          rw [hcs] at hd ⊢
          exact hd
        rw [hsplit, List.append_assoc, hdropped, trimEnd_append hback hends, hcs]
    rw [trim, hcore, String.ofList_toList]
  · rintro rfl
    exact trims_trim s

theorem Trims.unique {t' : String} (h : Trims s t) (h' : Trims s t') : t = t' :=
  (trims_iff.1 h).trans (trims_iff.1 h').symm

-- The white space at the ends is not of ASCII; between the words it stays.
example : Trims "\u2003two words\u00A0\n" "two words" := trims_iff.2 (by decide)

end WhisperChat.Blank
