import Mathlib.Data.List.Induction
import Mathlib.Data.Nat.Digits.Defs
import WhisperChat.Proofs.Json
import WhisperChat.Wire.Anchor

/-!
# Which texts name an anchor

Beside the keywords, a text names an anchor just when it is a run of digits after one sign or none,
and the number that the digits stand for is one of 64 bits.  Many texts say one number; the one that
is written has no plus sign and no idle zero, and is the only such text (`Anchor.named_exactly`).
-/

namespace WhisperChat

namespace Decimal

/-! ## Numerals -/

/-- The number that digits stand for, the last of them being the units. -/
def positional (ds : List Char) : Nat :=
  Nat.ofDigits 10 (ds.reverse.map fun c ↦ c.toNat - '0'.toNat)

/-- One or more of the digits from 0 to 9, and nothing else. -/
structure IsRun (ds : List Char) : Prop where
  ne_nil : ds ≠ []
  isDigit : ∀ c ∈ ds, c.isDigit = true

/-- A run of digits, after one sign or none, says a number. -/
inductive Denotes : List Char → Int → Prop
  | unsigned {ds : List Char} (h : IsRun ds) : Denotes ds (positional ds)
  | plus {ds : List Char} (h : IsRun ds) : Denotes ('+' :: ds) (positional ds)
  | minus {ds : List Char} (h : IsRun ds) : Denotes ('-' :: ds) (-positional ds)

/-- There is no plus sign, no zero in front of other digits, and no minus sign before zero. -/
structure IsCanonical (cs : List Char) : Prop where
  no_plus : cs.head? ≠ some '+'
  no_idle_zero : ∀ rest, cs = '0' :: rest ∨ cs = '-' :: '0' :: rest → cs = ['0']

/-! ## Reading -/

theorem ofDigitChars_eq_positional (ds : List Char) : Nat.ofDigitChars 10 ds 0 = positional ds := by
  induction ds with
  | nil => rfl
  | cons c ds ih =>
    rw [Nat.ofDigitChars_cons, Nat.ofDigitChars_eq_ofDigitChars_zero, ih, positional, positional,
      List.reverse_cons, List.map_append, Nat.ofDigits_append, List.length_map, List.length_reverse]
    rw [List.map_singleton, Nat.ofDigits_singleton, Nat.mul_zero, Nat.zero_add, Nat.add_comm]

theorem ofDigits?_eq_some_iff {cs : List Char} {n : Nat} :
    ofDigits? cs = some n ↔ IsRun cs ∧ n = positional cs := by
  unfold ofDigits?
  rw [ofDigitChars_eq_positional]
  constructor
  · intro h
    split at h
    case isTrue hrun =>
      simp only [Bool.and_eq_true, List.all_eq_true, Bool.not_eq_true', List.isEmpty_eq_false_iff]
        at hrun
      exact ⟨⟨hrun.2, hrun.1⟩, (Option.some.inj h).symm⟩
    case isFalse => cases h
  · rintro ⟨hrun, rfl⟩
    have hall : cs.all Char.isDigit = true := List.all_eq_true.2 hrun.isDigit
    simp [hall, hrun.ne_nil]

theorem head?_ne_of_isRun {ds : List Char} {c : Char} (h : IsRun ds) (hc : c.isDigit = false) :
    ds.head? ≠ some c := by
  intro heq
  have hdigit := h.isDigit c (List.mem_of_mem_head? (Option.mem_def.2 heq))
  rw [hc] at hdigit
  cases hdigit

/-- What is read is what the characters say. -/
theorem ofChars?_eq_some_iff {cs : List Char} {n : Int} : ofChars? cs = some n ↔ Denotes cs n := by
  constructor
  · intro h
    unfold ofChars? at h
    split at h <;> obtain ⟨k, hk, rfl⟩ := Option.map_eq_some_iff.1 h <;>
      obtain ⟨hrun, rfl⟩ := ofDigits?_eq_some_iff.1 hk
    · exact .plus hrun
    · exact .minus hrun
    · exact .unsigned hrun
  · rintro (hrun | hrun | hrun)
    · rw [ofChars?_of_ne (head?_ne_of_isRun hrun (by decide)) (head?_ne_of_isRun hrun (by decide)),
        ofDigits?_eq_some_iff.2 ⟨hrun, rfl⟩]
      rfl
    · rw [ofChars?, ofDigits?_eq_some_iff.2 ⟨hrun, rfl⟩]
      rfl
    · rw [ofChars?, ofDigits?_eq_some_iff.2 ⟨hrun, rfl⟩]
      rfl

/-! ## Writing -/

theorem digitChar_of_isDigit {c : Char} (h : c.isDigit = true) :
    c.toNat - '0'.toNat < 10 ∧ (c.toNat - '0'.toNat).digitChar = c := by
  simp only [Char.isDigit, Bool.and_eq_true, decide_eq_true_eq, ge_iff_le,
    UInt32.le_iff_toNat_le] at h
  have hlow : 48 ≤ c.toNat := h.1
  have hhigh : c.toNat ≤ 57 := h.2
  rw [← Char.ofNat_toNat c]
  generalize c.toNat = n at hlow hhigh
  interval_cases n <;> decide

theorem positional_concat (ds : List Char) (c : Char) :
    positional (ds ++ [c]) = 10 * positional ds + (c.toNat - '0'.toNat) := by
  rw [← ofDigitChars_eq_positional, ← ofDigitChars_eq_positional, Nat.ofDigitChars_append]
  rfl

/-- Digits that do not start with zero are written again for the number that they stand for. -/
theorem digits_positional {ds : List Char} (h : IsRun ds) (hzero : ds.head? ≠ some '0') :
    0 < positional ds ∧ digits (positional ds) = ds := by
  -- A digit more at the end makes ten times the number and a remainder, as writing has it.
  induction ds using List.reverseRecOn with
  | nil => exact absurd rfl h.ne_nil
  | append_singleton front c ih =>
    obtain ⟨hless, hchar⟩ := digitChar_of_isDigit (h.isDigit c (by simp))
    rw [positional_concat, digits, Nat.toDigits_eq_if (by decide)]
    by_cases hfront : front = []
    · subst hfront
      have hpos : 0 < c.toNat - '0'.toNat := by
        rw [Nat.pos_iff_ne_zero]
        intro hc
        rw [hc] at hchar
        exact hzero (congrArg some hchar.symm)
      rw [show positional [] = 0 from rfl, Nat.mul_zero, Nat.zero_add, if_pos hless, hchar]
      exact ⟨hpos, rfl⟩
    · have hhead : front.head? ≠ some '0' := by
        rwa [List.head?_append, List.head?_eq_some_head hfront, Option.some_or,
          ← List.head?_eq_some_head hfront] at hzero
      obtain ⟨hpos, hdigits⟩ := ih ⟨hfront, fun d hd ↦ h.isDigit d (by simp [hd])⟩ hhead
      have hdiv : (10 * positional front + (c.toNat - '0'.toNat)) / 10 = positional front := by
        omega
      have hmod : (10 * positional front + (c.toNat - '0'.toNat)) % 10 = c.toNat - '0'.toNat := by
        omega
      rw [if_neg (by omega), hdiv, hmod, hchar]
      exact ⟨by omega, congrArg (· ++ [c]) hdigits⟩

theorem isCanonical_chars (n : Int) : IsCanonical (chars n) := by
  cases n with
  | ofNat n =>
    refine ⟨head?_digits_ne (by decide), ?_⟩
    rintro rest (h | h)
    · rcases Nat.eq_zero_or_pos n with rfl | hn
      · rfl
      · exact absurd (congrArg List.head? h) (head?_digits_ne_zero hn)
    · exact absurd (congrArg List.head? h) (head?_digits_ne (n := n) (by decide))
  | negSucc n =>
    refine ⟨by simp [chars], ?_⟩
    rintro rest (h | h)
    · simp [chars] at h
    · rw [chars, List.cons.injEq] at h
      exact absurd (congrArg List.head? h.2) (head?_digits_ne_zero (Nat.succ_pos n))

/-- What is written of a number is the one canonical text that says it. -/
theorem eq_chars_of_isCanonical {cs : List Char} {n : Int} (h : Denotes cs n)
    (hcs : IsCanonical cs) :
    cs = chars n := by
  cases h with
  | unsigned hrun =>
    by_cases hzero : cs.head? = some '0'
    · obtain ⟨rest, hrest⟩ := List.head?_eq_some_iff.1 hzero
      rw [hcs.no_idle_zero rest (.inl hrest)]
      rfl
    · exact (digits_positional hrun hzero).2.symm
  | plus hrun => exact absurd rfl hcs.no_plus
  | @minus ds hrun =>
    have hzero : ds.head? ≠ some '0' := by
      intro hzero
      obtain ⟨rest, hrest⟩ := List.head?_eq_some_iff.1 hzero
      have hone := hcs.no_idle_zero rest (.inr (congrArg _ hrest))
      simp at hone
    obtain ⟨hpos, hdigits⟩ := digits_positional hrun hzero
    obtain ⟨k, hk⟩ := Nat.exists_eq_succ_of_ne_zero (Nat.ne_of_gt hpos)
    rw [hk] at hdigits ⊢
    exact congrArg _ hdigits.symm

end Decimal

/-! ## Anchors -/

namespace Anchor

open Decimal (Denotes IsCanonical)

/-- The texts that stand for an anchor. -/
inductive Named : String → Anchor → Prop
  | oldest : Named "oldest" oldest
  | newest : Named "newest" newest
  | message {s : String} {id : MessageId} (h : Denotes s.toList id.val) : Named s (message id)

theorem not_denotes_of_int?_eq_none {s : String} (h : Decimal.int? s = none) (n : Int) :
    ¬ Denotes s.toList n := by
  intro hdenotes
  rw [← Decimal.ofChars?_eq_some_iff] at hdenotes
  rw [Decimal.int?, hdenotes] at h
  cases h

theorem parse?_eq_some_iff {s : String} {a : Anchor} : parse? s = some a ↔ Named s a := by
  constructor
  · intro h
    unfold parse? at h
    split at h
    case isTrue hs =>
      cases h
      exact hs ▸ .oldest
    split at h
    case isTrue hs =>
      cases h
      exact hs ▸ .newest
    obtain ⟨n, hn, hmap⟩ := Option.bind_eq_some_iff.1 h
    obtain ⟨id, hid, rfl⟩ := Option.map_eq_some_iff.1 hmap
    rw [← Ident.ofInt?_eq_some_iff.1 hid] at hn
    exact .message (Decimal.ofChars?_eq_some_iff.1 hn)
  · rintro (_ | _ | ⟨hdenotes⟩)
    · rfl
    · rfl
    · have hold : s ≠ "oldest" := by
        rintro rfl
        exact not_denotes_of_int?_eq_none int?_oldest _ hdenotes
      have hnew : s ≠ "newest" := by
        rintro rfl
        exact not_denotes_of_int?_eq_none int?_newest _ hdenotes
      rw [parse?, if_neg hold, if_neg hnew, Decimal.int?, Decimal.ofChars?_eq_some_iff.2 hdenotes,
        Option.bind_some, Ident.ofInt?_val, Option.map_some]

theorem isCanonical_text (a : Anchor) : IsCanonical a.text.toList := by
  cases a with
  | oldest => exact ⟨by decide, by simp [text]⟩
  | newest => exact ⟨by decide, by simp [text]⟩
  | message id =>
    rw [text, Decimal.ofInt, String.toList_ofList]
    exact Decimal.isCanonical_chars id.val

theorem Named.eq_text {s : String} {a : Anchor} (h : Named s a) (hs : IsCanonical s.toList) :
    s = a.text := by
  cases h with
  | oldest => rfl
  | newest => rfl
  | message hdenotes =>
    rw [text, Decimal.ofInt, ← Decimal.eq_chars_of_isCanonical hdenotes hs, String.ofList_toList]

/-- A text is refused just when it is no keyword and says no number of 64 bits. -/
theorem parse?_eq_none_iff {s : String} :
    parse? s = none ↔ s ≠ "oldest" ∧ s ≠ "newest" ∧
      ∀ n, Denotes s.toList n → n < -0x8000000000000000 ∨ 0x7fffffffffffffff < n := by
  rw [Option.eq_none_iff_forall_ne_some]
  simp only [ne_eq, parse?_eq_some_iff]
  constructor
  · intro h
    refine ⟨?_, ?_, ?_⟩
    · rintro rfl
      exact h _ .oldest
    · rintro rfl
      exact h _ .newest
    · intro n hn
      by_contra hrange
      exact h (.message ⟨n, by omega, by omega⟩) (.message hn)
  · rintro ⟨hold, hnew, hrange⟩ a (_ | _ | ⟨hdenotes⟩)
    · exact hold rfl
    · exact hnew rfl
    · rename_i id
      have hlow := id.le_val
      have hhigh := id.val_lt
      have hout := hrange id.val hdenotes
      omega

/-- A JSON text stands for the anchor that the string it says names. -/
theorem parseJson?_eq_some_iff {t : String} {a : Anchor} :
    parseJson? t = some a ↔ ∃ s, Json.parse? t = some (.str s) ∧ parse? s = some a := by
  unfold parseJson? ofJson?
  constructor
  · intro h
    obtain ⟨value, hvalue, hread⟩ := Option.bind_eq_some_iff.1 h
    obtain ⟨s, hs, ha⟩ := Option.bind_eq_some_iff.1 hread
    cases value with
    | text content =>
      change content = some s at hs
      rw [hs] at hvalue
      exact ⟨s, hvalue, ha⟩
    | null | bool _ | number _ | array _ _ | object _ _ | broken => cases hs
  · rintro ⟨s, hs, ha⟩
    rw [hs]
    exact ha

theorem parseJson?_render (s : String) : parseJson? (Json.str s).render = parse? s := by
  rw [parseJson?, Json.parse?_render rfl]
  rfl

/-- The texts of anchors are the keywords and the numerals of 64 bits, each anchor has one canonical
text among them, which is the one that is written and reads back, and all of this holds of the
strings of JSON as well. -/
theorem named_exactly :
    (∀ s a, parse? s = some a ↔ Named s a) ∧
      (∀ s, parse? s = none ↔ s ≠ "oldest" ∧ s ≠ "newest" ∧
        ∀ n, Denotes s.toList n → n < -0x8000000000000000 ∨ 0x7fffffffffffffff < n) ∧
      (∀ a : Anchor, parse? a.text = some a) ∧
      (∀ s a, parse? s = some a →
        (IsCanonical a.text.toList ∧ Named a.text a ∧
          ∀ t, Named t a → IsCanonical t.toList → t = a.text) ∧
        (parse? a.text).map text = some a.text) ∧
      (∀ t a, parseJson? t = some a ↔ ∃ s, Json.parse? t = some (.str s) ∧ parse? s = some a) ∧
      (∀ s, parseJson? (Json.str s).render = parse? s) ∧
      ∀ a : Anchor, parseJson? a.toJson.render = some a := by
  refine ⟨fun s a ↦ parse?_eq_some_iff, fun s ↦ parse?_eq_none_iff, parse?_text, ?_,
    fun t a ↦ parseJson?_eq_some_iff, parseJson?_render, ?_⟩
  · intro s a _
    refine ⟨⟨isCanonical_text a, parse?_eq_some_iff.1 (parse?_text a), fun t ht ↦ ht.eq_text⟩, ?_⟩
    rw [parse?_text, Option.map_some]
  · intro a
    rw [toJson, parseJson?_render, parse?_text]

-- The least number of 64 bits with zeros in front, and one below it.
example : (parse? "-0009223372036854775808").map text = some "-9223372036854775808" := by
  decide +kernel

example : parse? "-9223372036854775809" = none := by decide +kernel

end Anchor

end WhisperChat
