import WhisperChat.Ident

/-!
# Sets of identifiers

A set is kept as its strictly ascending list, so two sets with the same members are the same value
and a set is written in one way only.
-/

namespace WhisperChat

/-- A finite set of identifiers, as a strictly ascending list. -/
structure IdentSet (kind : IdentKind) where
  toList : List (Ident kind)
  ascending : toList.Pairwise (· < ·)
  deriving DecidableEq

namespace IdentSet

variable {kind : IdentKind}

instance : Membership (Ident kind) (IdentSet kind) := ⟨fun s a ↦ a ∈ s.toList⟩

theorem mem_def {a : Ident kind} {s : IdentSet kind} : a ∈ s ↔ a ∈ s.toList := Iff.rfl

instance (a : Ident kind) (s : IdentSet kind) : Decidable (a ∈ s) :=
  inferInstanceAs (Decidable (a ∈ s.toList))

/-! ## Insertion -/

/-- Puts an identifier at its place in an ascending list, unless it is there already. -/
def place (a : Ident kind) : List (Ident kind) → List (Ident kind)
  | [] => [a]
  | b :: rest => if a < b then a :: b :: rest else if a = b then b :: rest else b :: place a rest

@[simp]
theorem mem_place {a x : Ident kind} {l : List (Ident kind)} : x ∈ place a l ↔ x = a ∨ x ∈ l := by
  induction l with
  | nil => simp [place]
  | cons b rest ih =>
    unfold place
    split
    · simp
    · split
      · rename_i h
        subst h
        simp
      · simp only [List.mem_cons, ih]
        constructor
        · rintro (h | h | h) <;> simp [h]
        · rintro (h | h | h) <;> simp [h]

theorem pairwise_place {a : Ident kind} {l : List (Ident kind)} (h : l.Pairwise (· < ·)) :
    (place a l).Pairwise (· < ·) := by
  induction l with
  | nil => simp [place]
  | cons b rest ih =>
    have hb := List.pairwise_cons.1 h
    unfold place
    split
    · rename_i hab
      refine List.pairwise_cons.2 ⟨fun x hx ↦ ?_, h⟩
      rcases List.mem_cons.1 hx with rfl | hx
      · exact hab
      · exact Ident.lt_trans hab (hb.1 x hx)
    · split
      · exact h
      · rename_i hab hne
        refine List.pairwise_cons.2 ⟨fun x hx ↦ ?_, ih hb.2⟩
        rcases mem_place.1 hx with rfl | hx
        · rcases Ident.lt_trichotomy x b with h' | h' | h'
          · exact absurd h' hab
          · exact absurd h' hne
          · exact h'
        · exact hb.1 x hx

def empty : IdentSet kind := ⟨[], .nil⟩

def insert (a : Ident kind) (s : IdentSet kind) : IdentSet kind :=
  ⟨place a s.toList, pairwise_place s.ascending⟩

@[simp]
theorem mem_insert {a x : Ident kind} {s : IdentSet kind} : x ∈ s.insert a ↔ x = a ∨ x ∈ s :=
  mem_place

@[simp]
theorem not_mem_empty {x : Ident kind} : ¬ x ∈ (empty : IdentSet kind) := List.not_mem_nil

/-! ## Sets of lists -/

def insertAll (s : IdentSet kind) (l : List (Ident kind)) : IdentSet kind :=
  l.foldl (fun s a ↦ s.insert a) s

@[simp]
theorem mem_insertAll {l : List (Ident kind)} {s : IdentSet kind} {x : Ident kind} :
    x ∈ s.insertAll l ↔ x ∈ s ∨ x ∈ l := by
  unfold insertAll
  induction l generalizing s with
  | nil => simp
  | cons a rest ih =>
    rw [List.foldl_cons, ih, mem_insert, List.mem_cons]
    constructor
    · rintro ((h | h) | h) <;> simp [h]
    · rintro (h | h | h) <;> simp [h]

def ofList (l : List (Ident kind)) : IdentSet kind := empty.insertAll l

@[simp]
theorem mem_ofList {l : List (Ident kind)} {x : Ident kind} : x ∈ ofList l ↔ x ∈ l := by
  simp [ofList]

def union (s t : IdentSet kind) : IdentSet kind := s.insertAll t.toList

@[simp]
theorem mem_union {s t : IdentSet kind} {x : Ident kind} : x ∈ s.union t ↔ x ∈ s ∨ x ∈ t :=
  mem_insertAll

def isEmpty (s : IdentSet kind) : Bool := s.toList.isEmpty

def meets (s t : IdentSet kind) : Bool := s.toList.any (· ∈ t)

theorem meets_iff {s t : IdentSet kind} : s.meets t = true ↔ ∃ x, x ∈ s ∧ x ∈ t := by
  simp [meets, mem_def]

def size (s : IdentSet kind) : Nat := s.toList.length

/-! ## Equality -/

/-- An ascending list is settled by its members. -/
theorem eq_of_pairwise_of_mem_iff {l m : List (Ident kind)} (hl : l.Pairwise (· < ·))
    (hm : m.Pairwise (· < ·)) (h : ∀ x, x ∈ l ↔ x ∈ m) : l = m := by
  induction l generalizing m with
  | nil =>
    cases m with
    | nil => rfl
    | cons b _ => exact absurd ((h b).2 (by simp)) (by simp)
  | cons a l ih =>
    cases m with
    | nil => exact absurd ((h a).1 (by simp)) (by simp)
    | cons b m =>
      have hl' := List.pairwise_cons.1 hl
      have hm' := List.pairwise_cons.1 hm
      have hab : a = b := by
        rcases List.mem_cons.1 ((h a).1 (by simp)) with heq | ha
        · exact heq
        · rcases List.mem_cons.1 ((h b).2 (by simp)) with heq | hb
          · exact heq.symm
          · exact absurd (hl'.1 b hb) (Ident.lt_asymm (hm'.1 a ha))
      subst hab
      congr 1
      refine ih hl'.2 hm'.2 fun x ↦ ⟨fun hx ↦ ?_, fun hx ↦ ?_⟩
      · rcases List.mem_cons.1 ((h x).1 (by simp [hx])) with rfl | hx'
        · exact absurd (hl'.1 x hx) (Ident.lt_irrefl x)
        · exact hx'
      · rcases List.mem_cons.1 ((h x).2 (by simp [hx])) with rfl | hx'
        · exact absurd (hm'.1 x hx) (Ident.lt_irrefl x)
        · exact hx'

theorem ext {s t : IdentSet kind} (h : ∀ x, x ∈ s ↔ x ∈ t) : s = t := by
  cases s
  cases t
  simp only [mk.injEq]
  exact eq_of_pairwise_of_mem_iff ‹_› ‹_› h

@[simp]
theorem ofList_toList (s : IdentSet kind) : ofList s.toList = s := ext fun _ ↦ mem_ofList

end IdentSet

end WhisperChat
