import Mathlib.Tactic.IntervalCases
import WhisperChat.Decimal

/-!
# Runs of digits

A run of digits that is followed by something else is cut off where it ends, padding changes its
length but not its value, and a number is written with no zero in front.
-/

namespace WhisperChat.Decimal

/-! ## Cutting off a run -/

/-- What follows does not go on with a digit. -/
def EndsRun (rest : List Char) : Prop := ∀ c, rest.head? = some c → c.isDigit = false

theorem endsRun_cons {c : Char} {rest : List Char} (h : c.isDigit = false) :
    EndsRun (c :: rest) := by
  rintro _ ⟨⟩
  exact h

theorem takeWhile_of_endsRun {rest : List Char} (h : EndsRun rest) :
    rest.takeWhile Char.isDigit = [] := by
  cases rest with
  | nil => rfl
  | cons c rest => simp [h c rfl]

theorem dropWhile_of_endsRun {rest : List Char} (h : EndsRun rest) :
    rest.dropWhile Char.isDigit = rest := by
  cases rest with
  | nil => rfl
  | cons c rest => simp [h c rfl]

theorem takeWhile_run {run rest : List Char} (hrun : ∀ c ∈ run, c.isDigit = true)
    (hrest : EndsRun rest) : (run ++ rest).takeWhile Char.isDigit = run := by
  rw [List.takeWhile_append_of_pos hrun, takeWhile_of_endsRun hrest, List.append_nil]

theorem dropWhile_run {run rest : List Char} (hrun : ∀ c ∈ run, c.isDigit = true)
    (hrest : EndsRun rest) : (run ++ rest).dropWhile Char.isDigit = rest := by
  rw [List.dropWhile_append_of_pos hrun, dropWhile_of_endsRun hrest]

/-! ## Written numbers -/

theorem ofDigitChars_digits (n : Nat) : Nat.ofDigitChars 10 (digits n) 0 = n :=
  Nat.ofDigitChars_ten_toDigits

/-- Only the number zero is written with a zero in front. -/
theorem head?_digits_ne_zero {n : Nat} (hn : 0 < n) : (digits n).head? ≠ some '0' := by
  induction n using Nat.strong_induction_on with
  | _ n ih =>
    unfold digits
    rw [Nat.toDigits_eq_if (by decide)]
    split
    · rename_i hlt
      interval_cases n <;> decide
    · rename_i hge
      have hhead := ih (n / 10) (by omega) (by omega)
      obtain ⟨c, cs, hcs⟩ := List.exists_cons_of_ne_nil (digits_ne_nil (n / 10))
      rw [hcs] at hhead
      rw [digits] at hcs
      simpa [hcs] using hhead

/-! ## Padding -/

theorem isDigit_of_mem_padded {width n : Nat} {c : Char} (h : c ∈ padded width n) :
    c.isDigit = true := by
  rcases List.mem_append.1 h with h | h
  · rw [List.eq_of_mem_replicate h]
    decide
  · exact isDigit_of_mem_digits h

theorem padded_ne_nil (width n : Nat) : padded width n ≠ [] := by
  simp [padded, digits_ne_nil]

theorem length_padded {width n : Nat} (hwidth : 0 < width) (h : n < Nat.pow 10 width) :
    (padded width n).length = width := by
  have hlen : (digits n).length ≤ width := (Nat.length_toDigits_le_iff (by decide) hwidth).2 h
  simp only [padded, List.length_append, List.length_replicate]
  omega

@[simp]
theorem ofDigitChars_padded (width n : Nat) : Nat.ofDigitChars 10 (padded width n) 0 = n := by
  rw [padded, Nat.ofDigitChars_append, Nat.ofDigitChars_replicate_zero, Nat.mul_zero]
  exact ofDigitChars_digits n

theorem head?_padded {width n : Nat} {c : Char} (h : (padded width n).head? = some c) :
    c.isDigit = true :=
  isDigit_of_mem_padded (List.mem_of_mem_head? (Option.mem_def.2 h))

end WhisperChat.Decimal
