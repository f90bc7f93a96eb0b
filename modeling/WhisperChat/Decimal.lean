/-!
# Decimal numbers as text

A number is written with the fewest digits and a minus sign where it is negative.  Reading is laxer:
it also takes a plus sign and leading zeros, but nothing around the digits.  Main statement: a
written number reads back (`int?_ofInt`).
-/

namespace WhisperChat

namespace Decimal

/-! ## Writing -/

def digits (n : Nat) : List Char := Nat.toDigits 10 n

/-- The text of an integer, as characters. -/
def chars : Int → List Char
  | .ofNat n => digits n
  | .negSucc n => '-' :: digits (n + 1)

def ofInt (i : Int) : String := String.ofList (chars i)

def ofNat (n : Nat) : String := String.ofList (digits n)

/-- The digits of a number, with zeros in front up to the given width. -/
def padded (width n : Nat) : List Char :=
  List.replicate (width - (digits n).length) '0' ++ digits n

/-! ## Reading -/

/-- The number written by the digits; there has to be one at least, and nothing else. -/
def ofDigits? (cs : List Char) : Option Nat :=
  if cs.all Char.isDigit && !cs.isEmpty then some (Nat.ofDigitChars 10 cs 0) else none

/-- The integer that the characters write, with at most one sign. -/
def ofChars? : List Char → Option Int
  | '+' :: cs => (ofDigits? cs).map Int.ofNat
  | '-' :: cs => (ofDigits? cs).map fun n ↦ -Int.ofNat n
  | cs => (ofDigits? cs).map Int.ofNat

def int? (s : String) : Option Int := ofChars? s.toList

/-- The natural number below `bound` that a text writes, with at most a plus sign. -/
def natBelow? (bound : Nat) (s : String) : Option Nat :=
  let number := match s.toList with
    | '+' :: cs => ofDigits? cs
    | cs => ofDigits? cs
  number.filter (· < bound)

/-! ## Written numbers read back -/

theorem isDigit_of_mem_digits {n : Nat} {c : Char} (h : c ∈ digits n) : c.isDigit = true :=
  Nat.isDigit_of_mem_toDigits (by decide) (by decide) h

theorem digits_ne_nil (n : Nat) : digits n ≠ [] := Nat.toDigits_ne_nil

@[simp]
theorem ofDigits?_digits (n : Nat) : ofDigits? (digits n) = some n := by
  have hall : (digits n).all Char.isDigit = true :=
    List.all_eq_true.2 fun _ h ↦ isDigit_of_mem_digits h
  have hne : (digits n).isEmpty = false := by simpa using digits_ne_nil n
  simp only [ofDigits?, hall, hne, Bool.not_false, Bool.and_self, if_true]
  exact congrArg some Nat.ofDigitChars_ten_toDigits

theorem ofChars?_of_ne {cs : List Char} (hplus : cs.head? ≠ some '+')
    (hminus : cs.head? ≠ some '-') : ofChars? cs = (ofDigits? cs).map Int.ofNat := by
  unfold ofChars?
  split
  · simp at hplus
  · simp at hminus
  · rfl

theorem head?_digits_ne {n : Nat} {c : Char} (h : c.isDigit = false) :
    (digits n).head? ≠ some c := by
  intro heq
  have hmem := List.mem_of_mem_head? (Option.mem_def.2 heq)
  rw [isDigit_of_mem_digits hmem] at h
  cases h

@[simp]
theorem ofChars?_chars (i : Int) : ofChars? (chars i) = some i := by
  cases i with
  | ofNat n =>
    rw [chars, ofChars?_of_ne (head?_digits_ne (by decide)) (head?_digits_ne (by decide)),
      ofDigits?_digits]
    rfl
  | negSucc n =>
    simp only [chars, ofChars?, ofDigits?_digits, Option.map_some]
    rfl

@[simp]
theorem int?_ofInt (i : Int) : int? (ofInt i) = some i := by
  simp [int?, ofInt]

end Decimal

end WhisperChat
