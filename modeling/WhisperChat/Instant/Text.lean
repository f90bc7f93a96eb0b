import WhisperChat.Blank
import WhisperChat.Decimal
import WhisperChat.Instant.Basic

/-!
# Instants as text

Instants are written as a date, the letter T, a time in universal time with as many groups of three
digits after the point as it needs, and a mark for universal time.  Reading is laxer: blanks may
stand around the numbers, digits may be fewer, a blank may replace the T, any offset may be given.
-/

namespace WhisperChat.Instant

/-! ## Writing -/

/-- The year: four digits, or a sign and at least four digits where four do not do. -/
def yearChars (year : Int) : List Char :=
  if 0 ≤ year ∧ year ≤ 9999 then Decimal.padded 4 year.toNat
  else (if year < 0 then '-' else '+') :: Decimal.padded 4 year.natAbs

/-- The digits after the point, in the fewest groups of three that lose nothing. -/
def fractionChars (nano : Nat) : List Char :=
  if nano = 0 then []
  else if nano % 1000000 = 0 then '.' :: Decimal.padded 3 (nano / 1000000)
  else if nano % 1000 = 0 then '.' :: Decimal.padded 6 (nano / 1000)
  else '.' :: Decimal.padded 9 nano

def timeChars (t : Instant) : List Char :=
  let isLeap := nanosPerSecond ≤ t.nano
  let second := t.second % 60 + if isLeap then 1 else 0
  let nano := if isLeap then t.nano - nanosPerSecond else t.nano
  yearChars t.date.year ++ '-' :: Decimal.padded 2 t.date.month ++
    '-' :: Decimal.padded 2 t.date.day ++
    'T' :: Decimal.padded 2 (t.second / 3600) ++ ':' :: Decimal.padded 2 (t.second / 60 % 60) ++
    ':' :: Decimal.padded 2 second ++ fractionChars nano

/-- The text with the letter Z at its end. -/
def text (t : Instant) : String := String.ofList (timeChars t ++ ['Z'])

/-- The text with a numeric offset at its end, as it is kept in the database. -/
def storedText (t : Instant) : String :=
  String.ofList (timeChars t ++ ['+', '0', '0', ':', '0', '0'])

/-! ## Reading -/

/-- A number of one to `width` digits after blanks. -/
def number? (width : Nat) (cs : List Char) : Option (Nat × List Char) :=
  let cs := Blank.trimStart cs
  let run := (cs.takeWhile Char.isDigit).take width
  if run.isEmpty then none else some (Nat.ofDigitChars 10 run 0, cs.drop run.length)

/-- A year after blanks: one to four digits, or a sign and any number of digits. -/
def year? (cs : List Char) : Option (Int × List Char) :=
  match Blank.trimStart cs with
  | '-' :: cs => (digits? cs).map fun (n, rest) ↦ (-Int.ofNat n, rest)
  | '+' :: cs => (digits? cs).map fun (n, rest) ↦ (Int.ofNat n, rest)
  | cs => (number? 4 cs).map fun (n, rest) ↦ (Int.ofNat n, rest)
where
  /-- A number of any length, without blanks in front. -/
  digits? (cs : List Char) : Option (Nat × List Char) :=
    let run := cs.takeWhile Char.isDigit
    if run.isEmpty then none else some (Nat.ofDigitChars 10 run 0, cs.drop run.length)

def mark? (c : Char) (cs : List Char) : Option (List Char) :=
  match Blank.trimStart cs with
  | d :: rest => if d = c then some rest else none
  | [] => none

/-- What stands between the date and the time. -/
def separator? : List Char → Option (List Char)
  | 'T' :: rest => some rest
  | 't' :: rest => some rest
  | ' ' :: rest => some rest
  | _ => none

/-- The nanoseconds after a point: of the digits the first nine count.  Without a point none. -/
def fraction? : List Char → Option (Nat × List Char)
  | '.' :: cs =>
    let run := cs.takeWhile Char.isDigit
    let kept := run.take 9
    if run.isEmpty then none
    else some (Nat.ofDigitChars 10 kept 0 * Nat.pow 10 (9 - kept.length), cs.drop run.length)
  | cs => some (0, cs)

/-- A numeric offset after its sign, in seconds: two digits, colons or blanks or nothing, two
digits. -/
def offsetDigits? : List Char → Option (Nat × List Char)
  | h₁ :: h₂ :: cs => do
    guard (h₁.isDigit ∧ h₂.isDigit)
    match cs.dropWhile fun c ↦ c = ':' || Blank.isBlank c with
    | m₁ :: m₂ :: rest =>
      guard (m₁.isDigit ∧ m₁ < '6' ∧ m₂.isDigit)
      return (Nat.ofDigitChars 10 [h₁, h₂] 0 * 3600 + Nat.ofDigitChars 10 [m₁, m₂] 0 * 60, rest)
    | _ => none
  | _ => none

/-- The offset from universal time, in seconds: its name, the letter Z, or a sign and digits. -/
def offset? (cs : List Char) : Option (Int × List Char) :=
  match cs with
  | 'Z' :: rest => some (0, rest)
  | 'z' :: rest => some (0, rest)
  | '+' :: rest => (offsetDigits? rest).map fun (n, rest) ↦ (Int.ofNat n, rest)
  | '-' :: rest => (offsetDigits? rest).map fun (n, rest) ↦ (-Int.ofNat n, rest)
  | '−' :: rest => (offsetDigits? rest).map fun (n, rest) ↦ (-Int.ofNat n, rest)
  | u :: t :: c :: rest =>
    if u.toUpper = 'U' ∧ t.toUpper = 'T' ∧ c.toUpper = 'C' then some (0, rest) else none
  | _ => none

def ofChars? (cs : List Char) : Option Instant := do
  let (year, cs) ← year? cs
  let cs ← mark? '-' cs
  let (month, cs) ← number? 2 cs
  let cs ← mark? '-' cs
  let (day, cs) ← number? 2 cs
  let cs ← separator? cs
  let (hour, cs) ← number? 2 cs
  let cs ← mark? ':' cs
  let (minute, cs) ← number? 2 cs
  let cs ← mark? ':' cs
  let (second, cs) ← number? 2 cs
  let (nano, cs) ← fraction? cs
  let (offset, cs) ← offset? (Blank.trimStart cs)
  guard (Blank.trimStart cs).isEmpty
  ofLocal? ⟨year, month, day⟩ ⟨hour, minute, second, nano⟩ offset

def parse? (s : String) : Option Instant := ofChars? s.toList

end WhisperChat.Instant
