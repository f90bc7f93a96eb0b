import WhisperChat.Decimal

/-!
# Number literals

What a JSON text can say by a number: an integer, or a real.  Of a real only one thing is ever
asked, whether it lies within the range of a double.
-/

namespace WhisperChat.Json

inductive Number where
  /-- Digits with an optional minus sign, minus zero excepted. -/
  | integer (value : Int)
  /-- A number with a fraction or an exponent, or minus zero. -/
  | real (finite : Bool)
  deriving DecidableEq

namespace Number

/-- The least magnitude that rounds to no finite double. -/
def overflow : Nat := Nat.pow 2 1024 - Nat.pow 2 970

/-- Whether `mantissa * 10 ^ exponent` is below `overflow`.  The number of digits settles all but
the magnitudes near the bound, so that no huge power is computed. -/
def isBelowOverflow (mantissa : Nat) (exponent : Int) : Bool :=
  let width := (Decimal.digits mantissa).length
  if mantissa = 0 then true
  else if width + exponent ≤ 308 then true
  else if 309 < width + exponent then false
  else if 0 ≤ exponent then mantissa * Nat.pow 10 exponent.toNat < overflow
  else mantissa < overflow * Nat.pow 10 (-exponent).toNat

def isFinite : Number → Bool
  | integer value => isBelowOverflow value.natAbs 0
  | real finite => finite

/-- A run of digits, not empty, and what follows it. -/
def digits? (cs : List Char) : Option (List Char × List Char) :=
  let run := cs.takeWhile Char.isDigit
  if run.isEmpty then none else some (run, cs.dropWhile Char.isDigit)

/-- The digits before the point: one zero alone, or a run that starts with no zero. -/
def whole? (cs : List Char) : Option (List Char × List Char) :=
  (digits? cs).filter fun (run, _) ↦ run.head? != some '0' || run.length == 1

def fraction? : List Char → Option (Option (List Char) × List Char)
  | '.' :: cs => (digits? cs).map fun (run, rest) ↦ (some run, rest)
  | cs => some (none, cs)

/-- The exponent's digits after its sign. -/
def signedDigits? : List Char → Option (Int × List Char)
  | '-' :: cs => (digits? cs).map fun (run, rest) ↦ (-Int.ofNat (Nat.ofDigitChars 10 run 0), rest)
  | '+' :: cs => (digits? cs).map fun (run, rest) ↦ (Int.ofNat (Nat.ofDigitChars 10 run 0), rest)
  | cs => (digits? cs).map fun (run, rest) ↦ (Int.ofNat (Nat.ofDigitChars 10 run 0), rest)

/-- The exponent; `none` inside where there is no exponent mark. -/
def exponent? : List Char → Option (Option Int × List Char)
  | 'e' :: cs => (signedDigits? cs).map fun (value, rest) ↦ (some value, rest)
  | 'E' :: cs => (signedDigits? cs).map fun (value, rest) ↦ (some value, rest)
  | cs => some (none, cs)

def ofParts (negative : Bool) (whole : List Char) (fraction : Option (List Char))
    (exponent : Option Int) : Number :=
  match fraction, exponent with
  | none, none =>
    let value := Nat.ofDigitChars 10 whole 0
    if negative then if value = 0 then real true else integer (-Int.ofNat value)
    else integer (Int.ofNat value)
  | fraction, exponent =>
    let places := fraction.getD []
    real (isBelowOverflow (Nat.ofDigitChars 10 (whole ++ places) 0)
      (exponent.getD 0 - Int.ofNat places.length))

/-- The number without a sign at the start of the characters, and what follows it. -/
def unsigned? (negative : Bool) (cs : List Char) : Option (Number × List Char) := do
  let (whole, cs) ← whole? cs
  let (fraction, cs) ← fraction? cs
  let (exponent, cs) ← exponent? cs
  return (ofParts negative whole fraction exponent, cs)

/-- The longest number at the start of the characters, and what follows it. -/
def scan? : List Char → Option (Number × List Char)
  | '-' :: cs => unsigned? true cs
  | cs => unsigned? false cs

/-! ## What follows is shorter -/

theorem length_of_digits? {cs run rest : List Char} (h : digits? cs = some (run, rest)) :
    rest.length < cs.length := by
  unfold digits? at h
  simp only [List.isEmpty_iff] at h
  split at h
  · cases h
  · rename_i hne
    simp only [Option.some.injEq, Prod.mk.injEq] at h
    obtain ⟨rfl, rfl⟩ := h
    have hlen :=
      congrArg List.length (List.takeWhile_append_dropWhile (p := Char.isDigit) (l := cs))
    have hpos := List.length_pos_iff.2 hne
    simp only [List.length_append] at hlen
    omega

theorem length_of_fraction? {cs rest : List Char} {fraction : Option (List Char)}
    (h : fraction? cs = some (fraction, rest)) : rest.length ≤ cs.length := by
  unfold fraction? at h
  split at h
  · simp only [Option.map_eq_some_iff, Prod.exists, Prod.mk.injEq] at h
    obtain ⟨run, rest', h, -, rfl⟩ := h
    have := length_of_digits? h
    simp only [List.length_cons]
    omega
  · simp only [Option.some.injEq, Prod.mk.injEq] at h
    simp [h.2]

theorem length_of_signedDigits? {cs rest : List Char} {value : Int}
    (h : signedDigits? cs = some (value, rest)) : rest.length ≤ cs.length := by
  unfold signedDigits? at h
  split at h <;>
  · simp only [Option.map_eq_some_iff, Prod.exists, Prod.mk.injEq] at h
    obtain ⟨run, rest', h, -, rfl⟩ := h
    have := length_of_digits? h
    grind

theorem length_of_exponent? {cs rest : List Char} {exponent : Option Int}
    (h : exponent? cs = some (exponent, rest)) : rest.length ≤ cs.length := by
  unfold exponent? at h
  split at h
  · simp only [Option.map_eq_some_iff, Prod.exists, Prod.mk.injEq] at h
    obtain ⟨run, rest', h, -, rfl⟩ := h
    have := length_of_signedDigits? h
    simp only [List.length_cons]
    omega
  · simp only [Option.map_eq_some_iff, Prod.exists, Prod.mk.injEq] at h
    obtain ⟨run, rest', h, -, rfl⟩ := h
    have := length_of_signedDigits? h
    simp only [List.length_cons]
    omega
  · simp only [Option.some.injEq, Prod.mk.injEq] at h
    simp [h.2]

theorem length_of_unsigned? {negative : Bool} {cs rest : List Char} {number : Number}
    (h : unsigned? negative cs = some (number, rest)) : rest.length < cs.length := by
  simp only [unsigned?, Option.bind_eq_bind, Option.bind_eq_some_iff, Prod.exists] at h
  obtain ⟨whole, rest₁, h₁, fraction, rest₂, h₂, exponent, rest₃, h₃, h₄⟩ := h
  simp only [Option.pure_def, Option.some.injEq, Prod.mk.injEq] at h₄
  obtain ⟨-, rfl⟩ := h₄
  have hwhole := length_of_digits? (Option.filter_eq_some_iff.1 h₁).1
  have hfraction := length_of_fraction? h₂
  have hexponent := length_of_exponent? h₃
  omega

theorem length_of_scan? {cs rest : List Char} {number : Number}
    (h : scan? cs = some (number, rest)) : rest.length < cs.length := by
  unfold scan? at h
  split at h
  · have := length_of_unsigned? h
    simp only [List.length_cons]
    omega
  · exact length_of_unsigned? h

end Number

end WhisperChat.Json
