/-!
# String literals

A string literal is read as a list of units: characters, and the halves of surrogate pairs that
escapes can name.  A literal whose halves do not pair up has the grammar of a string but names no
text; it may be passed over, but not read.  Main statement: a written literal reads back
(`scan?_quote`).
-/

namespace WhisperChat.Json.Text

/-! ## Writing -/

def hexByte (n : Nat) : List Char := [Nat.digitChar (n / 16), Nat.digitChar (n % 16)]

def escape (c : Char) : List Char :=
  if c = '"' then ['\\', '"']
  else if c = '\\' then ['\\', '\\']
  else if c = '\x08' then ['\\', 'b']
  else if c = '\x0c' then ['\\', 'f']
  else if c = '\n' then ['\\', 'n']
  else if c = '\r' then ['\\', 'r']
  else if c = '\t' then ['\\', 't']
  else if c.toNat < 0x20 then '\\' :: 'u' :: '0' :: '0' :: hexByte c.toNat
  else [c]

def quote (s : String) : List Char := '"' :: s.toList.flatMap escape ++ ['"']

/-! ## Reading -/

inductive Piece where
  | char (c : Char)
  /-- The first half of a surrogate pair. -/
  | high (offset : Nat)
  /-- The second half of a surrogate pair. -/
  | low (offset : Nat)
  deriving DecidableEq

def hexValue? (c : Char) : Option Nat :=
  if '0' ≤ c ∧ c ≤ '9' then some (c.toNat - '0'.toNat)
  else if 'a' ≤ c ∧ c ≤ 'f' then some (c.toNat - 'a'.toNat + 10)
  else if 'A' ≤ c ∧ c ≤ 'F' then some (c.toNat - 'A'.toNat + 10)
  else none

/-- The piece named by four hexadecimal digits. -/
def pieceOfHex? (a b c d : Char) : Option Piece := do
  let n :=
    0x1000 * (← hexValue? a) + 0x100 * (← hexValue? b) + 0x10 * (← hexValue? c) + (← hexValue? d)
  return if 0xD800 ≤ n ∧ n < 0xDC00 then .high (n - 0xD800)
    else if 0xDC00 ≤ n ∧ n < 0xE000 then .low (n - 0xDC00)
    else .char (Char.ofNat n)

/-- The character that a backslash and a letter stand for. -/
def unescape? (c : Char) : Option Char :=
  if c = '"' ∨ c = '\\' ∨ c = '/' then some c
  else if c = 'b' then some '\x08'
  else if c = 'f' then some '\x0c'
  else if c = 'n' then some '\n'
  else if c = 'r' then some '\r'
  else if c = 't' then some '\t'
  else none

/-- The pieces up to the closing quote, and what follows it; the opening quote has been read. -/
def pieces? : List Char → Option (List Piece × List Char)
  | [] => none
  | '"' :: rest => some ([], rest)
  | '\\' :: 'u' :: a :: b :: c :: d :: rest =>
    (pieceOfHex? a b c d).bind fun piece ↦ (pieces? rest).map fun (ps, r) ↦ (piece :: ps, r)
  | '\\' :: e :: rest =>
    (unescape? e).bind fun c ↦ (pieces? rest).map fun (ps, r) ↦ (.char c :: ps, r)
  | c :: rest =>
    if c.toNat < 0x20 ∨ c = '\\' then none else (pieces? rest).map fun (ps, r) ↦ (.char c :: ps, r)

/-- The characters that the pieces name, where all halves pair up. -/
def join? : List Piece → Option (List Char)
  | [] => some []
  | .char c :: ps => (join? ps).map (c :: ·)
  | .high a :: .low b :: ps => (join? ps).map (Char.ofNat (0x10000 + 0x400 * a + b) :: ·)
  | .high _ :: _ => none
  | .low _ :: _ => none

/-- The text of a literal after its opening quote, `none` inside where halves do not pair up, and
what follows the literal. -/
def scan? (cs : List Char) : Option (Option String × List Char) :=
  (pieces? cs).map fun (ps, rest) ↦ ((join? ps).map String.ofList, rest)

/-! ## Written literals read back -/

theorem join?_map_char (cs : List Char) : join? (cs.map .char) = some cs := by
  induction cs with
  | nil => rfl
  | cons c cs ih => simp [join?, ih]

theorem hexByte_control : ∀ n : Fin 32,
    (pieceOfHex? '0' '0' (Nat.digitChar (n.val / 16)) (Nat.digitChar (n.val % 16))) =
      some (.char (Char.ofNat n.val)) := by decide

theorem pieces?_escape (c : Char) (rest : List Char) :
    pieces? (escape c ++ rest) = (pieces? rest).map fun (ps, r) ↦ (.char c :: ps, r) := by
  unfold escape
  split
  · subst_vars; simp [pieces?, unescape?]
  split
  · subst_vars; simp [pieces?, unescape?]
  split
  · subst_vars; simp [pieces?, unescape?]
  split
  · subst_vars; simp [pieces?, unescape?]
  split
  · subst_vars; simp [pieces?, unescape?]
  split
  · subst_vars; simp [pieces?, unescape?]
  split
  · subst_vars; simp [pieces?, unescape?]
  split
  · rename_i hlt
    have hhex := hexByte_control ⟨c.toNat, hlt⟩
    simp only [hexByte, List.cons_append, List.nil_append, pieces?, hhex, Option.bind_some]
    simp
  · rename_i hquote hback _ _ _ _ _ hlow
    rw [List.cons_append, List.nil_append, pieces?]
    · simp [hlow, hback]
    · exact hquote
    · intro _ _ _ _ _ h _
      exact hback h
    · intro _ _ h _
      exact hback h

theorem pieces?_flatMap_escape (cs rest : List Char) :
    pieces? (cs.flatMap escape ++ '"' :: rest) = some (cs.map .char, rest) := by
  induction cs with
  | nil => simp [pieces?]
  | cons c cs ih => simp [List.flatMap_cons, List.append_assoc, pieces?_escape, ih]

/-- A literal that was written names the text that it was written for. -/
theorem scan?_quote (s : String) (rest : List Char) :
    scan? ((quote s).tail ++ rest) = some (some s, rest) := by
  simp [scan?, quote, List.append_assoc, pieces?_flatMap_escape, join?_map_char]

/-! ## What follows is shorter -/

theorem length_of_pieces? {cs rest : List Char} {ps : List Piece}
    (h : pieces? cs = some (ps, rest)) : rest.length < cs.length := by
  fun_induction pieces? cs generalizing ps with
  | case1 => cases h
  | case2 => cases h; simp
  | case3 a b c d r ih =>
    simp only [Option.bind_eq_some_iff, Option.map_eq_some_iff, Prod.exists, Prod.mk.injEq] at h
    obtain ⟨_, -, qs, r', h, -, rfl⟩ := h
    have := ih h
    simp only [List.length_cons]
    omega
  | case4 e r _ ih =>
    simp only [Option.bind_eq_some_iff, Option.map_eq_some_iff, Prod.exists, Prod.mk.injEq] at h
    obtain ⟨_, -, qs, r', h, -, rfl⟩ := h
    have := ih h
    simp only [List.length_cons]
    omega
  | case5 => cases h
  | case6 c r _ _ _ _ ih =>
    simp only [Option.map_eq_some_iff, Prod.exists, Prod.mk.injEq] at h
    obtain ⟨qs, r', h, -, rfl⟩ := h
    have := ih h
    simp only [List.length_cons]
    omega

theorem length_of_scan? {cs rest : List Char} {text : Option String}
    (h : scan? cs = some (text, rest)) : rest.length < cs.length := by
  simp only [scan?, Option.map_eq_some_iff, Prod.exists, Prod.mk.injEq] at h
  obtain ⟨ps, rest', h, -, rfl⟩ := h
  exact length_of_pieces? h

end WhisperChat.Json.Text
