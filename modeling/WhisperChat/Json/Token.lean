import WhisperChat.Json.Number
import WhisperChat.Json.Text

/-!
# Tokens of a JSON text

The characters of a text are cut into tokens, each the longest that the grammar allows.  The first
character that starts no token ends the reading with the token `bad`.
-/

namespace WhisperChat.Json

inductive Token where
  | openBrace
  | closeBrace
  | openBracket
  | closeBracket
  | colon
  | comma
  | null
  | bool (value : Bool)
  | number (value : Number)
  /-- A string; `none` where its escapes name half a surrogate pair. -/
  | text (value : Option String)
  /-- The text stops being JSON here. -/
  | bad
  deriving DecidableEq

namespace Token

def isBlank (c : Char) : Bool := c = ' ' || c = '\t' || c = '\n' || c = '\r'

/-- The token that starts with the given character, and the characters after it. -/
def next (c : Char) (cs : List Char) : Token × List Char :=
  match c, cs with
  | '\x7b', cs => (openBrace, cs)
  | '\x7d', cs => (closeBrace, cs)
  | '[', cs => (openBracket, cs)
  | ']', cs => (closeBracket, cs)
  | ':', cs => (colon, cs)
  | ',', cs => (comma, cs)
  | 'n', 'u' :: 'l' :: 'l' :: cs => (null, cs)
  | 't', 'r' :: 'u' :: 'e' :: cs => (bool true, cs)
  | 'f', 'a' :: 'l' :: 's' :: 'e' :: cs => (bool false, cs)
  | '"', cs =>
    match Text.scan? cs with
    | some (value, rest) => (text value, rest)
    | none => (bad, [])
  | c, cs =>
    match Number.scan? (c :: cs) with
    | some (value, rest) => (number value, rest)
    | none => (bad, [])

theorem length_next (c : Char) (cs : List Char) : (next c cs).2.length ≤ cs.length := by
  unfold next
  split
  case h_10 =>
    split
    · rename_i h
      exact Nat.le_of_lt (Text.length_of_scan? h)
    · simp
  case h_11 =>
    split
    · rename_i h
      have := Number.length_of_scan? h
      simpa using Nat.lt_succ_iff.1 this
    · simp
  all_goals simp only [List.length_cons]; omega

def scan : List Char → List Token
  | [] => []
  | c :: cs =>
    if isBlank c then scan cs
    else (next c cs).1 :: scan (next c cs).2
  termination_by cs => cs.length
  decreasing_by
  · simp
  · have := length_next c cs
    simp only [List.length_cons]
    omega

end Token

end WhisperChat.Json
