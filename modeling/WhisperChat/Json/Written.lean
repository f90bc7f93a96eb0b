import WhisperChat.Json.Basic
import WhisperChat.Json.Text

/-!
# Writing JSON

The compact form: no blanks, members in their order, characters of strings escaped only where they
have to be.
-/

namespace WhisperChat.Json

mutual

def chars : Json → List Char
  | null => ['n', 'u', 'l', 'l']
  | bool true => ['t', 'r', 'u', 'e']
  | bool false => ['f', 'a', 'l', 's', 'e']
  | number (.integer value) => Decimal.chars value
  | number (.real _) | broken => []
  | text value => Text.quote (value.getD "")
  | array items _ => '[' :: itemChars items ++ [']']
  | object members _ => '\x7b' :: memberChars members ++ ['\x7d']

def itemChars : List Json → List Char
  | [] => []
  | [item] => item.chars
  | item :: items => item.chars ++ ',' :: itemChars items

def memberChars : List (Option String × Json) → List Char
  | [] => []
  | [(name, value)] => Text.quote (name.getD "") ++ ':' :: value.chars
  | (name, value) :: members =>
    Text.quote (name.getD "") ++ ':' :: value.chars ++ ',' :: memberChars members

end

def render (value : Json) : String := String.ofList value.chars

end WhisperChat.Json
