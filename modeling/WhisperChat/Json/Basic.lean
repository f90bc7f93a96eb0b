import WhisperChat.Json.Number

/-!
# JSON values

A JSON text is read into the tree of what it says up to the point where it stops being JSON, so that
what a reader objects to first can be told from the tree.  An array or object that the text breaks
off in is not closed, and a value that is missing is `broken`.  A text that is JSON throughout gives
a tree that is `whole`.
-/

namespace WhisperChat

inductive Json where
  | null
  | bool (value : Bool)
  | number (value : Json.Number)
  /-- A string; `none` where its escapes name half a surrogate pair. -/
  | text (value : Option String)
  | array (items : List Json) (closed : Bool)
  | object (members : List (Option String × Json)) (closed : Bool)
  /-- No value: the text stops being JSON here. -/
  | broken

namespace Json

/-! ## Building values to be written -/

abbrev str (s : String) : Json := text (some s)

abbrev int (i : Int) : Json := number (.integer i)

abbrev list (items : List Json) : Json := array items true

def record (members : List (String × Json)) : Json :=
  object (members.map fun (name, value) ↦ (some name, value)) true

/-! ## Properties of trees -/

mutual

/-- Whether the text was JSON throughout. -/
def whole : Json → Bool
  | array items closed => closed && wholeItems items
  | object members closed => closed && wholeMembers members
  | broken => false
  | null | bool _ | number _ | text _ => true

def wholeItems : List Json → Bool
  | [] => true
  | item :: items => item.whole && wholeItems items

def wholeMembers : List (Option String × Json) → Bool
  | [] => true
  | (_, value) :: members => value.whole && wholeMembers members

end

mutual

/-- Whether the value can be kept for later: it is whole, its texts name characters, its numbers are
within the range of a double, and it has at most `depth` levels of arrays and objects. -/
def keepable (depth : Nat) : Json → Bool
  | null | bool _ => true
  | number value => value.isFinite
  | text value => value.isSome
  | array items closed =>
    match depth with
    | 0 => false
    | depth + 1 => closed && keepableItems depth items
  | object members closed =>
    match depth with
    | 0 => false
    | depth + 1 => closed && keepableMembers depth members
  | broken => false

def keepableItems (depth : Nat) : List Json → Bool
  | [] => true
  | item :: items => item.keepable depth && keepableItems depth items

def keepableMembers (depth : Nat) : List (Option String × Json) → Bool
  | [] => true
  | (name, value) :: members => name.isSome && value.keepable depth && keepableMembers depth members

end

end Json

end WhisperChat
