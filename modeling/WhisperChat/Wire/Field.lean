import WhisperChat.IdentSet
import WhisperChat.Json.Tree

/-!
# Reading fields

How the parts of a wire type are read from a value that is whole.  A type with fields is an object,
in any order and with other members among them, or an array of its fields in their order.
-/

namespace WhisperChat.Wire

def id? (kind : IdentKind) : Json → Option (Ident kind)
  | .number (.integer n) => Ident.ofInt? kind n
  | _ => none

def string? : Json → Option String
  | .text value => value
  | _ => none

def orNull? {α : Type} (read : Json → Option α) : Json → Option (Option α)
  | .null => some none
  | value => (read value).map some

def ids? (kind : IdentKind) : Json → Option (List (Ident kind))
  | .array items _ => items.mapM (id? kind)
  | _ => none

/-- A set of identifiers, given as a list in any order and with repeats. -/
def idSet? (kind : IdentKind) (value : Json) : Option (IdentSet kind) :=
  (ids? kind value).map .ofList

/-- The members of an object, if all their names are text and none of the known names is
repeated. -/
def fields? (known : List String) (members : List (Option String × Json)) :
    Option (List (String × Json)) := do
  let fields ← members.mapM fun (name, value) ↦ name.map fun name ↦ (name, value)
  guard (known.all fun name ↦ (fields.filter fun field ↦ field.1 = name).length ≤ 1)
  return fields

/-- A field that has to be there. -/
def required? {α : Type} (fields : List (String × Json)) (name : String)
    (read : Json → Option α) : Option α :=
  (fields.lookup name).bind read

/-- A field that has a value when it is missing. -/
def defaulted? {α : Type} (fields : List (String × Json)) (name : String) (missing : α)
    (read : Json → Option α) : Option α :=
  match fields.lookup name with
  | none => some missing
  | some value => read value

/-! ## Writing -/

def idsJson {kind : IdentKind} (ids : List (Ident kind)) : Json :=
  .list (ids.map fun a ↦ .int a.val)

def nullable {α : Type} (write : α → Json) : Option α → Json
  | none => .null
  | some value => write value

end WhisperChat.Wire
