import WhisperChat.Json.Written
import WhisperChat.Message
import WhisperChat.Wire.Field

/-!
# Targets on the wire

A target is told by its type and the fields of that type.  The type may stand anywhere among the
fields, so the others are kept until it is known.
-/

namespace WhisperChat

/-- The number of levels of arrays and objects that a value inside an object may have where it has
to be kept for later. -/
def Wire.keptDepth : Nat := 126

namespace Target

inductive Kind where
  | channel
  | direct
  deriving DecidableEq

def Kind.ofName? (name : String) : Option Kind :=
  if name = "channel" then some .channel else if name = "direct" then some .direct else none

def Kind.fieldNames : Kind → List String
  | .channel => ["channel_id", "topic"]
  | .direct => ["recipient_ids"]

def toJson : Target → Json
  | channel id topic =>
    .record [("type", .str "channel"), ("channel_id", .int id.val), ("topic", .str topic)]
  | direct recipients =>
    .record [("type", .str "direct"), ("recipient_ids", Wire.idsJson recipients)]

/-- The target of a type with the given fields; other fields are passed over. -/
def ofMembers? (kind : Kind) (members : List (Option String × Json)) : Option Target := do
  let fields ← Wire.fields? kind.fieldNames members
  match kind with
  | .channel =>
    let id ← Wire.required? fields "channel_id" (Wire.id? .channel)
    let topic ← Wire.required? fields "topic" Wire.string?
    return channel id topic
  | .direct =>
    let recipients ← Wire.required? fields "recipient_ids" (Wire.ids? .user)
    return direct recipients

def ofJson? : Json → Option Target
  | .object members _ => do
    let fields ← Wire.fields? ["type"] members
    let kind ← Wire.required? fields "type" fun value ↦ (Wire.string? value).bind Kind.ofName?
    guard (fields.all fun (name, value) ↦ name = "type" || value.keepable Wire.keptDepth)
    ofMembers? kind members
  | .array (kind :: fields) _ => do
    let kind ← (Wire.string? kind).bind Kind.ofName?
    guard (fields.all fun value ↦ value.keepable Wire.keptDepth)
    match kind, fields with
    | .channel, [id, topic] => return channel (← Wire.id? .channel id) (← Wire.string? topic)
    | .direct, [recipients] => return direct (← Wire.ids? .user recipients)
    | _, _ => none
  | _ => none

def parse? (s : String) : Option Target := (Json.parse? s).bind ofJson?

end Target

end WhisperChat
