import WhisperChat.Wire.Message
import WhisperChat.Wire.Target

/-!
# Events on the wire

An event is told by its type and its data, in this order or the other, or as an array of the two.
Data that comes before the type is kept until the type is known.
-/

namespace WhisperChat.Event

def toJson : Event → Json
  | ready user => .record [("type", .str "Ready"), ("data", .record [("user_id", .int user.val)])]
  | messageCreated message =>
    .record [("type", .str "MessageCreate"), ("data", .record [("message", message.toJson)])]

def text (e : Event) : String := e.toJson.render

/-- The event of the named type with the given data. -/
def ofData? (name : String) : Json → Option Event
  | .object members _ =>
    if name = "Ready" then do
      let fields ← Wire.fields? ["user_id"] members
      return ready (← Wire.required? fields "user_id" (Wire.id? .user))
    else if name = "MessageCreate" then do
      let fields ← Wire.fields? ["message"] members
      return messageCreated (← Wire.required? fields "message" Message.ofJson?)
    else
      none
  | _ => none

def ofJson? : Json → Option Event
  | .object members _ => do
    let fields ← Wire.fields? ["type", "data"] members
    let name ← Wire.required? fields "type" Wire.string?
    let data ← fields.lookup "data"
    let dataFirst :=
      (fields.find? fun field ↦ field.1 = "type" || field.1 = "data").any (·.1 = "data")
    guard (!dataFirst || data.keepable Wire.keptDepth)
    ofData? name data
  | .array [name, data] _ => do ofData? (← Wire.string? name) data
  | _ => none

def parse? (s : String) : Option Event := (Json.parse? s).bind ofJson?

end WhisperChat.Event
