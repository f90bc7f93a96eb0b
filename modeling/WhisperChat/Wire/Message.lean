import WhisperChat.Instant.Text
import WhisperChat.Json.Written
import WhisperChat.Message
import WhisperChat.Wire.Field

/-!
# Messages and descriptors on the wire
-/

namespace WhisperChat

namespace Descriptor

def toJson (d : Descriptor) : Json :=
  .record [("user_ids", Wire.idsJson d.users.toList), ("group_ids", Wire.idsJson d.groups.toList)]

/-- The descriptor that a value stands for.  A missing list is empty. -/
def ofJson? : Json → Option Descriptor
  | .object members _ => do
    let fields ← Wire.fields? ["user_ids", "group_ids"] members
    let users ← Wire.defaulted? fields "user_ids" .empty (Wire.idSet? .user)
    let groups ← Wire.defaulted? fields "group_ids" .empty (Wire.idSet? .group)
    return ⟨users, groups⟩
  | .array [] _ => some ⟨.empty, .empty⟩
  | .array [users] _ => return ⟨← Wire.idSet? .user users, .empty⟩
  | .array [users, groups] _ => return ⟨← Wire.idSet? .user users, ← Wire.idSet? .group groups⟩
  | _ => none

def text (d : Descriptor) : String := d.toJson.render

def parse? (s : String) : Option Descriptor := (Json.parse? s).bind ofJson?

end Descriptor

def Instant.ofJson? (value : Json) : Option Instant := (Wire.string? value).bind Instant.parse?

namespace Message

def toJson (m : Message) : Json :=
  .record [
    ("id", .int m.id.val),
    ("sender_id", .int m.sender.val),
    ("channel_id", Wire.nullable (fun c ↦ .int c.val) m.channel),
    ("topic", Wire.nullable .str m.topic),
    ("content", .str m.content),
    ("sent_at", .str m.sentAt.text),
    ("whisper_recipients", Wire.nullable Descriptor.toJson m.whisper)]

def fieldNames : List String :=
  ["id", "sender_id", "channel_id", "topic", "content", "sent_at", "whisper_recipients"]

/-- The message that a value stands for.  A field that may be null may also be missing, but not from
an array. -/
def ofJson? : Json → Option Message
  | .object members _ => do
    let fields ← Wire.fields? fieldNames members
    let id ← Wire.required? fields "id" (Wire.id? .message)
    let sender ← Wire.required? fields "sender_id" (Wire.id? .user)
    let channel ← Wire.defaulted? fields "channel_id" none (Wire.orNull? (Wire.id? .channel))
    let topic ← Wire.defaulted? fields "topic" none (Wire.orNull? Wire.string?)
    let content ← Wire.required? fields "content" Wire.string?
    let sentAt ← Wire.required? fields "sent_at" Instant.ofJson?
    let whisper ← Wire.defaulted? fields "whisper_recipients" none (Wire.orNull? Descriptor.ofJson?)
    return { id, sender, channel, topic, content, sentAt, whisper }
  | .array [id, sender, channel, topic, content, sentAt, whisper] _ => do
    let id ← Wire.id? .message id
    let sender ← Wire.id? .user sender
    let channel ← Wire.orNull? (Wire.id? .channel) channel
    let topic ← Wire.orNull? Wire.string? topic
    let content ← Wire.string? content
    let sentAt ← Instant.ofJson? sentAt
    let whisper ← Wire.orNull? Descriptor.ofJson? whisper
    return { id, sender, channel, topic, content, sentAt, whisper }
  | _ => none

def parse? (s : String) : Option Message := (Json.parse? s).bind ofJson?

end Message

end WhisperChat
