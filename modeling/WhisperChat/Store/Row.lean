import WhisperChat.Wire.Message

/-!
# Message rows

A message is kept as a row whose instant and descriptor are text.  A text that cannot be read makes
the row corrupt; a descriptor that cannot be read never counts as none, which would show the whisper
to the whole channel.
-/

namespace WhisperChat

structure MessageRow where
  id : MessageId
  sender : UserId
  channel : Option ChannelId
  topic : Option String
  content : String
  sentAt : String
  whisper : Option String
  deriving DecidableEq

/-- Why a row does not decode. -/
inductive Corruption where
  | descriptor (id : MessageId)
  | sentAt (text : String) (id : MessageId)
  deriving DecidableEq

def Corruption.message : Corruption → String
  | descriptor id => "Corrupt whisper_recipients on message " ++ id.text
  | sentAt text id => "Corrupt sent_at '" ++ text ++ "' on message " ++ id.text

namespace MessageRow

def ofDraft (id : MessageId) (d : Draft) : MessageRow where
  id := id
  sender := d.sender
  channel := d.channel
  topic := d.topic
  content := d.content
  sentAt := d.sentAt.storedText
  whisper := d.whisper.map Descriptor.text

def descriptor (row : MessageRow) : Except Corruption (Option Descriptor) :=
  match row.whisper with
  | none => .ok none
  | some text =>
    match Descriptor.parse? text with
    | some d => .ok (some d)
    | none => .error (.descriptor row.id)

/-- The message of a row.  The descriptor is looked at before the instant. -/
def decode (row : MessageRow) : Except Corruption Message := do
  let whisper ← row.descriptor
  match Instant.parse? row.sentAt with
  | none => throw (.sentAt row.sentAt row.id)
  | some sentAt =>
    return { row with sentAt, whisper }

end MessageRow

end WhisperChat
