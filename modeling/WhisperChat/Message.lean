import WhisperChat.IdentSet
import WhisperChat.Instant.Basic

/-!
# Messages

What is sent, what is kept of it, and what connected clients are told.  A message to a channel may
be a whisper: it then carries a descriptor, which names the users and groups it was addressed to.
-/

namespace WhisperChat

/-- The recipients that a whisper was addressed to, as the sender named them.  The descriptor is
written once and never changes, whatever becomes of the groups. -/
structure Descriptor where
  users : IdentSet .user
  groups : IdentSet .group
  deriving DecidableEq

/-- The descriptor of the lists, if they name anybody. -/
def Descriptor.ofLists? (users : List UserId) (groups : List GroupId) : Option Descriptor :=
  if users.isEmpty && groups.isEmpty then none else some ⟨.ofList users, .ofList groups⟩

inductive Target where
  | channel (id : ChannelId) (topic : String)
  | direct (recipients : List UserId)
  deriving DecidableEq

structure SendRequest where
  target : Target
  content : String
  whisperUsers : List UserId
  whisperGroups : List GroupId
  deriving DecidableEq

structure Draft where
  sender : UserId
  /-- The channel; a direct message has none. -/
  channel : Option ChannelId
  topic : Option String
  content : String
  sentAt : Instant
  whisper : Option Descriptor
  deriving DecidableEq

structure Message extends Draft where
  id : MessageId
  deriving DecidableEq

def Message.isWhisper (m : Message) : Bool := m.whisper.isSome

/-- What a connected client is told. -/
inductive Event where
  /-- The connection is registered. -/
  | ready (user : UserId)
  /-- A message was sent whose audience the client's user belongs to. -/
  | messageCreated (message : Message)
  deriving DecidableEq

end WhisperChat
