import WhisperChat.Blank
import WhisperChat.Store.Work

/-!
# Sending

A send is checked, its audience is worked out, and the message is written with an index row for each
user of the audience.  The checks come in a fixed order, and the first that fails names the error.
Writing is the last call; whoever runs a send does so as a whole or not at all.
-/

namespace WhisperChat

/-- A message that was written, and the users it was written for. -/
structure Sent where
  message : Message
  /-- Exactly those whose clients are told of the message. -/
  audience : IdentSet .user
  deriving DecidableEq

namespace Send

/-! ## Checks -/

def checkUser (user : UserId) (cause : WhisperError) : Work Unit := do
  let found ← Work.ask (.resolveUser user)
  if found.isNone then Work.throw cause

def checkRecipients : List UserId → Work Unit
  | [] => pure ()
  | user :: users => do
    checkUser user (.unknownRecipient (.user user))
    checkRecipients users

def checkGroups : List GroupId → Work Unit
  | [] => pure ()
  | group :: groups => do
    let found ← Work.ask (.resolveGroup group)
    if found.isNone then Work.throw (.unknownRecipient (.group group))
    checkGroups groups

/-- The descriptor of a send.  Only a send to a channel can be a whisper, and everybody it names has
to be there, users before groups and each in ascending order. -/
def buildDescriptor (target : Target) (users : List UserId) (groups : List GroupId) :
    Work (Option Descriptor) :=
  match target, Descriptor.ofLists? users groups with
  | _, none => pure none
  | .direct _, some _ => Work.throw .unsupportedContext
  | .channel _ _, some descriptor => do
    checkRecipients descriptor.users.toList
    checkGroups descriptor.groups.toList
    return some descriptor

/-- The text without white space at its ends, if it is not too short nor too long. -/
def trimmed (s : String) (limit : Nat) (tooShort tooLong : MessageFault) : Work String :=
  let text := Blank.trim s
  if text.isEmpty then Work.throw (.invalidMessage tooShort)
  else if limit < text.length then Work.throw (.invalidMessage tooLong)
  else pure text

/-- Fails unless the channel is there and the sender is subscribed to it. -/
def checkChannel (channel : ChannelId) (sender : UserId) : Work Unit := do
  let found ← Work.ask (.channelExists channel)
  if !found then Work.throw (.unknownChannel channel)
  let subscribed ← Work.ask (.isChannelSubscriber channel sender)
  if !subscribed then Work.throw (.notSubscribed channel)

/-- The channel and topic that the message is kept with; a direct message has neither. -/
def place (target : Target) (sender : UserId) : Work (Option (ChannelId × String)) :=
  match target with
  | .channel channel topic => do
    let topic ← trimmed topic maxTopicLength .noTopic .longTopic
    checkChannel channel sender
    return some (channel, topic)
  | .direct recipients => do
    if recipients.isEmpty then Work.throw (.invalidMessage .noRecipient)
    checkRecipients recipients
    return none

/-! ## Audience -/

def addMembers (audience : IdentSet .user) : List GroupId → Work (IdentSet .user)
  | [] => pure audience
  | group :: groups => do
    let members ← Work.ask (.currentGroupMembers group)
    addMembers (audience.union members) groups

/-- The users that a message is written for: the sender always; for a whisper the users it names and
the present members of the groups it names; otherwise the subscribers of the channel or the
recipients. -/
def computeAudience (sender : UserId) (target : Target) (descriptor : Option Descriptor) :
    Work (IdentSet .user) :=
  let base : IdentSet .user := .ofList [sender]
  match target, descriptor with
  | _, some descriptor => addMembers (base.union descriptor.users) descriptor.groups.toList
  | .channel channel _, none => do
    let subscribers ← Work.ask (.channelSubscribers channel)
    return base.union subscribers
  | .direct recipients, none => pure (base.insertAll recipients)

end Send

def send (now : ClockReading) (sender : UserId) (request : SendRequest) : Work Sent := do
  Send.checkUser sender (.unknownSender sender)
  let whisper ← Send.buildDescriptor request.target request.whisperUsers request.whisperGroups
  let content ← Send.trimmed request.content maxContentLength .noContent .longContent
  let place ← Send.place request.target sender
  let audience ← Send.computeAudience sender request.target whisper
  let message ← Work.ask (.insertMessage
    { sender, channel := place.map Prod.fst, topic := place.map Prod.snd, content,
      sentAt := now.toInstant, whisper } audience)
  return { message, audience }

end WhisperChat
