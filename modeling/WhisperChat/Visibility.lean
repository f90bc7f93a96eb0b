import WhisperChat.Store.Work

/-!
# Who sees what

A message without a descriptor is seen by the subscribers of its channel, a direct message by those
the index has rows for.  A whisper is seen by those the index has rows for, which says who was
addressed when it was sent, and by the present members of the groups it names.  The rule is stated
once, over any way to ask the three questions it depends on; a failing question never turns into a
grant.
-/

namespace WhisperChat

/-- A way to ask what visibility depends on. -/
structure Access (m : Type → Type) where
  /-- Whether the index has a row of the message for the viewer. -/
  hasRow : UserId → Message → m Bool
  /-- Whether the viewer belongs to a group of the descriptor now. -/
  inGroups : UserId → Descriptor → m Bool
  /-- Whether the viewer is subscribed to the channel now. -/
  isSubscribed : UserId → ChannelId → m Bool

/-- Whether the viewer sees the message.  The first grant settles it. -/
def isVisible {m : Type → Type} [Monad m] (access : Access m) (viewer : UserId)
    (message : Message) : m Bool :=
  match message.whisper with
  | none =>
    match message.channel with
    | some channel => access.isSubscribed viewer channel
    | none => access.hasRow viewer message
  | some descriptor => do
    if ← access.hasRow viewer message then return true
    if descriptor.groups.isEmpty then return false
    access.inGroups viewer descriptor

/-- Asks the store each time. -/
def Access.live : Access Work where
  hasRow viewer message := Work.ask (.hasVisibilityRow message.id viewer)
  inGroups viewer descriptor := do
    let groups ← Work.ask (.currentUserGroups viewer)
    return descriptor.groups.meets groups
  isSubscribed viewer channel := Work.ask (.isChannelSubscriber channel viewer)

def getMessage (viewer : UserId) (id : MessageId) : Work Message := do
  match ← Work.ask (.messageById id) with
  | none => Work.throw .notVisible
  | some message =>
    if ← isVisible .live viewer message then return message
    Work.throw .notVisible

end WhisperChat
