import WhisperChat.Store.Error

/-!
# Why a send or a read fails

Each cause is a constructor; what a user is told of it is said by `WhisperError.message`.  A message
that is hidden and a message that is not there are one cause, so that nobody learns which it is.
-/

namespace WhisperChat

inductive Recipient where
  | user (id : UserId)
  | group (id : GroupId)
  deriving DecidableEq

inductive MessageFault where
  | noContent
  | longContent
  | noTopic
  | longTopic
  | noRecipient
  /-- Any other fault. -/
  | other (reason : String)
  deriving DecidableEq

def maxTopicLength : Nat := 60

def maxContentLength : Nat := 10000

def MessageFault.message : MessageFault → String
  | noContent => "content must not be empty"
  | longContent => s!"content exceeds {maxContentLength} characters"
  | noTopic => "topic must not be empty"
  | longTopic => s!"topic exceeds {maxTopicLength} characters"
  | noRecipient => "direct message needs a recipient"
  | other reason => reason

/-- Why a send or a read fails. -/
inductive WhisperError where
  /-- A whisper that is not sent to a channel. -/
  | unsupportedContext
  | unknownRecipient (recipient : Recipient)
  | unknownSender (user : UserId)
  | unknownChannel (channel : ChannelId)
  | notSubscribed (channel : ChannelId)
  | invalidMessage (fault : MessageFault)
  /-- The message is hidden or not there. -/
  | notVisible
  /-- The store failed; the same request may succeed later. -/
  | store (cause : StoreError)
  deriving DecidableEq

namespace WhisperError

def message : WhisperError → String
  | unsupportedContext => "Whispers can only be sent in channels"
  | unknownRecipient (.user id) => s!"Invalid user id: {id}"
  | unknownRecipient (.group id) => s!"Invalid user group id: {id}"
  | unknownSender user => s!"Invalid sender id: {user}"
  | unknownChannel channel => s!"Channel does not exist: {channel}"
  | notSubscribed channel => s!"Not subscribed to channel {channel}"
  | invalidMessage fault => "Invalid message: " ++ fault.message
  | notVisible => "Invalid message(s)"
  | store cause => "Store unavailable: " ++ cause.message

/-- Whether the same request may succeed later. -/
def isRetriable : WhisperError → Bool
  | store _ => true
  | _ => false

end WhisperError

end WhisperChat
