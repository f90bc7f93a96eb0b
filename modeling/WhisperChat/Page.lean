import WhisperChat.Anchor
import WhisperChat.Visibility

/-!
# Pages of a channel's history

A page holds the messages around an anchor that a viewer sees, oldest first.  Messages the viewer
does not see are passed over and never count.  What the viewer can reach is asked once for a page;
the history is walked in batches, and the index is asked once for a batch.
-/

namespace WhisperChat

/-- What a viewer can reach in a channel, as it was when a page was begun. -/
structure ViewerContext where
  viewer : UserId
  channel : ChannelId
  groups : IdentSet .group
  subscribed : Bool
  deriving DecidableEq

namespace ViewerContext

def load (viewer : UserId) (channel : ChannelId) : Work ViewerContext := do
  let groups ← Work.ask (.currentUserGroups viewer)
  let subscribed ← Work.ask (.isChannelSubscriber channel viewer)
  return { viewer, channel, groups, subscribed }

/-- The questions about a message, answered from the context and the index rows of a batch. -/
def access (context : ViewerContext) (rows : IdentSet .message) : Access Id where
  hasRow viewer message := viewer = context.viewer && message.id ∈ rows
  inGroups viewer descriptor := viewer = context.viewer && descriptor.groups.meets context.groups
  isSubscribed viewer channel :=
    viewer = context.viewer && channel = context.channel && context.subscribed

def sees (context : ViewerContext) (rows : IdentSet .message) (message : Message) : Bool :=
  Id.run (isVisible (context.access rows) context.viewer message)

end ViewerContext

/-- Whether visibility of the message can depend on the index. -/
def Message.needsRow (message : Message) : Bool := message.whisper.isSome || message.channel.isNone

/-- Those of the candidates that the viewer sees, in their order.  The index is asked once, and only
about messages whose visibility can depend on it. -/
def filterVisible (context : ViewerContext) (candidates : List Message) : Work (List Message) :=
  match (candidates.filter Message.needsRow).map Message.id with
  | [] => pure (candidates.filter (context.sees .empty))
  | ids => do
    let rows ← Work.ask (.visibilityRowsAmong context.viewer ids)
    return candidates.filter (context.sees rows)

namespace Page

def batchSize : Nat := 100

/-- The number of messages that memory can be set aside for. -/
def capacity : Nat := 0x7fffffffffffffff / 152

/-- Walks on until `want` messages have been found, the history ends, or `rounds` batches have been
fetched; what has been found is in `found`.  Where to go on is settled right after a full batch,
whether or not more is wanted. -/
def walk (context : ViewerContext) (want : Nat) :
    (rounds : Nat) → (scan : Scan) → (found : List Message) → Work (List Message)
  | 0, _, found => pure found
  | rounds + 1, scan, found =>
    if want ≤ found.length then pure found
    else do
      let batch ← Work.ask (.channelWindow context.channel scan batchSize)
      match batch.getLast? with
      | none => return found
      | some last =>
        let visible ← filterVisible context batch
        let found := found ++ visible.take (want - found.length)
        if batch.length < batchSize then return found
        match scan.continueAfter last.id with
        | none => Work.fail .overflow
        | some scan => walk context want rounds scan found

/-- The first `want` messages of a walk that the viewer sees.  Each batch narrows the walk, so that
there are never more batches than identifiers on the way. -/
def scanVisible (context : ViewerContext) (scan : Scan) (want : Nat) : Work (List Message) :=
  if capacity < want then Work.fail .outOfMemory
  else walk context want (scan.width + 1) scan []

end Page

/-- How much is asked for around an anchor, in messages that the viewer sees. -/
structure Window where
  anchor : Anchor
  before : Nat
  after : Nat
  deriving DecidableEq

namespace Window

/-- The walk through what lies before the anchor. -/
def beforeScan (w : Window) : Option Scan :=
  if w.before = 0 then none
  else
    match w.anchor with
    | .oldest => none
    | .newest => some (.before none)
    | .message id => some (.before (some id))

/-- The walk through what lies after the anchor, the anchor's own message included. -/
def afterScan (w : Window) : Option Scan :=
  if w.after = 0 then none
  else
    match w.anchor with
    | .newest => none
    | .oldest => some (.atOrAfter (.zero .message))
    | .message id => some (.atOrAfter id)

end Window

/-- The part of a page that a walk brings, nothing without a walk. -/
def Page.side (context : ViewerContext) (scan : Option Scan) (want : Nat) : Work (List Message) :=
  match scan with
  | none => pure []
  | some scan => scanVisible context scan want

/-- The page around an anchor, oldest message first. -/
def listMessages (viewer : UserId) (channel : ChannelId) (window : Window) :
    Work (List Message) := do
  let context ← ViewerContext.load viewer channel
  let before ← Page.side context window.beforeScan window.before
  let after ← Page.side context window.afterScan window.after
  return before.reverse ++ after

end WhisperChat
