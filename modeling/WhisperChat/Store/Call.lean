import WhisperChat.Store.Database

/-!
# Calls on the store

What a piece of work can ask of the store, what the answers are, and how the database answers.
-/

namespace WhisperChat

inductive Call where
  | resolveUser (user : UserId)
  | resolveGroup (group : GroupId)
  | channelExists (channel : ChannelId)
  | isChannelSubscriber (channel : ChannelId) (user : UserId)
  | channelSubscribers (channel : ChannelId)
  | currentGroupMembers (group : GroupId)
  | currentUserGroups (user : UserId)
  | insertMessage (draft : Draft) (audience : IdentSet .user)
  | messageById (message : MessageId)
  | hasVisibilityRow (message : MessageId) (user : UserId)
  | visibilityRowsAmong (user : UserId) (messages : List MessageId)
  | channelWindow (channel : ChannelId) (scan : Scan) (limit : Nat)
  deriving DecidableEq

namespace Call

/-- What a call is answered with. -/
abbrev Result : Call → Type
  | resolveUser _ => Option UserId
  | resolveGroup _ => Option GroupId
  | channelExists _ => Bool
  | isChannelSubscriber _ _ => Bool
  | channelSubscribers _ => IdentSet .user
  | currentGroupMembers _ => IdentSet .user
  | currentUserGroups _ => IdentSet .group
  | insertMessage _ _ => Message
  | messageById _ => Option Message
  | hasVisibilityRow _ _ => Bool
  | visibilityRowsAmong _ _ => IdentSet .message
  | channelWindow _ _ _ => List Message

def method : Call → Method
  | resolveUser _ => .resolveUser
  | resolveGroup _ => .resolveGroup
  | channelExists _ => .channelExists
  | isChannelSubscriber _ _ => .isChannelSubscriber
  | channelSubscribers _ => .channelSubscribers
  | currentGroupMembers _ => .currentGroupMembers
  | currentUserGroups _ => .currentUserGroups
  | insertMessage _ _ => .insertMessage
  | messageById _ => .messageById
  | hasVisibilityRow _ _ => .hasVisibilityRow
  | visibilityRowsAmong _ _ => .visibilityRowsAmong
  | channelWindow _ _ _ => .channelWindow

/-- The answer of the database, and the database afterwards. -/
def answer : (call : Call) → Database → Except StoreError call.Result × Database
  | resolveUser user, db => (.ok (if db.userExists user then some user else none), db)
  | resolveGroup group, db => (.ok (if db.groupExists group then some group else none), db)
  | channelExists channel, db => (.ok (db.channelExists channel), db)
  | isChannelSubscriber channel user, db => (.ok (db.isSubscribed channel user), db)
  | channelSubscribers channel, db => (.ok (db.subscribers channel), db)
  | currentGroupMembers group, db => (.ok (db.groupMembers group), db)
  | currentUserGroups user, db => (.ok (db.groupsOf user), db)
  | insertMessage draft audience, db => db.insertMessage draft audience
  | messageById message, db => (db.messageById message, db)
  | hasVisibilityRow message user, db => (.ok (db.hasVisibilityRow message user), db)
  | visibilityRowsAmong user messages, db => (.ok (db.visibilityRowsAmong user messages), db)
  | channelWindow channel scan limit, db => (db.channelWindow channel scan limit, db)

end Call

end WhisperChat
