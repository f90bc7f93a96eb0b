import WhisperChat.Store.Row

/-!
# Failures of the store
-/

namespace WhisperChat

inductive Table where
  | users
  | channels
  | subscriptions
  | groups
  | members
  | messages
  | visibility
  deriving DecidableEq

def Table.name : Table → String
  | users => "users"
  | channels => "channels"
  | subscriptions => "subscriptions"
  | groups => "user_groups"
  | members => "group_members"
  | messages => "messages"
  | visibility => "message_visibility"

def Table.ofName? (name : String) : Option Table :=
  [users, channels, subscriptions, groups, members, messages, visibility].find? (·.name = name)

inductive Key where
  | userId
  | channelId
  | channelName
  | groupId
  | groupName
  | messageId
  | visibilityRow
  deriving DecidableEq

def Key.columns : Key → String
  | userId => "users.id"
  | channelId => "channels.id"
  | channelName => "channels.name"
  | groupId => "user_groups.id"
  | groupName => "user_groups.name"
  | messageId => "messages.id"
  | visibilityRow => "message_visibility.message_id, message_visibility.user_id"

inductive Method where
  | resolveUser
  | resolveGroup
  | channelExists
  | isChannelSubscriber
  | channelSubscribers
  | currentGroupMembers
  | currentUserGroups
  | insertMessage
  | messageById
  | hasVisibilityRow
  | visibilityRowsAmong
  | channelWindow
  deriving DecidableEq

def Method.name : Method → String
  | resolveUser => "resolve_user"
  | resolveGroup => "resolve_group"
  | channelExists => "channel_exists"
  | isChannelSubscriber => "is_channel_subscriber"
  | channelSubscribers => "channel_subscribers"
  | currentGroupMembers => "current_group_members"
  | currentUserGroups => "current_user_groups"
  | insertMessage => "insert_message"
  | messageById => "message_by_id"
  | hasVisibilityRow => "has_visibility_row"
  | visibilityRowsAmong => "visibility_rows_among"
  | channelWindow => "channel_window"

inductive StoreError where
  /-- A row names another row that is not there. -/
  | missingReference
  /-- A row repeats a key. -/
  | duplicate (key : Key)
  /-- There is no identifier left for a message. -/
  | full
  /-- The table has been closed for writing. -/
  | refused
  | corrupt (cause : Corruption)
  /-- A unit of work broke down while it held the lock. -/
  | poisoned
  /-- The method is out of order. -/
  | faulty (method : Method)
  /-- A unit of work was given up after its writes. -/
  | aborted
  /-- Any other reason. -/
  | other (reason : String)
  deriving DecidableEq

def StoreError.message : StoreError → String
  | missingReference => "FOREIGN KEY constraint failed"
  | duplicate key => "UNIQUE constraint failed: " ++ key.columns
  | full => "database or disk is full"
  | refused => "storage failure"
  | corrupt cause => cause.message
  | poisoned => "DB lock poisoned: poisoned lock: another task failed inside"
  | faulty method => "injected failure in " ++ method.name
  | aborted => "aborted after insert"
  | other reason => reason

end WhisperChat
