import WhisperChat.Store.Error
import WhisperChat.Store.MessageTable

/-!
# The database

The tables, and the statements on them.  A statement either takes effect as a whole or fails and
changes nothing.  A table can be closed for writing; then a statement fails before anything else is
looked at.  A row that repeats a key is refused before a row that names a missing row.
-/

namespace WhisperChat

inductive Write where
  | insert
  | delete
  deriving DecidableEq

structure Database where
  users : List (UserId × String) := []
  channels : List (ChannelId × String) := []
  groups : List (GroupId × String) := []
  subscriptions : List (ChannelId × UserId) := []
  members : List (GroupId × UserId) := []
  messages : MessageTable := .empty
  /-- The index: who was in the audience of which message. -/
  visibility : List (MessageId × UserId) := []
  /-- The writes that are refused. -/
  closed : List (Table × Write) := []

namespace Database

/-! ## Questions -/

def userExists (db : Database) (user : UserId) : Bool := db.users.any fun row ↦ row.1 = user

def channelExists (db : Database) (channel : ChannelId) : Bool :=
  db.channels.any fun row ↦ row.1 = channel

def groupExists (db : Database) (group : GroupId) : Bool := db.groups.any fun row ↦ row.1 = group

def isSubscribed (db : Database) (channel : ChannelId) (user : UserId) : Bool :=
  db.subscriptions.contains (channel, user)

def subscribers (db : Database) (channel : ChannelId) : IdentSet .user :=
  .ofList ((db.subscriptions.filter fun row ↦ row.1 = channel).map Prod.snd)

/-- The members of a group; a group that is not there has none. -/
def groupMembers (db : Database) (group : GroupId) : IdentSet .user :=
  .ofList ((db.members.filter fun row ↦ row.1 = group).map Prod.snd)

def groupsOf (db : Database) (user : UserId) : IdentSet .group :=
  .ofList ((db.members.filter fun row ↦ row.2 = user).map Prod.fst)

def hasVisibilityRow (db : Database) (message : MessageId) (user : UserId) : Bool :=
  db.visibility.contains (message, user)

def visibilityRowCount (db : Database) (message : MessageId) : Nat :=
  db.visibility.countP fun row ↦ row.1 = message

def messageCount (db : Database) : Nat := db.messages.rows.length

/-! ## Statements -/

def checkOpen (db : Database) (table : Table) (write : Write) : Except StoreError Unit :=
  if db.closed.contains (table, write) then .error .refused else .ok ()

def close (db : Database) (table : Table) (write : Write) : Database :=
  { db with closed := (table, write) :: db.closed }

/-- The identifier of the next row: one more than the greatest, one in an empty table.  When the
greatest identifier is taken, the least positive one that is free. -/
def nextRowId? {kind : IdentKind} : List (Ident kind) → Option (Ident kind)
  | [] => Ident.ofInt? kind 1
  | a :: rest =>
    match (rest.foldl (fun a b ↦ if a < b then b else a) a).next? with
    | some next => some next
    | none =>
      ((List.range (rest.length + 2)).filterMap fun n ↦ Ident.ofInt? kind (Int.ofNat n + 1)).find?
        fun b ↦ !(a :: rest).contains b

def putUser (db : Database) (user : UserId) (name : String) : Except StoreError Database := do
  db.checkOpen .users .insert
  if db.userExists user then throw (.duplicate .userId)
  return { db with users := db.users ++ [(user, name)] }

def createUser (db : Database) (name : String) : Except StoreError (UserId × Database) := do
  db.checkOpen .users .insert
  match nextRowId? (db.users.map Prod.fst) with
  | none => throw .full
  | some user => return (user, ← db.putUser user name)

def putChannel (db : Database) (channel : ChannelId) (name : String) :
    Except StoreError Database := do
  db.checkOpen .channels .insert
  if db.channelExists channel then throw (.duplicate .channelId)
  if db.channels.any fun row ↦ row.2 = name then throw (.duplicate .channelName)
  return { db with channels := db.channels ++ [(channel, name)] }

def createChannel (db : Database) (name : String) : Except StoreError (ChannelId × Database) := do
  db.checkOpen .channels .insert
  match nextRowId? (db.channels.map Prod.fst) with
  | none => throw .full
  | some channel => return (channel, ← db.putChannel channel name)

/-- Puts a group without members into the database under the given identifier. -/
def putGroup (db : Database) (group : GroupId) (name : String) : Except StoreError Database := do
  db.checkOpen .groups .insert
  if db.groupExists group then throw (.duplicate .groupId)
  if db.groups.any fun row ↦ row.2 = name then throw (.duplicate .groupName)
  return { db with groups := db.groups ++ [(group, name)] }

/-- Adds a user to a group; the answer is whether the user was no member before. -/
def addMember (db : Database) (group : GroupId) (user : UserId) :
    Except StoreError (Bool × Database) := do
  db.checkOpen .members .insert
  if db.members.contains (group, user) then return (false, db)
  if !(db.groupExists group && db.userExists user) then throw .missingReference
  return (true, { db with members := db.members ++ [(group, user)] })

/-- Takes a user out of a group; the answer is whether the user was a member. -/
def removeMember (db : Database) (group : GroupId) (user : UserId) :
    Except StoreError (Bool × Database) := do
  if !db.members.contains (group, user) then return (false, db)
  db.checkOpen .members .delete
  return (true, { db with members := db.members.filter (· ≠ (group, user)) })

/-- Adds users to a group one by one, each by a statement of its own; the first failure ends it. -/
def addMembers (db : Database) (group : GroupId) :
    List UserId → Except StoreError Unit × Database
  | [] => (.ok (), db)
  | user :: users =>
    match db.addMember group user with
    | .error e => (.error e, db)
    | .ok (_, db) => addMembers db group users

/-- Puts a new group into the database and then its members.  A member that fails leaves the group
and the members before it. -/
def createGroup (db : Database) (name : String) (members : List UserId) :
    Except StoreError GroupId × Database :=
  let created : Except StoreError (GroupId × Database) := do
    db.checkOpen .groups .insert
    match nextRowId? (db.groups.map Prod.fst) with
    | none => throw .full
    | some group => return (group, ← db.putGroup group name)
  match created with
  | .error e => (.error e, db)
  | .ok (group, db) =>
    let (added, db) := db.addMembers group members
    (added.map fun _ ↦ group, db)

/-- Deletes a group with its memberships; the answer is whether it was there. -/
def deleteGroup (db : Database) (group : GroupId) : Except StoreError (Bool × Database) := do
  if !db.groupExists group then return (false, db)
  db.checkOpen .groups .delete
  if db.members.any fun row ↦ row.1 = group then db.checkOpen .members .delete
  return (true, { db with
    groups := db.groups.filter fun row ↦ row.1 ≠ group
    members := db.members.filter fun row ↦ row.1 ≠ group })

def subscribe (db : Database) (channel : ChannelId) (user : UserId) :
    Except StoreError Database := do
  db.checkOpen .subscriptions .insert
  if db.isSubscribed channel user then return db
  if !(db.channelExists channel && db.userExists user) then throw .missingReference
  return { db with subscriptions := db.subscriptions ++ [(channel, user)] }

def unsubscribe (db : Database) (channel : ChannelId) (user : UserId) :
    Except StoreError Database := do
  if !db.isSubscribed channel user then return db
  db.checkOpen .subscriptions .delete
  return { db with subscriptions := db.subscriptions.filter (· ≠ (channel, user)) }

/-! ## Messages -/

def putMessage (db : Database) (row : MessageRow) : Except StoreError Database := do
  db.checkOpen .messages .insert
  if db.messages.contains row.id then throw (.duplicate .messageId)
  if !(db.userExists row.sender && row.channel.all db.channelExists) then throw .missingReference
  return { db with messages := db.messages.insert row }

/-- Puts a row into the index that must not be there yet. -/
def putVisibilityRow (db : Database) (message : MessageId) (user : UserId) :
    Except StoreError Database := do
  db.checkOpen .visibility .insert
  if db.hasVisibilityRow message user then throw (.duplicate .visibilityRow)
  if !(db.messages.contains message && db.userExists user) then throw .missingReference
  return { db with visibility := db.visibility ++ [(message, user)] }

/-- Puts a row into the index, if it is not there yet. -/
def addVisibilityRow (db : Database) (message : MessageId) (user : UserId) :
    Except StoreError Database := do
  db.checkOpen .visibility .insert
  if db.hasVisibilityRow message user then return db
  db.putVisibilityRow message user

/-- Puts index rows of a message one by one; the first failure ends it. -/
def addVisibilityRows (db : Database) (message : MessageId) :
    List UserId → Except StoreError Unit × Database
  | [] => (.ok (), db)
  | user :: users =>
    match db.addVisibilityRow message user with
    | .error e => (.error e, db)
    | .ok db => addVisibilityRows db message users

/-- Gives a draft the next identifier and writes its row, then one index row for each user of the
audience, in ascending order.  A failure leaves what was written before it. -/
def insertMessage (db : Database) (draft : Draft) (audience : IdentSet .user) :
    Except StoreError Message × Database :=
  let written : Except StoreError (MessageId × Database) := do
    db.checkOpen .messages .insert
    match db.messages.nextId? with
    | none => throw .full
    | some id => return (id, ← db.putMessage (.ofDraft id draft))
  match written with
  | .error e => (.error e, db)
  | .ok (id, db) =>
    let (added, db) := db.addVisibilityRows id audience.toList
    (added.map fun _ ↦ { draft with id }, db)

def messageById (db : Database) (id : MessageId) : Except StoreError (Option Message) :=
  match db.messages.find? id with
  | none => .ok none
  | some row =>
    match row.decode with
    | .ok message => .ok (some message)
    | .error cause => .error (.corrupt cause)

/-- Those of the messages that the index has a row of for the user. -/
def visibilityRowsAmong (db : Database) (user : UserId) (messages : List MessageId) :
    IdentSet .message :=
  .ofList (messages.filter fun message ↦ db.hasVisibilityRow message user)

/-- The first messages of a walk through a channel, in the order of the walk. -/
def channelWindow (db : Database) (channel : ChannelId) (scan : Scan) (limit : Nat) :
    Except StoreError (List Message) :=
  match (db.messages.window channel scan limit).mapM MessageRow.decode with
  | .ok messages => .ok messages
  | .error cause => .error (.corrupt cause)

end Database

end WhisperChat
