import Mathlib.Logic.Relation
import WhisperChat.Proofs.Run

/-!
# Rows name rows that are there

Whatever is done with the database comes down to a few elementary changes of its tables
(`Database.Change`).  Users and channels are never taken away, a group goes together with its
members, and nobody is put beside a user, a channel or a group that is not there.  So in every
reachable state those who subscribe to a channel or belong to a group are users who are there
(`Reachable.isReferential`).
-/

namespace WhisperChat

open Relation

namespace Database

/-- An elementary change of the tables. -/
inductive Change (db : Database) : Database → Prop
  | user {row : UserId × String} (hid : row.1 ∉ db.users.map Prod.fst) :
      Change db { db with users := db.users ++ [row] }
  | channel {row : ChannelId × String} (hid : row.1 ∉ db.channels.map Prod.fst)
      (hname : row.2 ∉ db.channels.map Prod.snd) :
      Change db { db with channels := db.channels ++ [row] }
  | group {row : GroupId × String} (hid : row.1 ∉ db.groups.map Prod.fst)
      (hname : row.2 ∉ db.groups.map Prod.snd) :
      Change db { db with groups := db.groups ++ [row] }
  | joined {group : GroupId} {user : UserId} (hgroup : db.groupExists group = true)
      (huser : db.userExists user = true) (hnew : (group, user) ∉ db.members) :
      Change db { db with members := db.members ++ [(group, user)] }
  | left (group : GroupId) (user : UserId) :
      Change db { db with members := db.members.filter (· ≠ (group, user)) }
  | dissolved (group : GroupId) :
      Change db { db with
        groups := db.groups.filter fun row ↦ row.1 ≠ group
        members := db.members.filter fun row ↦ row.1 ≠ group }
  | subscribed {channel : ChannelId} {user : UserId} (hchannel : db.channelExists channel = true)
      (huser : db.userExists user = true) (hnew : (channel, user) ∉ db.subscriptions) :
      Change db { db with subscriptions := db.subscriptions ++ [(channel, user)] }
  | unsubscribed (channel : ChannelId) (user : UserId) :
      Change db { db with subscriptions := db.subscriptions.filter (· ≠ (channel, user)) }
  /-- Something is written into the tables of messages and rows of the index. -/
  | written (messages : MessageTable) (visibility : List (MessageId × UserId)) :
      Change db { db with messages, visibility }

variable {db db' : Database}

/-! ## What the statements change -/

theorem userExists_iff {user : UserId} :
    db.userExists user = true ↔ ∃ row ∈ db.users, row.1 = user := by
  simp [userExists]

theorem channelExists_iff {channel : ChannelId} :
    db.channelExists channel = true ↔ ∃ row ∈ db.channels, row.1 = channel := by
  simp [channelExists]

theorem groupExists_iff {group : GroupId} :
    db.groupExists group = true ↔ ∃ row ∈ db.groups, row.1 = group := by
  simp [groupExists]

theorem isSubscribed_iff {channel : ChannelId} {user : UserId} :
    db.isSubscribed channel user = true ↔ (channel, user) ∈ db.subscriptions := by
  simp [isSubscribed]

theorem mem_ids_iff {ι α : Type} {rows : List (ι × α)} {id : ι} :
    id ∈ rows.map Prod.fst ↔ ∃ row ∈ rows, row.1 = id := List.mem_map

/-- A name that no row has is none of the names. -/
theorem notMem_names {α : Type} {rows : List (α × String)} {name : String}
    (h : ∀ row ∈ rows, row.2 ≠ name) : name ∉ rows.map Prod.snd := by
  rw [List.mem_map]
  rintro ⟨row, hrow, rfl⟩
  exact h row hrow rfl

theorem changes_addMember {group : GroupId} {user : UserId} {added : Bool}
    (h : db.addMember group user = .ok (added, db')) : ReflTransGen Change db db' := by
  obtain ⟨-, -, rfl⟩ | ⟨-, hnew, hgroup, huser, rfl⟩ := addMember_ok h
  · exact .refl
  · exact .single (.joined hgroup huser hnew)

theorem changes_addMembers (group : GroupId) (users : List UserId) :
    ReflTransGen Change db (db.addMembers group users).2 := by
  induction users generalizing db with
  | nil => exact .refl
  | cons user users ih =>
    rw [addMembers]
    split
    · exact .refl
    · exact (changes_addMember ‹_›).trans ih

theorem changes_createGroup (name : String) (users : List UserId) :
    ReflTransGen Change db (db.createGroup name users).2 := by
  rcases createGroup_cases db name users with ⟨e, h⟩ | ⟨group, hid, hname, h⟩
  · rw [h]
  · rw [h]
    have hmade : Change db { db with groups := db.groups ++ [(group, name)] } :=
      .group (notMem_of_nextRowId? hid) (notMem_names hname)
    exact (ReflTransGen.single hmade).trans (changes_addMembers group users)

theorem Sends.changes {now : ClockReading} {sender : UserId} {request : SendRequest} {sent : Sent}
    (h : db.Sends now sender request sent db') : ReflTransGen Change db db' := by
  rw [h.database]
  exact .single (.written _ _)

end Database

open Database

/-- What an action makes of the database it makes by elementary changes. -/
theorem Action.changes_perform {s : SharedDatabase} (a : Action) :
    ReflTransGen Change s.contents (a.perform s).2.contents := by
  cases a with
  | createUser name =>
    apply SharedDatabase.statement_keeps .refl
    intro _ _ hok
    obtain ⟨hid, rfl⟩ := createUser_ok hok
    exact .single (.user (notMem_of_nextRowId? hid))
  | createChannel name =>
    apply SharedDatabase.statement_keeps .refl
    intro _ _ hok
    obtain ⟨hid, hname, rfl⟩ := createChannel_ok hok
    exact .single (.channel (notMem_of_nextRowId? hid) (notMem_names hname))
  | createGroup name members =>
    exact SharedDatabase.execute_keeps .refl (changes_createGroup name members)
  | deleteGroup group =>
    apply SharedDatabase.statement_keeps .refl
    intro _ _ hok
    obtain ⟨-, -, rfl⟩ | ⟨-, -, rfl⟩ := deleteGroup_ok hok
    · exact .refl
    · exact .single (.dissolved group)
  | subscribe channel user =>
    apply SharedDatabase.statement_keeps .refl
    intro _ _ hok
    obtain ⟨_, hsubscribe, ⟨⟩⟩ := map_eq_ok_iff.1 hok
    obtain ⟨-, rfl⟩ | ⟨hnew, hchannel, huser, rfl⟩ := subscribe_ok hsubscribe
    · exact .refl
    · rw [Bool.eq_false_iff, ne_eq, isSubscribed_iff] at hnew
      exact .single (.subscribed hchannel huser hnew)
  | unsubscribe channel user =>
    apply SharedDatabase.statement_keeps .refl
    intro _ _ hok
    obtain ⟨_, hunsubscribe, ⟨⟩⟩ := map_eq_ok_iff.1 hok
    obtain ⟨-, rfl⟩ | ⟨-, rfl⟩ := unsubscribe_ok hunsubscribe
    · exact .refl
    · exact .single (.unsubscribed channel user)
  | addMember group user =>
    apply SharedDatabase.statement_keeps .refl
    intro _ _ hok
    exact changes_addMember hok
  | removeMember group user =>
    apply SharedDatabase.statement_keeps .refl
    intro _ _ hok
    obtain ⟨-, -, rfl⟩ | ⟨-, -, rfl⟩ := removeMember_ok hok
    · exact .refl
    · exact .single (.left group user)
  | send faults now sender request =>
    simp only [perform]
    cases hanswer : (s.atomic faults (WhisperChat.send now sender request)).answer with
    | error e => rw [SharedDatabase.atomic_of_error hanswer]
    | ok sent =>
      obtain ⟨-, hyields, -⟩ := SharedDatabase.atomic_of_ok hanswer
      exact (sends_of_yields hyields).changes
  | get viewer message =>
    simp only [perform]
    rw [SharedDatabase.contents_read (within_getMessage viewer message)]
  | list viewer channel w =>
    simp only [perform]
    rw [SharedDatabase.contents_read (within_listMessages viewer channel w)]

/-- What is put into a table directly is an elementary change as well. -/
theorem changes_put {db db' : Database} (row : Seed) (h : row.put db = .ok db') :
    ReflTransGen Change db db' := by
  cases row with
  | user id name =>
    obtain ⟨hid, rfl⟩ := putUser_ok h
    exact .single (.user (by rwa [mem_ids_iff, ← userExists_iff, Bool.not_eq_true]))
  | channel id name =>
    obtain ⟨hid, hname, rfl⟩ := putChannel_ok h
    exact .single (.channel (by rwa [mem_ids_iff, ← channelExists_iff, Bool.not_eq_true])
      (notMem_names hname))
  | group id name =>
    obtain ⟨hid, hname, rfl⟩ := putGroup_ok h
    exact .single (.group (by rwa [mem_ids_iff, ← groupExists_iff, Bool.not_eq_true])
      (notMem_names hname))
  | message row =>
    rw [(putMessage_ok h).2]
    exact .single (.written _ _)
  | visibilityRow id holder =>
    rw [(putVisibilityRow_ok h).2.2.2]
    exact .single (.written _ _)

/-- Every reachable database is made from the empty one by elementary changes. -/
theorem Reachable.changes {s : SharedDatabase} (h : Reachable s) :
    ReflTransGen Change {} s.contents := by
  induction h with
  | start => exact .refl
  | act a _ ih => exact ih.trans a.changes_perform
  | seed row _ ih =>
    apply SharedDatabase.statement_keeps ih
    intro _ _ hok
    obtain ⟨_, hput, ⟨⟩⟩ := map_eq_ok_iff.1 hok
    exact ih.trans (changes_put row hput)

/-! ## Subscribers and members -/

/-- No table is closed, and those who subscribe to a channel or belong to a group are there, as is
the channel or the group. -/
structure Database.IsReferential (db : Database) : Prop where
  closed : db.closed = []
  subscription : ∀ channel user, (channel, user) ∈ db.subscriptions →
    db.channelExists channel = true ∧ db.userExists user = true
  member : ∀ group user, (group, user) ∈ db.members →
    db.groupExists group = true ∧ db.userExists user = true

namespace Database

variable {db db' : Database}

namespace IsReferential

/-- More users, channels and groups, and fewer subscriptions and memberships, do no harm. -/
theorem mono (h : db.IsReferential) (hclosed : db'.closed = db.closed)
    (husers : db.users ⊆ db'.users) (hchannels : db.channels ⊆ db'.channels)
    (hgroups : db.groups ⊆ db'.groups) (hsubscriptions : db'.subscriptions ⊆ db.subscriptions)
    (hmembers : db'.members ⊆ db.members) : db'.IsReferential := by
  have huser : ∀ user, db.userExists user = true → db'.userExists user = true := by
    intro user hexists
    obtain ⟨row, hrow, hid⟩ := userExists_iff.1 hexists
    exact userExists_iff.2 ⟨row, husers hrow, hid⟩
  refine ⟨hclosed.trans h.closed, ?_, ?_⟩
  · intro channel user hrow
    obtain ⟨hchannel, hexists⟩ := h.subscription channel user (hsubscriptions hrow)
    obtain ⟨row, hmem, hid⟩ := channelExists_iff.1 hchannel
    exact ⟨channelExists_iff.2 ⟨row, hchannels hmem, hid⟩, huser user hexists⟩
  · intro group user hrow
    obtain ⟨hgroup, hexists⟩ := h.member group user (hmembers hrow)
    obtain ⟨row, hmem, hid⟩ := groupExists_iff.1 hgroup
    exact ⟨groupExists_iff.2 ⟨row, hgroups hmem, hid⟩, huser user hexists⟩

theorem change (h : db.IsReferential) (hchange : Change db db') : db'.IsReferential := by
  cases hchange with
  | user hid =>
    exact h.mono rfl (List.subset_append_left _ _) (.refl _) (.refl _) (.refl _) (.refl _)
  | channel hid hname =>
    exact h.mono rfl (.refl _) (List.subset_append_left _ _) (.refl _) (.refl _) (.refl _)
  | group hid hname =>
    exact h.mono rfl (.refl _) (.refl _) (List.subset_append_left _ _) (.refl _) (.refl _)
  | joined hgroup huser hnew =>
    refine ⟨h.closed, h.subscription, ?_⟩
    intro group user hrow
    rcases List.mem_append.1 hrow with hold | hnew
    · exact h.member group user hold
    · obtain ⟨rfl, rfl⟩ := Prod.mk.inj (List.mem_singleton.1 hnew)
      exact ⟨hgroup, huser⟩
  | left group user =>
    exact h.mono rfl (.refl _) (.refl _) (.refl _) (.refl _) (List.filter_subset_self _)
  | dissolved group =>
    refine ⟨h.closed, h.subscription, ?_⟩
    intro other user hrow
    -- Who is left belongs to another group, and that one has stayed.
    obtain ⟨hold, hne⟩ := List.mem_filter.1 hrow
    obtain ⟨hgroup, huser⟩ := h.member other user hold
    obtain ⟨row, hmem, rfl⟩ := groupExists_iff.1 hgroup
    exact ⟨groupExists_iff.2 ⟨row, List.mem_filter.2 ⟨hmem, hne⟩, rfl⟩, huser⟩
  | subscribed hchannel huser hnew =>
    refine ⟨h.closed, ?_, h.member⟩
    intro channel user hrow
    rcases List.mem_append.1 hrow with hold | hnew
    · exact h.subscription channel user hold
    · obtain ⟨rfl, rfl⟩ := Prod.mk.inj (List.mem_singleton.1 hnew)
      exact ⟨hchannel, huser⟩
  | unsubscribed channel user =>
    exact h.mono rfl (.refl _) (.refl _) (.refl _) (List.filter_subset_self _) (.refl _)
  | written messages visibility => exact ⟨h.closed, h.subscription, h.member⟩

theorem changes (h : db.IsReferential) (hchanges : ReflTransGen Change db db') :
    db'.IsReferential := by
  induction hchanges with
  | refl => exact h
  | tail _ hchange ih => exact ih.change hchange

end IsReferential

theorem isReferential_empty : IsReferential {} := by
  refine ⟨rfl, ?_, ?_⟩ <;> simp

end Database

/-- In a reachable state those who subscribe to a channel or belong to a group are there. -/
theorem Reachable.isReferential {s : SharedDatabase} (h : Reachable s) :
    s.contents.IsReferential := isReferential_empty.changes h.changes

/-! ## Writing a message -/

theorem Ident.exists_next {kind : IdentKind} {a : Ident kind} (h : a.val < 0x7fffffffffffffff) :
    ∃ b, a.next? = some b := by
  have hlow := a.le_val
  exact ⟨⟨a.val + 1, by omega, by omega⟩, ofInt?_eq_some_iff.2 rfl⟩

namespace Database

variable {db db' : Database}

theorem checkOpen_of_closed (hclosed : db.closed = []) (table : Table) (write : Write) :
    db.checkOpen table write = .ok () := by
  simp [checkOpen, hclosed]

theorem putMessage_eq_ok {row : MessageRow} (hclosed : db.closed = [])
    (hfree : db.messages.contains row.id = false) (hsender : db.userExists row.sender = true)
    (hchannel : ∀ channel, row.channel = some channel → db.channelExists channel = true) :
    db.putMessage row = .ok { db with messages := db.messages.insert row } := by
  have hthere : row.channel.all db.channelExists = true := by
    rw [Option.all_eq_true]
    exact hchannel
  simp [putMessage, checkOpen_of_closed hclosed, hfree, hsender, hthere]

theorem addVisibilityRow_eq_ok {message : MessageId} {user : UserId} (hclosed : db.closed = [])
    (hmessage : db.messages.contains message = true) (huser : db.userExists user = true) :
    ∃ visibility, db.addVisibilityRow message user = .ok { db with visibility } := by
  cases hrow : db.hasVisibilityRow message user with
  | true => exact ⟨db.visibility, by simp [addVisibilityRow, checkOpen_of_closed hclosed, hrow]⟩
  | false =>
    refine ⟨db.visibility ++ [(message, user)], ?_⟩
    simp [addVisibilityRow, putVisibilityRow, checkOpen_of_closed hclosed, hrow, hmessage, huser]
    rfl

theorem addVisibilityRows_eq_ok {message : MessageId} {users : List UserId}
    (hclosed : db.closed = []) (hmessage : db.messages.contains message = true)
    (husers : ∀ user ∈ users, db.userExists user = true) :
    (db.addVisibilityRows message users).1 = .ok () := by
  induction users generalizing db with
  | nil => rfl
  | cons user users ih =>
    obtain ⟨visibility, hadd⟩ := addVisibilityRow_eq_ok hclosed hmessage (husers user (by simp))
    rw [addVisibilityRows, hadd]
    exact ih hclosed hmessage fun other hother ↦ husers other (by simp [hother])

/-- A message can be written while identifiers are left and everybody it is for is there. -/
theorem insertMessage_eq_ok {draft : Draft} {audience : IdentSet .user} {id : MessageId}
    (hclosed : db.closed = []) (hnext : db.messages.nextId? = some id)
    (hsender : db.userExists draft.sender = true)
    (hchannel : ∀ channel, draft.channel = some channel → db.channelExists channel = true)
    (haudience : ∀ user ∈ audience, db.userExists user = true) :
    db.insertMessage draft audience =
      (.ok { draft with id }, db.withMessage id draft audience) := by
  have hfree : db.messages.contains id = false := MessageTable.contains_nextId hnext
  have hput : db.putMessage (.ofDraft id draft) =
      .ok { db with messages := db.messages.insert (.ofDraft id draft) } :=
    putMessage_eq_ok hclosed hfree hsender hchannel
  have hthere : (db.messages.insert (.ofDraft id draft)).contains id = true := by
    rw [MessageTable.contains_iff, MessageTable.rows_insert hnext]
    exact ⟨.ofDraft id draft, by simp, rfl⟩
  have hrows : (addVisibilityRows { db with messages := db.messages.insert (.ofDraft id draft) } id
      audience.toList).1 = .ok () := addVisibilityRows_eq_ok hclosed hthere haudience
  have hanswer : (db.insertMessage draft audience).1 = .ok { draft with id } := by
    simp only [insertMessage, checkOpen_of_closed hclosed, hnext, hput]
    exact congrArg (Except.map _) hrows
  obtain ⟨id', hid', -, hdb⟩ := insertMessage_ok (Prod.ext hanswer rfl)
  rw [hnext, Option.some.injEq] at hid'
  subst hid'
  exact Prod.ext hanswer hdb

/-- An identifier is left while the greatest has not been given out. -/
theorem exists_nextId (hrange : ∀ row ∈ db.messages.rows, row.id.val < 0x7fffffffffffffff) :
    ∃ id, db.messages.nextId? = some id := by
  apply Ident.exists_next
  rcases Ident.foldl_max_eq_or_mem (db.messages.rows.map MessageRow.id) (.zero .message) with
    hstart | hmem
  · rw [hstart]
    decide
  · obtain ⟨row, hrow, hid⟩ := List.mem_map.1 hmem
    rw [← hid]
    exact hrange row hrow

end Database

end WhisperChat
