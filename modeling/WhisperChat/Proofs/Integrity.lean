import WhisperChat.Proofs.Membership
import WhisperChat.Proofs.Refusal

/-!
# What holds of the tables after any run

Every row names rows that are there, no identifier, name or pair is there twice, and whoever has
sent a message is in its audience (`Database.IsConsistent`).  The two tables of the history,
messages and index, only ever grow: an action adds nothing to them unless it is a send that
succeeds, which adds its message and the rows of its audience (`Database.Records`).  All this holds
of every run, no matter which of its calls fail and how far a group is made before it fails
(`Run.isConsistent_and_appends`).
-/

namespace WhisperChat

open Relation Send

namespace Database

variable {db db' : Database}

/-! ## Keys -/

/-- No identifier, no name of a channel or a group and no pair is there twice. -/
structure IsKeyed (db : Database) : Prop where
  userIds : (db.users.map Prod.fst).Nodup
  channelIds : (db.channels.map Prod.fst).Nodup
  channelNames : (db.channels.map Prod.snd).Nodup
  groupIds : (db.groups.map Prod.fst).Nodup
  groupNames : (db.groups.map Prod.snd).Nodup
  subscriptions : db.subscriptions.Nodup
  members : db.members.Nodup

theorem nodup_append_singleton {α : Type} {l : List α} {a : α} (h : l.Nodup) (ha : a ∉ l) :
    (l ++ [a]).Nodup := by
  rw [← List.concat_eq_append]
  exact h.concat ha

theorem nodup_map_append_singleton {α β : Type} {l : List α} {a : α} {f : α → β}
    (h : (l.map f).Nodup) (ha : f a ∉ l.map f) : ((l ++ [a]).map f).Nodup := by
  rw [List.map_append, List.map_singleton]
  exact nodup_append_singleton h ha

theorem nodup_map_filter {α β : Type} {l : List α} {f : α → β} (h : (l.map f).Nodup)
    (p : α → Bool) : ((l.filter p).map f).Nodup := h.sublist (List.filter_sublist.map f)

namespace IsKeyed

theorem change (h : db.IsKeyed) (hchange : Change db db') : db'.IsKeyed := by
  cases hchange with
  | user hid => exact { h with userIds := nodup_map_append_singleton h.userIds hid }
  | channel hid hname =>
    exact { h with
      channelIds := nodup_map_append_singleton h.channelIds hid
      channelNames := nodup_map_append_singleton h.channelNames hname }
  | group hid hname =>
    exact { h with
      groupIds := nodup_map_append_singleton h.groupIds hid
      groupNames := nodup_map_append_singleton h.groupNames hname }
  | joined hgroup huser hnew => exact { h with members := nodup_append_singleton h.members hnew }
  | left group user => exact { h with members := h.members.filter _ }
  | dissolved group =>
    exact { h with
      groupIds := nodup_map_filter h.groupIds _
      groupNames := nodup_map_filter h.groupNames _
      members := h.members.filter _ }
  | subscribed hchannel huser hnew =>
    exact { h with subscriptions := nodup_append_singleton h.subscriptions hnew }
  | unsubscribed channel user => exact { h with subscriptions := h.subscriptions.filter _ }
  | written messages visibility => exact { h with }

theorem changes (h : db.IsKeyed) (hchanges : ReflTransGen Change db db') : db'.IsKeyed := by
  induction hchanges with
  | refl => exact h
  | tail _ hchange ih => exact ih.change hchange

end IsKeyed

/-! ## Users and channels stay -/

theorem Change.users_subset (h : Change db db') : db.users ⊆ db'.users := by
  cases h with
  | user hid => exact List.subset_append_left _ _
  | _ => exact List.Subset.refl _

theorem Change.channels_subset (h : Change db db') : db.channels ⊆ db'.channels := by
  cases h with
  | channel hid hname => exact List.subset_append_left _ _
  | _ => exact List.Subset.refl _

theorem userExists_of_changes (h : ReflTransGen Change db db') {user : UserId}
    (huser : db.userExists user = true) : db'.userExists user = true := by
  induction h with
  | refl => exact huser
  | tail _ hchange ih =>
    obtain ⟨row, hrow, hid⟩ := userExists_iff.1 ih
    exact userExists_iff.2 ⟨row, hchange.users_subset hrow, hid⟩

theorem channelExists_of_changes (h : ReflTransGen Change db db') {channel : ChannelId}
    (hchannel : db.channelExists channel = true) : db'.channelExists channel = true := by
  induction h with
  | refl => exact hchannel
  | tail _ hchange ih =>
    obtain ⟨row, hrow, hid⟩ := channelExists_iff.1 ih
    exact channelExists_iff.2 ⟨row, hchange.channels_subset hrow, hid⟩

/-! ## Messages and their audiences -/

/-- Whoever has sent a message is there and is in its audience, and so are the channel it is kept
with, the messages that the index knows and the users it has rows of, each of them once. -/
structure HistoryIsFounded (db : Database) : Prop where
  sender : ∀ row ∈ db.messages.rows, db.userExists row.sender = true
  channel : ∀ row ∈ db.messages.rows, ∀ channel, row.channel = some channel →
    db.channelExists channel = true
  entry : ∀ message user, (message, user) ∈ db.visibility →
    db.messages.contains message = true ∧ db.userExists user = true
  own : ∀ row ∈ db.messages.rows, (row.id, row.sender) ∈ db.visibility
  entries : db.visibility.Nodup

namespace HistoryIsFounded

variable {now : ClockReading} {sender : UserId} {request : SendRequest} {sent : Sent}

theorem indexIsSound (h : db.HistoryIsFounded) : db.IndexIsSound :=
  fun row hrow ↦ (h.entry row.1 row.2 hrow).1

/-- The history stays founded while it is left alone, since users and channels stay. -/
theorem of_sameHistory (h : db.HistoryIsFounded) (hsame : SameHistory db db')
    (hchanges : ReflTransGen Change db db') : db'.HistoryIsFounded := by
  obtain ⟨hmessages, hvisibility⟩ := hsame
  constructor
  · intro row hrow
    rw [hmessages] at hrow
    exact userExists_of_changes hchanges (h.sender row hrow)
  · intro row hrow channel hchannel
    rw [hmessages] at hrow
    exact channelExists_of_changes hchanges (h.channel row hrow channel hchannel)
  · intro message user hentry
    rw [hvisibility] at hentry
    rw [hmessages]
    obtain ⟨hmessage, huser⟩ := h.entry message user hentry
    exact ⟨hmessage, userExists_of_changes hchanges huser⟩
  · intro row hrow
    rw [hmessages] at hrow
    rw [hvisibility]
    exact h.own row hrow
  · rw [hvisibility]
    exact h.entries

/-- A send that passes its checks finds its sender, its channel and its audience there. -/
theorem sends (h : db.HistoryIsFounded) (hreferential : db.IsReferential)
    (hsends : db.Sends now sender request sent db') : db'.HistoryIsFounded := by
  have husers : db'.userExists = db.userExists := by rw [hsends.database]; rfl
  have hchannels : db'.channelExists = db.channelExists := by rw [hsends.database]; rfl
  have hsender : sent.message.sender = sender := hsends.answers.sentBy
  constructor
  · rw [hsends.rows_eq, husers, List.forall_mem_append]
    refine ⟨h.sender, List.forall_mem_singleton.2 ?_⟩
    change db.userExists sent.message.sender = true
    rw [hsender]
    exact hsends.admits.sender_exists
  · rw [hsends.rows_eq, hchannels, List.forall_mem_append]
    refine ⟨h.channel, List.forall_mem_singleton.2 ?_⟩
    intro channel hchannel
    exact hsends.admits.channelExists ((congrArg Draft.channel hsends.draft).symm.trans hchannel)
  · intro message user hentry
    rw [MessageTable.contains_iff, hsends.rows_eq, husers]
    rcases hsends.mem_visibility_iff.1 hentry with hold | ⟨rfl, haudience⟩
    · obtain ⟨hmessage, huser⟩ := h.entry message user hold
      obtain ⟨row, hrow, hid⟩ := MessageTable.contains_iff.1 hmessage
      exact ⟨⟨row, List.mem_append_left _ hrow, hid⟩, huser⟩
    · rw [hsends.audience] at haudience
      exact ⟨⟨_, List.mem_append_right _ (List.mem_singleton_self _), rfl⟩,
        hreferential.userExists_of_audience hsends.admits haudience⟩
  · rw [hsends.rows_eq, List.forall_mem_append]
    refine ⟨fun row hrow ↦ hsends.mem_visibility_iff.2 (.inl (h.own row hrow)),
      List.forall_mem_singleton.2 (hsends.mem_visibility_iff.2 (.inr ⟨rfl, ?_⟩))⟩
    exact (hsends.answers.audience _).2 (.inl hsender)
  · -- The index had no row of the new message, and an audience names nobody twice.
    rw [hsends.visibility_eq h.indexIsSound]
    have hnew : (sent.audience.toList.map fun user ↦ (sent.message.id, user)).Nodup :=
      sent.audience.nodup_toList.map (Prod.mk_right_injective _)
    refine h.entries.append hnew ?_
    intro entry hold hentry
    obtain ⟨user, -, rfl⟩ := List.mem_map.1 hentry
    exact notMem_visibility_nextId h.indexIsSound hsends.nextId user hold

end HistoryIsFounded

/-- Every row names rows that are there, nothing is there twice, and whoever has sent a message is
in its audience. -/
structure IsConsistent (db : Database) : Prop extends
  db.IsReferential, db.IsKeyed, db.HistoryIsFounded

theorem isConsistent_empty : IsConsistent {} where
  toIsReferential := isReferential_empty
  toIsKeyed := by constructor <;> exact List.nodup_nil
  toHistoryIsFounded := by constructor <;> simp [MessageTable.empty]

/-- The history has grown by what was sent, if anything was. -/
structure Records (db : Database) (sent : Option Sent) (db' : Database) : Prop where
  rows : db'.messages.rows =
    db.messages.rows ++ sent.toList.map fun s ↦ .ofDraft s.message.id s.message.toDraft
  visibility : db'.visibility =
    db.visibility ++ sent.toList.flatMap fun s ↦
      s.audience.toList.map fun user ↦ (s.message.id, user)

end Database

namespace Action

variable {s : SharedDatabase}

theorem isConsistent_perform (a : Action) (h : s.contents.IsConsistent) :
    (a.perform s).2.contents.IsConsistent where
  toIsReferential := h.toIsReferential.changes a.changes_perform
  toIsKeyed := h.toIsKeyed.changes a.changes_perform
  toHistoryIsFounded := by
    rcases a.perform_cases with ⟨-, hsame⟩ | ⟨now, sender, request, sent, -, hsends⟩
    · exact h.toHistoryIsFounded.of_sameHistory hsame a.changes_perform
    · exact h.toHistoryIsFounded.sends h.toIsReferential hsends

/-- An action adds to the history what it sends, and leaves all else of it as it was. -/
theorem records_perform (a : Action) (hsound : s.contents.IndexIsSound) :
    s.contents.Records (a.perform s).1 (a.perform s).2.contents := by
  rcases perform_cases (s := s) a with ⟨hnone, hmessages, hvisibility⟩ |
    ⟨now, sender, request, sent, hsome, hsends⟩
  · constructor
    · simp [hnone, hmessages]
    · simp [hnone, hvisibility]
  · constructor
    · simp [hsome, hsends.rows_eq]
    · simp [hsome, hsends.visibility_eq hsound]

/-- Only a send that succeeds sends anything. -/
theorem sent_perform_iff (a : Action) {sent : Sent} :
    (a.perform s).1 = some sent ↔
      ∃ faults now sender request, a = .send faults now sender request ∧
        (s.atomic faults (WhisperChat.send now sender request)).answer = .ok sent := by
  cases a with
  | send faults now sender request =>
    simp only [perform, toOption_eq_some_iff, send.injEq]
    constructor
    · intro hanswer
      exact ⟨_, _, _, _, ⟨rfl, rfl, rfl, rfl⟩, hanswer⟩
    · rintro ⟨_, _, _, _, ⟨rfl, rfl, rfl, rfl⟩, hanswer⟩
      exact hanswer
  | _ => simp [perform]

end Action

namespace Run

variable {r : Run}

theorem isConsistent_foldl (h : r.shared.contents.IsConsistent) (later : List Action) :
    (later.foldl step r).shared.contents.IsConsistent := by
  induction later generalizing r with
  | nil => exact h
  | cons a later ih => exact ih (a.isConsistent_perform h)

/-- The history is never rewritten. -/
theorem history_prefix_foldl (h : r.shared.contents.IsConsistent) (later : List Action) :
    r.shared.contents.messages.rows <+: (later.foldl step r).shared.contents.messages.rows ∧
      r.shared.contents.visibility <+: (later.foldl step r).shared.contents.visibility := by
  induction later generalizing r with
  | nil => exact ⟨List.prefix_refl _, List.prefix_refl _⟩
  | cons a later ih =>
    have hrecords := a.records_perform h.indexIsSound
    obtain ⟨hrows, hentries⟩ := ih (r := r.step a) (a.isConsistent_perform h)
    exact ⟨List.IsPrefix.trans ⟨_, hrecords.rows.symm⟩ hrows,
      List.IsPrefix.trans ⟨_, hrecords.visibility.symm⟩ hentries⟩

/-- After any run the tables are consistent, and only a page that broke down has poisoned the lock.
Every further action adds to the history what it sends, so that messages and index only grow.  A
group is made with its members up to the first user who is not there, or not at all; where it has
been deleted, only those belong to it who have become members since. -/
theorem isConsistent_and_appends (actions : List Action) :
    let s := (of actions).shared
    s.contents.IsConsistent ∧
      (s.poisoned = true ↔ BreaksDown {} actions) ∧
      (∀ a : Action, s.contents.Records (a.perform s).1 (a.perform s).2.contents ∧
        ∀ sent, (a.perform s).1 = some sent ↔
          ∃ faults now sender request, a = .send faults now sender request ∧
            (s.atomic faults (send now sender request)).answer = .ok sent) ∧
      (∀ later,
        s.contents.messages.rows <+: (of (actions ++ later)).shared.contents.messages.rows ∧
        s.contents.visibility <+: (of (actions ++ later)).shared.contents.visibility) ∧
      (∀ name users,
        ((s.poisoned = true ∨ (∃ row ∈ s.contents.groups, row.2 = name) ∨
              Database.nextRowId? (s.contents.groups.map Prod.fst) = none) ∧
            ∃ cause, s.execute (·.createGroup name users) = (.error cause, s)) ∨
          s.poisoned = false ∧ ∃ group db, s.contents.MakesGroup name users group db ∧
            s.execute (·.createGroup name users) =
              (if users.all s.contents.userExists then .ok group else .error .missingReference,
                { s with contents := db })) ∧
      ∀ group, s.poisoned = false →
        (s.statement (·.deleteGroup group)).1 = .ok (s.contents.groupExists group) ∧
          (of (actions ++ [.deleteGroup group])).shared.contents.Lacks group ∧
          ∀ later user,
            (group, user) ∈
                (of (actions ++ .deleteGroup group :: later)).shared.contents.members ↔
              (of (actions ++ [.deleteGroup group])).Gains group user later := by
  intro s
  have h : s.contents.IsConsistent := isConsistent_foldl Database.isConsistent_empty actions
  refine ⟨h, poisoned_of_iff actions, ?_, ?_, ?_, ?_⟩
  · intro a
    exact ⟨a.records_perform h.indexIsSound, fun sent ↦ a.sent_perform_iff⟩
  · intro later
    rw [of_append]
    exact history_prefix_foldl h later
  · exact SharedDatabase.execute_createGroup h.toIsReferential
  · intro group hpoisoned
    obtain ⟨hanswer, hlacks⟩ := lacks_step_deleteGroup h.toIsReferential hpoisoned group
    have hafter : ((of actions).step (.deleteGroup group)).shared.contents.IsReferential :=
      h.toIsReferential.changes (Action.deleteGroup group).changes_perform
    rw [of_append]
    refine ⟨hanswer, hlacks, ?_⟩
    intro later user
    rw [of_append, List.foldl_cons]
    exact mem_members_foldl_iff_of_lacks hafter hlacks later

end Run

end WhisperChat
