import WhisperChat.Proofs.Page
import WhisperChat.Proofs.Send
import WhisperChat.Store.Shared

/-!
# Runs

The database is used action by action, each behind the lock.  An action either is a send that
succeeds, which adds its message and the rows of its audience, or leaves messages and index alone
(`Action.perform_cases`); only a page that breaks down poisons the lock.
-/

namespace WhisperChat

open Work

inductive Action where
  | createUser (name : String)
  | createChannel (name : String)
  | createGroup (name : String) (members : List UserId)
  | deleteGroup (group : GroupId)
  | subscribe (channel : ChannelId) (user : UserId)
  | unsubscribe (channel : ChannelId) (user : UserId)
  | addMember (group : GroupId) (user : UserId)
  | removeMember (group : GroupId) (user : UserId)
  /-- A send with some of the store's methods out of order. -/
  | send (faults : List Method) (now : ClockReading) (sender : UserId) (request : SendRequest)
  | get (viewer : UserId) (message : MessageId)
  | list (viewer : UserId) (channel : ChannelId) (window : Window)

/-- What an action makes of the database, and the message that it has sent, if any. -/
def Action.perform (s : SharedDatabase) : Action → Option Sent × SharedDatabase
  | createUser name => (none, (s.statement (·.createUser name)).2)
  | createChannel name => (none, (s.statement (·.createChannel name)).2)
  | createGroup name members => (none, (s.execute (·.createGroup name members)).2)
  | deleteGroup group => (none, (s.statement (·.deleteGroup group)).2)
  | subscribe channel user =>
    (none, (s.statement fun db ↦ (db.subscribe channel user).map fun db ↦ ((), db)).2)
  | unsubscribe channel user =>
    (none, (s.statement fun db ↦ (db.unsubscribe channel user).map fun db ↦ ((), db)).2)
  | addMember group user => (none, (s.statement (·.addMember group user)).2)
  | removeMember group user => (none, (s.statement (·.removeMember group user)).2)
  | send faults now sender request =>
    let outcome := s.atomic faults (WhisperChat.send now sender request)
    (outcome.answer.toOption, outcome.shared)
  | get viewer message => (none, (s.read [] (getMessage viewer message)).shared)
  | list viewer channel window => (none, (s.read [] (listMessages viewer channel window)).shared)

/-! ## Behind the lock -/

namespace SharedDatabase

variable {α : Type} {s : SharedDatabase} {faults : List Method} {w : Work α}

theorem poisoned_locked_iff (s : SharedDatabase) (use : Database → Work.Outcome α) :
    (s.locked use).shared.poisoned = true ↔
      s.poisoned = true ∨
        ∃ failure, (use s.contents).answer = .error failure ∧ failure.isBreakdown = true := by
  unfold locked
  split
  case isTrue h => simp [h]
  case isFalse h =>
    simp only [h]
    split <;> simp_all

theorem answer_read (h : s.poisoned = false) :
    (s.read faults w).answer = (w.run faults s.contents).answer := by
  simp [read, locked, h]

theorem answer_read_of_poisoned (h : s.poisoned = true) :
    (s.read faults w).answer = .error (.error (.store .poisoned)) := by
  simp [read, locked, h]

/-- Reading leaves the contents alone. -/
theorem contents_read {failures : Failure → Prop} (hw : Within (·.isQuestion = true) failures w) :
    (s.read faults w).shared.contents = s.contents := by
  unfold read locked
  split
  · rfl
  · exact hw.database_eq faults s.contents

/-- A use as a whole or not at all has the answer that it would have by itself. -/
theorem answer_transact (s : SharedDatabase) (use : Database → Work.Outcome α) :
    (s.transact use).answer =
      if s.poisoned then .error (.error (.store .poisoned)) else (use s.contents).answer := by
  unfold transact locked
  split
  · rfl
  · simp only
    split <;> rfl

theorem poisoned_transact_iff (s : SharedDatabase) (use : Database → Work.Outcome α) :
    (s.transact use).shared.poisoned = true ↔
      s.poisoned = true ∨
        ∃ failure, (use s.contents).answer = .error failure ∧ failure.isBreakdown = true := by
  unfold transact
  rw [poisoned_locked_iff]
  simp only
  split <;> simp [*]

/-- What does not break down leaves the lock as it was. -/
theorem poisoned_atomic {calls : Call → Prop} (hw : Within calls (·.isBreakdown = false) w) :
    (s.atomic faults w).shared.poisoned = s.poisoned := by
  rw [Bool.eq_iff_iff, atomic, poisoned_transact_iff, or_iff_left]
  rintro ⟨failure, hanswer, hbreakdown⟩
  exact hw.not_fails hbreakdown hanswer

theorem poisoned_read {calls : Call → Prop} (hw : Within calls (·.isBreakdown = false) w) :
    (s.read faults w).shared.poisoned = s.poisoned := by
  rw [Bool.eq_iff_iff, read, poisoned_locked_iff, or_iff_left]
  rintro ⟨failure, hanswer, hbreakdown⟩
  exact hw.not_fails hbreakdown hanswer

/-- A use as a whole or not at all that fails leaves the contents as they were. -/
theorem contents_transact_of_error {use : Database → Work.Outcome α} {e : Failure}
    (h : (s.transact use).answer = .error e) : (s.transact use).shared.contents = s.contents := by
  rw [answer_transact] at h
  unfold transact locked
  split at h
  case isTrue hpoisoned => simp [hpoisoned]
  case isFalse hpoisoned => simp [hpoisoned, h]

/-- A unit of work that ends well has the run that it would have by itself. -/
theorem atomic_of_ok {a : α} (h : (s.atomic faults w).answer = .ok a) :
    s.poisoned = false ∧ w.Yields faults s.contents a (s.atomic faults w).shared.contents ∧
      (s.atomic faults w).shared.poisoned = false := by
  rw [atomic, answer_transact] at h
  split at h
  case isTrue => cases h
  case isFalse hpoisoned => simp [atomic, transact, locked, hpoisoned, h, Yields]

/-- A unit of work that fails leaves the contents as they were. -/
theorem atomic_of_error {e : Failure} (h : (s.atomic faults w).answer = .error e) :
    (s.atomic faults w).shared.contents = s.contents := contents_transact_of_error h

theorem poisoned_execute (f : Database → Except StoreError α × Database) :
    (s.execute f).2.poisoned = s.poisoned := by
  unfold execute
  split <;> rfl

theorem poisoned_statement (f : Database → Except StoreError (α × Database)) :
    (s.statement f).2.poisoned = s.poisoned := poisoned_execute _

/-- A statement either fails and changes nothing, or has its answer and its effect on the contents,
and then the lock is not poisoned. -/
theorem statement_cases (f : Database → Except StoreError (α × Database)) :
    (∃ cause, s.statement f = (.error cause, s)) ∨
      ∃ a db, s.poisoned = false ∧ f s.contents = .ok (a, db) ∧
        s.statement f = (.ok a, { s with contents := db }) := by
  obtain ⟨contents, poisoned⟩ := s
  unfold statement execute
  cases poisoned with
  | true => exact .inl ⟨_, rfl⟩
  | false =>
    cases hf : f contents with
    | error cause => exact .inl ⟨cause, by simp [hf]⟩
    | ok answered => exact .inr ⟨answered.1, answered.2, rfl, rfl, by simp [hf]⟩

theorem statement_of_ok {f : Database → Except StoreError (α × Database)} {a : α} {db : Database}
    (h : s.poisoned = false) (hf : f s.contents = .ok (a, db)) :
    s.statement f = (.ok a, { s with contents := db }) := by
  simp [statement, execute, h, hf]

/-- What holds before and of what the statements make of the contents holds afterwards. -/
theorem execute_keeps {P : Database → Prop} {f : Database → Except StoreError α × Database}
    (h : P s.contents) (hf : P (f s.contents).2) : P (s.execute f).2.contents := by
  unfold execute
  split
  · exact h
  · exact hf

/-- What holds before and wherever the statement succeeds holds afterwards. -/
theorem statement_keeps {P : Database → Prop} {f : Database → Except StoreError (α × Database)}
    (h : P s.contents) (hf : ∀ a db, f s.contents = .ok (a, db) → P db) :
    P (s.statement f).2.contents := by
  apply execute_keeps h
  split
  · exact h
  · exact hf _ _ ‹_›

theorem sameHistory_execute {f : Database → Except StoreError α × Database}
    (hf : ∀ db, Database.SameHistory db (f db).2) :
    Database.SameHistory s.contents (s.execute f).2.contents :=
  execute_keeps ⟨rfl, rfl⟩ (hf s.contents)

theorem sameHistory_statement {f : Database → Except StoreError (α × Database)}
    (hf : ∀ db a db', f db = .ok (a, db') → Database.SameHistory db db') :
    Database.SameHistory s.contents (s.statement f).2.contents :=
  statement_keeps ⟨rfl, rfl⟩ (hf s.contents)

end SharedDatabase

/-! ## Single actions -/

namespace Action

variable {s : SharedDatabase}

/-- An action either sends a message, or sends none and leaves messages and index alone. -/
theorem perform_cases (a : Action) :
    ((a.perform s).1 = none ∧ Database.SameHistory s.contents (a.perform s).2.contents) ∨
      ∃ now sender request sent, (a.perform s).1 = some sent ∧
        s.contents.Sends now sender request sent (a.perform s).2.contents := by
  cases a with
  | createUser name =>
    refine .inl ⟨rfl, SharedDatabase.sameHistory_statement fun db user db' h ↦ ?_⟩
    rw [(Database.createUser_ok h).2]
    exact ⟨rfl, rfl⟩
  | createChannel name =>
    refine .inl ⟨rfl, SharedDatabase.sameHistory_statement fun db channel db' h ↦ ?_⟩
    rw [(Database.createChannel_ok h).2.2]
    exact ⟨rfl, rfl⟩
  | createGroup name members =>
    exact .inl ⟨rfl, SharedDatabase.sameHistory_execute fun db ↦
      Database.sameHistory_createGroup name members⟩
  | deleteGroup group =>
    refine .inl ⟨rfl, SharedDatabase.sameHistory_statement fun db deleted db' h ↦ ?_⟩
    obtain ⟨-, -, rfl⟩ | ⟨-, -, rfl⟩ := Database.deleteGroup_ok h <;> exact ⟨rfl, rfl⟩
  | subscribe channel user =>
    refine .inl ⟨rfl, SharedDatabase.sameHistory_statement fun db u db' h ↦ ?_⟩
    obtain ⟨_, hsubscribe, ⟨⟩⟩ := map_eq_ok_iff.1 h
    obtain ⟨-, rfl⟩ | ⟨-, -, -, rfl⟩ := Database.subscribe_ok hsubscribe <;> exact ⟨rfl, rfl⟩
  | unsubscribe channel user =>
    refine .inl ⟨rfl, SharedDatabase.sameHistory_statement fun db u db' h ↦ ?_⟩
    obtain ⟨_, hunsubscribe, ⟨⟩⟩ := map_eq_ok_iff.1 h
    obtain ⟨-, rfl⟩ | ⟨-, rfl⟩ := Database.unsubscribe_ok hunsubscribe <;> exact ⟨rfl, rfl⟩
  | addMember group user =>
    refine .inl ⟨rfl, SharedDatabase.sameHistory_statement fun db added db' h ↦ ?_⟩
    obtain ⟨-, -, rfl⟩ | ⟨-, -, -, -, rfl⟩ := Database.addMember_ok h <;> exact ⟨rfl, rfl⟩
  | removeMember group user =>
    refine .inl ⟨rfl, SharedDatabase.sameHistory_statement fun db removed db' h ↦ ?_⟩
    obtain ⟨-, -, rfl⟩ | ⟨-, -, rfl⟩ := Database.removeMember_ok h <;> exact ⟨rfl, rfl⟩
  | send faults now sender request =>
    cases hanswer : (s.atomic faults (WhisperChat.send now sender request)).answer with
    | error e =>
      left
      simp only [perform, hanswer]
      rw [SharedDatabase.atomic_of_error hanswer]
      exact ⟨rfl, rfl, rfl⟩
    | ok sent =>
      right
      obtain ⟨-, hyields, -⟩ := SharedDatabase.atomic_of_ok hanswer
      refine ⟨now, sender, request, sent, ?_, sends_of_yields hyields⟩
      simp [perform, hanswer, Except.toOption]
  | get viewer message =>
    left
    simp only [perform]
    rw [SharedDatabase.contents_read (within_getMessage viewer message)]
    exact ⟨trivial, rfl, rfl⟩
  | list viewer channel window =>
    left
    simp only [perform]
    rw [SharedDatabase.contents_read (within_listMessages viewer channel window)]
    exact ⟨trivial, rfl, rfl⟩

/-- Whether an action is on groups or their members. -/
def isOnGroups : Action → Bool
  | createGroup .. | deleteGroup .. | addMember .. | removeMember .. => true
  | _ => false

/-- All other actions leave groups and their members alone. -/
theorem sameGroups_perform (a : Action) (ha : a.isOnGroups = false) :
    (a.perform s).2.contents.groups = s.contents.groups ∧
      (a.perform s).2.contents.members = s.contents.members := by
  -- A statement has only to be looked at where it succeeds.
  have hstatement : ∀ {α : Type} {f : Database → Except StoreError (α × Database)},
      (∀ answer db, f s.contents = .ok (answer, db) →
        db.groups = s.contents.groups ∧ db.members = s.contents.members) →
      (s.statement f).2.contents.groups = s.contents.groups ∧
        (s.statement f).2.contents.members = s.contents.members :=
    fun {_ _} hf ↦ SharedDatabase.statement_keeps
      (P := fun db ↦ db.groups = s.contents.groups ∧ db.members = s.contents.members) ⟨rfl, rfl⟩ hf
  cases a with
  | createUser name =>
    apply hstatement
    intro _ _ hok
    rw [(Database.createUser_ok hok).2]
    exact ⟨rfl, rfl⟩
  | createChannel name =>
    apply hstatement
    intro _ _ hok
    rw [(Database.createChannel_ok hok).2.2]
    exact ⟨rfl, rfl⟩
  | subscribe channel user =>
    apply hstatement
    intro _ _ hok
    obtain ⟨_, hsubscribe, ⟨⟩⟩ := map_eq_ok_iff.1 hok
    obtain ⟨-, rfl⟩ | ⟨-, -, -, rfl⟩ := Database.subscribe_ok hsubscribe <;> exact ⟨rfl, rfl⟩
  | unsubscribe channel user =>
    apply hstatement
    intro _ _ hok
    obtain ⟨_, hunsubscribe, ⟨⟩⟩ := map_eq_ok_iff.1 hok
    obtain ⟨-, rfl⟩ | ⟨-, rfl⟩ := Database.unsubscribe_ok hunsubscribe <;> exact ⟨rfl, rfl⟩
  | send faults now sender request =>
    simp only [perform]
    cases hanswer : (s.atomic faults (WhisperChat.send now sender request)).answer with
    | error e =>
      rw [SharedDatabase.atomic_of_error hanswer]
      exact ⟨rfl, rfl⟩
    | ok sent =>
      obtain ⟨-, hyields, -⟩ := SharedDatabase.atomic_of_ok hanswer
      rw [(sends_of_yields hyields).database]
      exact ⟨rfl, rfl⟩
  | get viewer message =>
    simp only [perform]
    rw [SharedDatabase.contents_read (within_getMessage viewer message)]
    exact ⟨rfl, rfl⟩
  | list viewer channel w =>
    simp only [perform]
    rw [SharedDatabase.contents_read (within_listMessages viewer channel w)]
    exact ⟨rfl, rfl⟩
  | createGroup | deleteGroup | addMember | removeMember => cases ha

theorem indexIsSound_perform (a : Action) (hsound : s.contents.IndexIsSound) :
    (a.perform s).2.contents.IndexIsSound := by
  rcases a.perform_cases with ⟨-, hsame⟩ | ⟨now, sender, request, sent, -, hsends⟩
  · exact hsame.indexIsSound hsound
  · rw [hsends.database]
    exact Database.indexIsSound_withMessage hsound hsends.nextId

/-- Where all rows can be read, an action poisons the lock just when it asks for a page that breaks
down: no memory can be set aside for it, or its walk comes to the end of the identifiers. -/
theorem poisoned_perform_iff (a : Action) (hdecodes : s.contents.Decodes) :
    (a.perform s).2.poisoned = true ↔
      s.poisoned = true ∨ ∃ viewer channel w, a = .list viewer channel w ∧
        (w.Exceeds ∨ s.contents.Overflows viewer channel w) := by
  cases a with
  | list viewer channel w =>
    have hpage := page_breaks_down_iff hdecodes viewer channel w
    simp only [perform, SharedDatabase.read]
    rw [SharedDatabase.poisoned_locked_iff]
    refine or_congr_right (hpage.trans ?_)
    simp
  | send faults now sender request =>
    simp only [perform, SharedDatabase.poisoned_atomic (within_send now sender request)]
    simp
  | get viewer message =>
    simp only [perform, SharedDatabase.poisoned_read (within_getMessage viewer message)]
    simp
  | createGroup name members => simp [perform, SharedDatabase.poisoned_execute]
  | _ => simp [perform, SharedDatabase.poisoned_statement]

end Action

/-! ## Runs from an empty database -/

/-- A run up to some moment: the database, and what the sends that succeeded have returned. -/
structure Run where
  shared : SharedDatabase := {}
  sent : List Sent := []

namespace Run

def step (r : Run) (a : Action) : Run where
  shared := (a.perform r.shared).2
  sent := r.sent ++ (a.perform r.shared).1.toList

def of (actions : List Action) : Run := actions.foldl step {}

end Run

/-! ## Reachable states -/

inductive Seed where
  | user (id : UserId) (name : String)
  | channel (id : ChannelId) (name : String)
  | group (id : GroupId) (name : String)
  | message (row : MessageRow)
  | visibilityRow (message : MessageId) (user : UserId)

def Seed.put (db : Database) : Seed → Except StoreError Database
  | .user id name => db.putUser id name
  | .channel id name => db.putChannel id name
  | .group id name => db.putGroup id name
  | .message row => db.putMessage row
  | .visibilityRow id holder => db.putVisibilityRow id holder

/-- What actions can make of an empty database, rows being put into its tables in between. -/
inductive Reachable : SharedDatabase → Prop
  | start : Reachable {}
  | act {s : SharedDatabase} (a : Action) (h : Reachable s) : Reachable (a.perform s).2
  | seed {s : SharedDatabase} (row : Seed) (h : Reachable s) :
    Reachable (s.statement fun db ↦ (row.put db).map fun db ↦ ((), db)).2

theorem indexIsSound_put {db db' : Database} (row : Seed) (hsound : db.IndexIsSound)
    (h : row.put db = .ok db') : db'.IndexIsSound := by
  cases row with
  | user id name =>
    rw [(Database.putUser_ok h).2]
    exact hsound
  | channel id name =>
    rw [(Database.putChannel_ok h).2.2]
    exact hsound
  | group id name =>
    rw [(Database.putGroup_ok h).2.2]
    exact hsound
  | message row =>
    rw [(Database.putMessage_ok h).2]
    intro entry hentry
    obtain ⟨r, hr, hid⟩ := MessageTable.contains_iff.1 (hsound entry hentry)
    exact MessageTable.contains_iff.2 ⟨r, MessageTable.mem_place_of_mem hr, hid⟩
  | visibilityRow message user =>
    obtain ⟨-, hthere, -, rfl⟩ := Database.putVisibilityRow_ok h
    intro entry hentry
    rcases List.mem_append.1 hentry with hold | hnew
    · exact hsound entry hold
    · rw [List.mem_singleton.1 hnew]
      exact hthere

/-- In a reachable state every row of the index is for a message that is there. -/
theorem Reachable.indexIsSound {s : SharedDatabase} (h : Reachable s) :
    s.contents.IndexIsSound := by
  induction h with
  | start =>
    intro row hrow
    exact absurd hrow List.not_mem_nil
  | act a _ ih => exact a.indexIsSound_perform ih
  | seed row _ ih =>
    apply SharedDatabase.statement_keeps ih
    intro _ db' hput
    obtain ⟨_, hdb', ⟨⟩⟩ := map_eq_ok_iff.1 hput
    exact indexIsSound_put row ih hdb'

theorem Run.reachable_of (actions : List Action) : Reachable (Run.of actions).shared := by
  have hfoldl : ∀ r : Run, Reachable r.shared → Reachable (actions.foldl step r).shared := by
    induction actions with
    | nil => exact fun r h ↦ h
    | cons a actions ih => exact fun r h ↦ ih (r.step a) (h.act a)
  exact hfoldl {} .start

end WhisperChat
