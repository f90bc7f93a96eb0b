import WhisperChat.Proofs.Commit
import WhisperChat.Proofs.FailClosed
import WhisperChat.Proofs.Visibility

/-!
# Deleted groups

When a group is deleted its members go with it, and nobody can join it any more: whispers that name
it are open to nobody through it until a new group is given its identifier.  Descriptors name the
identifier for ever, though, and identifiers of groups are given out again.  From then on the old
whispers are open to the members of the new group (`get_after_deleteGroup`).
-/

namespace WhisperChat

/-- No group has the identifier, and nobody is a member of such a group. -/
structure Database.Lacks (db : Database) (group : GroupId) : Prop where
  gone : db.groupExists group = false
  deserted : ∀ user, (group, user) ∉ db.members

namespace Database

variable {db db' : Database} {group : GroupId}

theorem lacks_of_deleteGroup (h : db.deleteGroup group = .ok (true, db')) : db'.Lacks group := by
  obtain ⟨hfalse, -, -⟩ | ⟨-, -, rfl⟩ := deleteGroup_ok h
  · cases hfalse
  · exact ⟨by simp [groupExists], by simp⟩

theorem Lacks.of_eq (h : db.Lacks group) (hgroups : db'.groups = db.groups)
    (hmembers : db'.members = db.members) : db'.Lacks group := by
  refine ⟨?_, ?_⟩
  · rw [groupExists, hgroups]
    exact h.gone
  · rw [hmembers]
    exact h.deserted

/-! ## Single statements -/

theorem lacks_addMember {other : GroupId} {user : UserId} {added : Bool} (h : db.Lacks group)
    (hok : db.addMember other user = .ok (added, db')) : db'.Lacks group := by
  obtain ⟨-, -, rfl⟩ | ⟨-, -, hexists, -, rfl⟩ := addMember_ok hok
  · exact h
  · -- Only a group that is there can be joined.
    have hne : group ≠ other := by
      rintro rfl
      rw [h.gone] at hexists
      cases hexists
    refine ⟨h.gone, fun user ↦ ?_⟩
    simp [h.deserted user, hne]

theorem lacks_addMembers {other : GroupId} {users : List UserId} (h : db.Lacks group) :
    (db.addMembers other users).2.Lacks group := by
  induction users generalizing db with
  | nil => exact h
  | cons user users ih =>
    rw [addMembers]
    split
    · exact h
    · exact ih (lacks_addMember h ‹_›)

/-- A new group is another one, unless it is given the identifier. -/
theorem lacks_createGroup {name : String} {users : List UserId} (h : db.Lacks group)
    (hnext : nextRowId? (db.groups.map Prod.fst) ≠ some group) :
    (db.createGroup name users).2.Lacks group := by
  rcases createGroup_cases db name users with ⟨e, hfailed⟩ | ⟨new, hnew, -, hcreated⟩
  · rw [hfailed]
    exact h
  · have hne : new ≠ group := fun heq ↦ hnext (heq ▸ hnew)
    have hgone := h.gone
    rw [hcreated]
    apply lacks_addMembers
    refine ⟨?_, h.deserted⟩
    simp only [groupExists, List.any_append] at hgone ⊢
    simp [hgone, hne]

theorem lacks_deleteGroup {other : GroupId} {deleted : Bool} (h : db.Lacks group)
    (hok : db.deleteGroup other = .ok (deleted, db')) : db'.Lacks group := by
  obtain ⟨-, -, rfl⟩ | ⟨-, -, rfl⟩ := deleteGroup_ok hok
  · exact h
  · refine ⟨?_, fun user hrow ↦ h.deserted user (List.mem_of_mem_filter hrow)⟩
    have hgone := h.gone
    simp only [groupExists, List.any_eq_false] at hgone ⊢
    exact fun row hrow ↦ hgone row (List.mem_of_mem_filter hrow)

end Database

/-! ## Single actions -/

namespace Action

variable {s : SharedDatabase} {group : GroupId}

/-- A group that is gone stays gone and without members, unless a new group is given its
identifier. -/
theorem lacks_perform (a : Action) (h : s.contents.Lacks group)
    (hnext : ∀ name members, a = .createGroup name members →
      Database.nextRowId? (s.contents.groups.map Prod.fst) ≠ some group) :
    (a.perform s).2.contents.Lacks group := by
  cases ha : a.isOnGroups with
  | false =>
    obtain ⟨hgroups, hmembers⟩ := sameGroups_perform (s := s) a ha
    exact h.of_eq hgroups hmembers
  | true =>
    cases a with
    | createGroup name members =>
      apply SharedDatabase.execute_keeps (P := (·.Lacks group)) h
      exact Database.lacks_createGroup h (hnext name members rfl)
    | deleteGroup other =>
      apply SharedDatabase.statement_keeps (P := (·.Lacks group)) h
      intro _ _ hok
      exact Database.lacks_deleteGroup h hok
    | addMember other user =>
      apply SharedDatabase.statement_keeps (P := (·.Lacks group)) h
      intro _ _ hok
      exact Database.lacks_addMember h hok
    | removeMember other user =>
      apply SharedDatabase.statement_keeps (P := (·.Lacks group)) h
      intro _ _ hok
      obtain ⟨-, -, rfl⟩ | ⟨-, -, rfl⟩ := Database.removeMember_ok hok
      · exact h
      · exact ⟨h.gone, fun user hrow ↦ h.deserted user (List.mem_of_mem_filter hrow)⟩
    | _ => cases ha

end Action

/-! ## What follows a deletion -/

namespace Run

/-- At some moment of what follows a new group is asked for, and the identifier is the next to be
given out. -/
def Reissues (r : Run) (group : GroupId) (later : List Action) : Prop :=
  ∃ before name members after, later = before ++ .createGroup name members :: after ∧
    Database.nextRowId? ((before.foldl step r).shared.contents.groups.map Prod.fst) = some group

theorem lacks_foldl {r : Run} {group : GroupId} {later : List Action}
    (h : r.shared.contents.Lacks group) (hlater : ¬ r.Reissues group later) :
    (later.foldl step r).shared.contents.Lacks group := by
  induction later generalizing r with
  | nil => exact h
  | cons a later ih =>
    have hstep : (r.step a).shared.contents.Lacks group := by
      apply a.lacks_perform h
      rintro name members rfl hnext
      exact hlater ⟨[], name, members, later, rfl, hnext⟩
    apply ih hstep
    rintro ⟨before, name, members, after, rfl, hnext⟩
    exact hlater ⟨a :: before, name, members, after, rfl, hnext⟩

variable {group : GroupId} {s : Sent} {d : Descriptor} {viewer : UserId} {r : Run}

theorem lacks_of_deleteGroup (earlier : List Action)
    (hdeleted : ((of earlier).shared.statement (·.deleteGroup group)).1 = .ok true) :
    (of (earlier ++ [.deleteGroup group])).shared.contents.Lacks group := by
  rw [of, List.foldl_append]
  change ((of earlier).shared.statement (·.deleteGroup group)).2.contents.Lacks group
  rcases (of earlier).shared.statement_cases (·.deleteGroup group) with
    ⟨cause, hfailed⟩ | ⟨deleted, db, -, hok, heq⟩
  · rw [hfailed] at hdeleted
    cases hdeleted
  · rw [heq] at hdeleted ⊢
    cases hdeleted
    exact Database.lacks_of_deleteGroup hok

/-- A viewer whom the index does not know for a whisper, and who is in no other group that it names,
gets it just as a member of the one group that is left. -/
theorem get_eq_ok_iff_mem_members (h : r.Recorded) (hs : s ∈ r.sent)
    (hwhisper : s.message.whisper = some d) (hgroup : group ∈ d.groups)
    (hrow : (s.message.id, viewer) ∉ r.shared.contents.visibility)
    (hothers : ∀ other ∈ d.groups, other ≠ group → (other, viewer) ∉ r.shared.contents.members)
    {m : Message} :
    r.get viewer s.message.id = .ok m ↔
      m = s.message ∧ r.shared.poisoned = false ∧ (group, viewer) ∈ r.shared.contents.members := by
  have hgrants : r.shared.contents.grants viewer s.message = true ↔
      (group, viewer) ∈ r.shared.contents.members := by
    rw [Database.grants_whisper_iff hwhisper, Database.hasVisibilityRow_iff, or_iff_right hrow]
    constructor
    · rintro ⟨other, hother, hmember⟩
      by_cases hsame : other = group
      · exact hsame ▸ hmember
      · exact absurd hmember (hothers other hother hsame)
    · intro hmember
      exact ⟨group, hgroup, hmember⟩
  cases hpoisoned : r.shared.poisoned with
  | true =>
    have hget : r.get viewer s.message.id = .error (.error (.store .poisoned)) :=
      SharedDatabase.answer_read_of_poisoned hpoisoned
    simp [hget]
  | false =>
    rw [get_of_mem h hpoisoned hs, ← hgrants]
    split
    case isTrue hvisible => simp [hvisible, eq_comm]
    case isFalse hhidden => simp [hhidden]

/-- What is on a page the viewer gets. -/
theorem get_of_mem_page {channel : ChannelId} {w : Window} {page : List Message} {m : Message}
    (hpage : r.page viewer channel w = .ok page) (hm : m ∈ page) :
    r.get viewer m.id = .ok m := by
  have hunpoisoned : r.shared.poisoned = false := by
    cases hpoisoned : r.shared.poisoned with
    | false => rfl
    | true =>
      rw [Run.page, SharedDatabase.answer_read_of_poisoned hpoisoned] at hpage
      cases hpage
  have hhistory : m ∈ r.shared.contents.history viewer channel :=
    mem_history_of_mem_page (SharedDatabase.run_of_answer_read hpage) m hm
  calc
    r.get viewer m.id = r.shared.contents.get viewer m.id :=
      SharedDatabase.answer_read hunpoisoned
    _ = .ok m := (Database.mem_history.1 hhistory).2

/-- Once a group that a whisper names has been deleted, a viewer whom the index does not know for
the whisper and who is in no other group that it names does not get it any more, neither by itself
nor on a page, unless a new group is given the identifier of the old one.  Where that happens, the
members of the new group get the whisper. -/
theorem get_after_deleteGroup (earlier later : List Action) (hsent : s ∈ (of earlier).sent)
    (hwhisper : s.message.whisper = some d) (hgroup : group ∈ d.groups)
    (hdeleted : ((of earlier).shared.statement (·.deleteGroup group)).1 = .ok true)
    (hrow : (s.message.id, viewer) ∉
      (of (earlier ++ .deleteGroup group :: later)).shared.contents.visibility)
    (hothers : ∀ other ∈ d.groups, other ≠ group → (other, viewer) ∉
      (of (earlier ++ .deleteGroup group :: later)).shared.contents.members) :
    let r := of (earlier ++ .deleteGroup group :: later)
    (∀ m, r.get viewer s.message.id = .ok m ↔
        m = s.message ∧ r.shared.poisoned = false ∧
          (group, viewer) ∈ r.shared.contents.members) ∧
      (∀ channel w page, r.page viewer channel w = .ok page → ∀ m ∈ page,
        m.id = s.message.id → (group, viewer) ∈ r.shared.contents.members) ∧
      (¬ (of (earlier ++ [.deleteGroup group])).Reissues group later →
        (∀ m, r.get viewer s.message.id ≠ .ok m) ∧
        ∀ channel w page, r.page viewer channel w = .ok page → ∀ m ∈ page,
          m.id ≠ s.message.id) := by
  intro r
  have hrecorded : r.Recorded := recorded_of _
  have hs : s ∈ r.sent := mem_sent_append hsent _
  have hget : ∀ m, r.get viewer s.message.id = .ok m ↔
      m = s.message ∧ r.shared.poisoned = false ∧ (group, viewer) ∈ r.shared.contents.members :=
    fun m ↦ get_eq_ok_iff_mem_members hrecorded hs hwhisper hgroup hrow hothers
  have hpage : ∀ channel w page, r.page viewer channel w = .ok page → ∀ m ∈ page,
      m.id = s.message.id → (group, viewer) ∈ r.shared.contents.members := by
    intro channel w page h m hm hid
    have hgotten := get_of_mem_page h hm
    rw [hid] at hgotten
    exact ((hget m).1 hgotten).2.2
  refine ⟨hget, hpage, ?_⟩
  intro hlater
  have hlacks : r.shared.contents.Lacks group := by
    have hfold := lacks_foldl (lacks_of_deleteGroup earlier hdeleted) hlater
    rw [of, ← List.foldl_append, List.append_assoc] at hfold
    exact hfold
  refine ⟨fun m h ↦ hlacks.deserted viewer ((hget m).1 h).2.2, ?_⟩
  intro channel w page h m hm hid
  exact hlacks.deserted viewer (hpage channel w page h m hm hid)

end Run

/-- User 1 whispers to the group of user 2 alone. -/
def whisperActions : List Action :=
  sampleActions ++
    [.send [] .epoch (.small 1) { sampleRequest with whisperUsers := [] }]

/-- A group that is given the identifier of the deleted one, for user 3. -/
def newcomerActions : List Action := [.createGroup "newcomers" [.small 3]]

theorem sent_whisperActions :
    (Run.of whisperActions).sent.map (fun s ↦ (s.message.id, s.message.whisper)) =
      [(.small 1, some ⟨.empty, .ofList [.small 1]⟩)] := by
  decide +kernel

/-- The old whisper to a group that was deleted comes to user 3, whom it was never meant for. -/
theorem get_after_deleteGroup_newcomers :
    ∃ s ∈ (Run.of whisperActions).sent,
      (Run.of (whisperActions ++ .deleteGroup (.small 1) :: newcomerActions)).get (.small 3)
        s.message.id = .ok s.message := by
  obtain ⟨s, hsent, hs⟩ := List.map_eq_singleton_iff.1 sent_whisperActions
  obtain ⟨hid, hwhisper⟩ := Prod.mk.inj hs
  have hmem : s ∈ (Run.of whisperActions).sent := by simp [hsent]
  have hdeleted : ((Run.of whisperActions).shared.statement
      (·.deleteGroup (.small 1))).1.toOption = some true := by decide +kernel
  have hrow : (s.message.id, .small 3) ∉ (Run.of (whisperActions ++
      .deleteGroup (.small 1) :: newcomerActions)).shared.contents.visibility := by
    rw [hid]
    decide +kernel
  have hothers : ∀ other ∈ (IdentSet.ofList [.small 1] : IdentSet .group), other ≠ .small 1 →
      (other, .small 3) ∉ (Run.of (whisperActions ++
        .deleteGroup (.small 1) :: newcomerActions)).shared.contents.members := by
    intro other hother hne
    exact absurd (List.mem_singleton.1 (IdentSet.mem_ofList.1 hother)) hne
  have hmember : (.small 1, .small 3) ∈ (Run.of (whisperActions ++
      .deleteGroup (.small 1) :: newcomerActions)).shared.contents.members := by decide +kernel
  have hunpoisoned : (Run.of (whisperActions ++
      .deleteGroup (.small 1) :: newcomerActions)).shared.poisoned = false := by decide +kernel
  obtain ⟨hget, -⟩ := Run.get_after_deleteGroup whisperActions newcomerActions hmem hwhisper
    (IdentSet.mem_ofList.2 (by simp)) (toOption_eq_some_iff.1 hdeleted) hrow hothers
  exact ⟨s, hmem, (hget s.message).2 ⟨rfl, hunpoisoned, hmember⟩⟩

end WhisperChat
