import WhisperChat.Proofs.Membership

/-!
# What a membership opens

Adding a user to a group and taking the user out lead back and forth between two databases that
differ by one member (`Database.Joins`).  Nobody else reads anything different in one than in the
other, and to the member the membership opens those whispers to the group that nothing else opens,
neither the index nor another group (`Database.Opens`).
-/

namespace WhisperChat

open Work

namespace Database

variable {db db' : Database} {group : GroupId} {user viewer : UserId} {m : Message}

/-- The second database has one more member of a group, and what else is read is the same. -/
structure Joins (group : GroupId) (user : UserId) (db db' : Database) : Prop where
  history : SameHistory db db'
  subscriptions : db'.subscriptions = db.subscriptions
  members : ∀ other viewer, (other, viewer) ∈ db'.members ↔
    (other, viewer) ∈ db.members ∨ other = group ∧ viewer = user
  new : (group, user) ∉ db.members

/-- The second database opens whispers to a group to one user: nobody else reads anything new, and
the user still gets what could be gotten before and, in addition, the whispers that name the group
but are open neither by the index nor by another group that they name. -/
structure Opens (group : GroupId) (user : UserId) (db db' : Database) : Prop where
  history : SameHistory db db'
  get_eq : ∀ viewer, viewer ≠ user → ∀ id, db'.get viewer id = db.get viewer id
  page_eq : ∀ viewer, viewer ≠ user → ∀ channel w,
    db'.page viewer channel w = db.page viewer channel w
  kept : ∀ id m, db.get user id = .ok m → db'.get user id = .ok m
  gained : ∀ id m, db'.get user id = .ok m ∧ db.get user id ≠ .ok m ↔
    db.messageById id = .ok (some m) ∧
      ∃ d, m.whisper = some d ∧ group ∈ d.groups ∧ db.hasVisibilityRow id user = false ∧
        ∀ other ∈ d.groups, other ≠ group → (other, user) ∉ db.members

namespace Joins

/-! ## Other viewers -/

theorem groupsOf_eq (h : Joins group user db db') (hne : viewer ≠ user) :
    db'.groupsOf viewer = db.groupsOf viewer := by
  apply IdentSet.ext
  intro other
  rw [mem_groupsOf, mem_groupsOf, h.members, or_iff_left fun hboth ↦ hne hboth.2]

/-- Whoever asks about another viewer is answered as before. -/
theorem answer_eq (h : Joins group user db db') (hne : viewer ≠ user) {c : Call}
    (hc : c.isFor viewer = true) : (c.answer db').1 = (c.answer db).1 := by
  obtain ⟨hmessages, hvisibility⟩ := h.history
  cases c with
  | messageById id => simp only [Call.answer, messageById, hmessages]
  | channelWindow channel scan limit => simp only [Call.answer, channelWindow, hmessages]
  | isChannelSubscriber channel u => simp only [Call.answer, isSubscribed, h.subscriptions]
  | currentUserGroups u =>
    obtain rfl : u = viewer := of_decide_eq_true hc
    simp only [Call.answer, h.groupsOf_eq hne]
  | hasVisibilityRow id u => simp only [Call.answer, hasVisibilityRow, hvisibility]
  | visibilityRowsAmong u ids =>
    simp only [Call.answer, visibilityRowsAmong, hasVisibilityRow, hvisibility]
  | _ => cases hc

theorem get_eq (h : Joins group user db db') (hne : viewer ≠ user) (id : MessageId) :
    db'.get viewer id = db.get viewer id :=
  (within_isFor_getMessage viewer id).answer_congr (fun _ ↦ Call.isQuestion_of_isFor)
    (fun _ ↦ h.answer_eq hne) []

theorem page_eq (h : Joins group user db db') (hne : viewer ≠ user) (channel : ChannelId)
    (w : Window) : db'.page viewer channel w = db.page viewer channel w :=
  (within_isFor_listMessages viewer channel w).answer_congr (fun _ ↦ Call.isQuestion_of_isFor)
    (fun _ ↦ h.answer_eq hne) []

/-! ## The member -/

theorem stored_eq (h : Joins group user db db') : db'.stored = db.stored := by
  rw [stored, h.history.1, stored]

/-- The member is granted the whispers that name the group, besides what was granted before. -/
theorem grants_iff (h : Joins group user db db') :
    db'.grants user m = true ↔
      db.grants user m = true ∨ ∃ d, m.whisper = some d ∧ group ∈ d.groups := by
  have hrow : db'.hasVisibilityRow m.id user = db.hasVisibilityRow m.id user := by
    rw [hasVisibilityRow, h.history.2, hasVisibilityRow]
  cases hw : m.whisper with
  | none =>
    rw [or_iff_left (by rintro ⟨_, ⟨⟩, -⟩)]
    cases hc : m.channel with
    | none => rw [grants_direct hw hc, grants_direct hw hc, hrow]
    | some channel =>
      rw [grants_ordinary hw hc, grants_ordinary hw hc, isSubscribed, h.subscriptions, isSubscribed]
  | some d =>
    rw [grants_whisper_iff hw, grants_whisper_iff hw, hrow, or_assoc]
    apply or_congr_right
    simp only [h.members, Option.some.injEq, exists_eq_left', and_true]
    constructor
    · rintro ⟨other, hother, hmember | rfl⟩
      · exact .inl ⟨other, hother, hmember⟩
      · exact .inr hother
    · rintro (⟨other, hother, hmember⟩ | hgroup)
      · exact ⟨other, hother, .inl hmember⟩
      · exact ⟨group, hgroup, .inr rfl⟩

theorem opens (h : Joins group user db db') : Opens group user db db' where
  history := h.history
  get_eq _ hne := h.get_eq hne
  page_eq _ hne := h.page_eq hne
  kept id m hget := by
    obtain ⟨hm, hid, hgrants⟩ := get_eq_ok_iff.1 hget
    exact get_eq_ok_iff.2 ⟨h.stored_eq ▸ hm, hid, h.grants_iff.2 (.inl hgrants)⟩
  gained id m := by
    rw [ne_eq, get_eq_ok_iff, get_eq_ok_iff, h.stored_eq, h.grants_iff, messageById_eq_some_iff]
    constructor
    · rintro ⟨⟨hm, rfl, hgranted⟩, hnot⟩
      have hclosed : ¬ db.grants user m = true := fun hgrants ↦ hnot ⟨hm, rfl, hgrants⟩
      obtain ⟨d, hw, hgroup⟩ := hgranted.resolve_left hclosed
      rw [grants_whisper_iff hw, not_or, Bool.not_eq_true] at hclosed
      exact ⟨⟨hm, rfl⟩, d, hw, hgroup, hclosed.1,
        fun other hother _ hmember ↦ hclosed.2 ⟨other, hother, hmember⟩⟩
    · rintro ⟨⟨hm, rfl⟩, d, hw, hgroup, hrow, hothers⟩
      refine ⟨⟨hm, rfl, .inr ⟨d, hw, hgroup⟩⟩, ?_⟩
      rintro ⟨-, -, hgrants⟩
      rcases (grants_whisper_iff hw).1 hgrants with hhas | ⟨other, hother, hmember⟩
      · rw [hrow] at hhas
        cases hhas
      · by_cases hsame : other = group
        · exact h.new (hsame ▸ hmember)
        · exact hothers other hother hsame hmember

end Joins

/-! ## Adding and taking out -/

theorem joins_of_addMember (h : db.addMember group user = .ok (true, db')) :
    Joins group user db db' := by
  obtain ⟨hfalse, -, -⟩ | ⟨-, hnew, -, -, rfl⟩ := addMember_ok h
  · cases hfalse
  · exact ⟨⟨rfl, rfl⟩, rfl, by simp, hnew⟩

theorem joins_of_removeMember (h : db.removeMember group user = .ok (true, db')) :
    Joins group user db' db := by
  obtain ⟨hfalse, -, -⟩ | ⟨-, hmember, rfl⟩ := removeMember_ok h
  · cases hfalse
  · refine ⟨⟨rfl, rfl⟩, rfl, ?_, by simp⟩
    intro other viewer
    simp only [List.mem_filter, decide_eq_true_eq, ne_eq, Prod.mk.injEq]
    by_cases hsame : other = group ∧ viewer = user
    · obtain ⟨rfl, rfl⟩ := hsame
      simp [hmember]
    · simp [hsame]

/-- Who has been added can be taken out, and then all is as it was. -/
theorem removeMember_of_addMember (hclosed : db.closed = [])
    (h : db.addMember group user = .ok (true, db')) :
    db'.removeMember group user = .ok (true, db) := by
  obtain ⟨hfalse, -, -⟩ | ⟨-, hnew, -, -, rfl⟩ := addMember_ok h
  · cases hfalse
  · have hkept : (db.members ++ [(group, user)]).filter (· ≠ (group, user)) = db.members := by
      rw [List.filter_append, List.filter_eq_self.2]
      · simp
      · intro row hrow
        simp only [decide_eq_true_eq]
        rintro rfl
        exact hnew hrow
    have hopen : closed { db with members := db.members ++ [(group, user)] } = [] := hclosed
    rw [removeMember_eq hopen, if_pos (by simp), hkept]

namespace IsReferential

variable {s : SharedDatabase}

theorem exists_addMember (h : db.IsReferential) (hgroup : db.groupExists group = true)
    (huser : db.userExists user = true) :
    ∃ added db', db.addMember group user = .ok (added, db') ∧
      (added = true ↔ (group, user) ∉ db.members) ∧ (added = false → db' = db) := by
  have heq := addMember_eq h.closed group user
  by_cases hmember : (group, user) ∈ db.members
  · rw [if_pos hmember] at heq
    exact ⟨_, _, heq, by simp [hmember], fun _ ↦ rfl⟩
  · rw [if_neg hmember, if_pos ⟨hgroup, huser⟩] at heq
    exact ⟨_, _, heq, by simp [hmember], nofun⟩

theorem exists_removeMember (h : db.IsReferential) (group : GroupId) (user : UserId) :
    ∃ removed db', db.removeMember group user = .ok (removed, db') ∧
      (removed = true ↔ (group, user) ∈ db.members) ∧ (removed = false → db' = db) := by
  have heq := removeMember_eq h.closed group user
  by_cases hmember : (group, user) ∈ db.members
  · rw [if_pos hmember] at heq
    exact ⟨_, _, heq, by simp [hmember], nofun⟩
  · rw [if_neg hmember] at heq
    exact ⟨_, _, heq, by simp [hmember], fun _ ↦ rfl⟩

/-- Where the group or the user is missing, nobody is added and nobody can be taken out. -/
theorem unchanged_of_missing (h : s.contents.IsReferential)
    (hmissing : ¬ (s.contents.groupExists group = true ∧ s.contents.userExists user = true)) :
    (s.statement (·.addMember group user)).2 = s ∧
      (s.statement (·.removeMember group user)).2 = s := by
  constructor
  · rcases s.statement_cases (·.addMember group user) with
      ⟨cause, hfailed⟩ | ⟨added, db, -, hok, heq⟩
    · rw [hfailed]
    · obtain ⟨-, -, rfl⟩ | ⟨-, -, hgroup, huser, -⟩ := addMember_ok hok
      · rw [heq]
      · exact absurd ⟨hgroup, huser⟩ hmissing
  · rcases s.statement_cases (·.removeMember group user) with
      ⟨cause, hfailed⟩ | ⟨removed, db, -, hok, heq⟩
    · rw [hfailed]
    · obtain ⟨-, -, rfl⟩ | ⟨-, hmember, -⟩ := removeMember_ok hok
      · rw [heq]
      · exact absurd (h.member group user hmember) hmissing

end IsReferential

end Database

/-- Adding a user to a group says whether the user was no member before, and then opens what the
membership opens; taking the user out says whether the user was a member, and then closes it again.
One after the other they leave everything as it was, and where the group or the user is missing
neither changes anything.  The lock, as long as it is not poisoned, makes no difference. -/
theorem membership_opens {s : SharedDatabase} (hreachable : Reachable s) (group : GroupId)
    (user : UserId) :
    let db := s.contents
    (db.groupExists group = true → db.userExists user = true →
        ∃ added db', db.addMember group user = .ok (added, db') ∧
          (s.poisoned = false →
            s.statement (·.addMember group user) = (.ok added, { s with contents := db' })) ∧
          (added = true ↔ (group, user) ∉ db.members) ∧
          Database.SameHistory db db' ∧
          (added = true →
            db.Opens group user db' ∧ db'.removeMember group user = .ok (true, db)) ∧
          (added = false → db' = db)) ∧
      (∃ removed db', db.removeMember group user = .ok (removed, db') ∧
          (s.poisoned = false →
            s.statement (·.removeMember group user) = (.ok removed, { s with contents := db' })) ∧
          (removed = true ↔ (group, user) ∈ db.members) ∧
          Database.SameHistory db db' ∧
          (removed = true → db'.Opens group user db) ∧
          (removed = false → db' = db)) ∧
      (¬ (db.groupExists group = true ∧ db.userExists user = true) →
        (s.statement (·.addMember group user)).2 = s ∧
          (s.statement (·.removeMember group user)).2 = s) ∧
      ∀ s' : SharedDatabase, s'.poisoned = false → ∀ viewer,
        (∀ id, (s'.read [] (getMessage viewer id)).answer = s'.contents.get viewer id) ∧
          ∀ channel w, (s'.read [] (listMessages viewer channel w)).answer =
            s'.contents.page viewer channel w := by
  intro db
  have h : db.IsReferential := hreachable.isReferential
  refine ⟨?_, ?_, h.unchanged_of_missing, ?_⟩
  · intro hgroup huser
    obtain ⟨added, db', hadd, hnew, hsame⟩ := h.exists_addMember hgroup huser
    refine ⟨added, db', hadd, fun hpoisoned ↦ SharedDatabase.statement_of_ok hpoisoned hadd, hnew,
      ?_⟩
    cases added with
    | false =>
      refine ⟨?_, nofun, hsame⟩
      rw [hsame rfl]
      exact ⟨rfl, rfl⟩
    | true =>
      have hopens := (Database.joins_of_addMember hadd).opens
      exact ⟨hopens.history,
        fun _ ↦ ⟨hopens, Database.removeMember_of_addMember h.closed hadd⟩, hsame⟩
  · obtain ⟨removed, db', hremove, hmember, hsame⟩ := h.exists_removeMember group user
    refine ⟨removed, db', hremove,
      fun hpoisoned ↦ SharedDatabase.statement_of_ok hpoisoned hremove, hmember, ?_⟩
    cases removed with
    | false =>
      refine ⟨?_, nofun, hsame⟩
      rw [hsame rfl]
      exact ⟨rfl, rfl⟩
    | true =>
      have hopens := (Database.joins_of_removeMember hremove).opens
      exact ⟨⟨hopens.history.1.symm, hopens.history.2.symm⟩, fun _ ↦ hopens, hsame⟩
  · intro s' hpoisoned viewer
    exact ⟨fun id ↦ SharedDatabase.answer_read hpoisoned,
      fun channel w ↦ SharedDatabase.answer_read hpoisoned⟩

/-- User 3 joins the group that user 1 has whispered to, gets the old whisper, and leaves again. -/
theorem membership_opens_crew :
    ∃ s ∈ (Run.of whisperActions).sent, ∃ db',
      (Run.of whisperActions).shared.contents.addMember (.small 1) (.small 3) = .ok (true, db') ∧
        (Run.of whisperActions).shared.contents.get (.small 3) s.message.id ≠ .ok s.message ∧
        db'.get (.small 3) s.message.id = .ok s.message ∧
        db'.removeMember (.small 1) (.small 3) =
          .ok (true, (Run.of whisperActions).shared.contents) := by
  obtain ⟨s, hsent, hs⟩ := List.map_eq_singleton_iff.1 sent_whisperActions
  obtain ⟨hid, hwhisper⟩ := Prod.mk.inj hs
  have hmem : s ∈ (Run.of whisperActions).sent := by simp [hsent]
  have hgroup : (Run.of whisperActions).shared.contents.groupExists (.small 1) = true := by
    decide +kernel
  have huser : (Run.of whisperActions).shared.contents.userExists (.small 3) = true := by
    decide +kernel
  have hnew : (.small 1, .small 3) ∉ (Run.of whisperActions).shared.contents.members := by
    decide +kernel
  have hrow : (Run.of whisperActions).shared.contents.hasVisibilityRow s.message.id (.small 3) =
      false := by
    rw [hid]
    decide +kernel
  have hstored : (Run.of whisperActions).shared.contents.messageById s.message.id =
      .ok (some s.message) := by
    rw [Database.messageById_eq_some_iff, (Run.recorded_of whisperActions).stored_eq]
    exact ⟨List.mem_map_of_mem hmem, rfl⟩
  obtain ⟨hadds, -⟩ :=
    membership_opens (Run.reachable_of whisperActions) (.small 1) (.small 3)
  obtain ⟨added, db', hadd, -, hadded, -, hopens, -⟩ := hadds hgroup huser
  obtain rfl : added = true := hadded.2 hnew
  obtain ⟨hopens, hremove⟩ := hopens rfl
  obtain ⟨hget, hnot⟩ := (hopens.gained s.message.id s.message).2
    ⟨hstored, _, hwhisper, IdentSet.mem_ofList.2 (by simp), hrow, fun other hother hne ↦
      absurd (List.mem_singleton.1 (IdentSet.mem_ofList.1 hother)) hne⟩
  exact ⟨s, hmem, db', hadd, hnot, hget, hremove⟩

end WhisperChat
