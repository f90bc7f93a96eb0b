import WhisperChat.Proofs.Deletion
import WhisperChat.Proofs.Reference

/-!
# Who belongs to a group

A group is made together with its members, but not as a whole: the first user who is not there ends
it, and the group stays with the members before (`Database.MakesGroup`).  Apart from that a user is
added to a group or taken out of it alone, or leaves it because it is deleted.  So the members of a
group are those who have been added and have not been taken out since
(`Run.mem_members_foldl_iff`), and a group that is given the identifier of a deleted one starts
anew.
-/

namespace WhisperChat

namespace Database

variable {db db' : Database} {group : GroupId} {user : UserId} {users : List UserId} {name : String}

/-! ## Where no table is closed -/

theorem addMember_eq (hclosed : db.closed = []) (group : GroupId) (user : UserId) :
    db.addMember group user =
      if (group, user) ∈ db.members then .ok (false, db)
      else if db.groupExists group = true ∧ db.userExists user = true then
        .ok (true, { db with members := db.members ++ [(group, user)] })
      else .error .missingReference := by
  simp only [addMember, checkOpen_of_closed hclosed]
  by_cases hmember : (group, user) ∈ db.members
  · simp [hmember]
  · cases hgroup : db.groupExists group <;> cases huser : db.userExists user <;>
      simp [hmember] <;> rfl

theorem removeMember_eq (hclosed : db.closed = []) (group : GroupId) (user : UserId) :
    db.removeMember group user =
      if (group, user) ∈ db.members then
        .ok (true, { db with members := db.members.filter (· ≠ (group, user)) })
      else .ok (false, db) := by
  simp only [removeMember, checkOpen_of_closed hclosed]
  by_cases hmember : (group, user) ∈ db.members
  · simp [hmember]
  · simp [hmember]
    rfl

theorem deleteGroup_eq (hclosed : db.closed = []) (group : GroupId) :
    db.deleteGroup group =
      if db.groupExists group = true then
        .ok (true, { db with
          groups := db.groups.filter fun row ↦ row.1 ≠ group
          members := db.members.filter fun row ↦ row.1 ≠ group })
      else .ok (false, db) := by
  simp only [deleteGroup, checkOpen_of_closed hclosed]
  cases hgroup : db.groupExists group with
  | false =>
    simp only [Bool.not_false, Bool.false_eq_true, if_false, if_true]
    rfl
  | true =>
    simp only [Bool.not_true, Bool.false_eq_true, if_false, if_true]
    change (if _ then _ else _) = _
    split <;> rfl

theorem putGroup_eq (hclosed : db.closed = []) (hfree : db.groupExists group = false)
    (name : String) :
    db.putGroup group name =
      if ∃ row ∈ db.groups, row.2 = name then .error (.duplicate .groupName)
      else .ok { db with groups := db.groups ++ [(group, name)] } := by
  simp only [putGroup, checkOpen_of_closed hclosed, hfree, List.any_eq_true, decide_eq_true_eq]
  change (if _ then _ else _) = _
  split <;> rfl

/-! ## Making a group -/

/-- A new group has been made, whose members are the users before the first who is not there. -/
structure MakesGroup (db : Database) (name : String) (users : List UserId) (group : GroupId)
    (db' : Database) : Prop where
  new : db.groupExists group = false
  unnamed : ∀ row ∈ db.groups, row.2 ≠ name
  groups : db'.groups = db.groups ++ [(group, name)]
  members : ∀ other user, (other, user) ∈ db'.members ↔
    (other, user) ∈ db.members ∨ other = group ∧ user ∈ users.takeWhile db.userExists
  rest : db' = { db with groups := db'.groups, members := db'.members }

theorem MakesGroup.groupExists_iff (h : db.MakesGroup name users group db') {other : GroupId} :
    db'.groupExists other = true ↔ db.groupExists other = true ∨ other = group := by
  simp only [Database.groupExists_iff, h.groups, List.mem_append, List.mem_singleton, or_and_right,
    exists_or, exists_eq_left]
  rw [@eq_comm _ group]

/-- Who is a member when a group has been made was one before or came with the new group. -/
theorem MakesGroup.mem_members_iff (h : db.MakesGroup name users group db') {other : GroupId} :
    (other, user) ∈ db'.members ↔
      (db.groupExists other = false ∧ db'.groupExists other = true ∧
          user ∈ users.takeWhile db.userExists) ∨
        (other, user) ∈ db.members := by
  rw [h.members, h.groupExists_iff, or_comm]
  apply or_congr_left
  constructor
  · rintro ⟨rfl, huser⟩
    exact ⟨h.new, .inr rfl, huser⟩
  · rintro ⟨hnew, hold | rfl, huser⟩
    · rw [hnew] at hold
      cases hold
    · exact ⟨rfl, huser⟩

namespace IsReferential

/-- Users are added up to the first who is not there, who ends it. -/
theorem addMembers_spec (h : db.IsReferential) (hgroup : db.groupExists group = true)
    (users : List UserId) :
    (db.addMembers group users).1 =
        (if users.all db.userExists then .ok () else .error .missingReference) ∧
      (db.addMembers group users).2 =
        { db with members := (db.addMembers group users).2.members } ∧
      ∀ other user, (other, user) ∈ (db.addMembers group users).2.members ↔
        (other, user) ∈ db.members ∨ other = group ∧ user ∈ users.takeWhile db.userExists := by
  induction users generalizing db with
  | nil => simp [addMembers]
  | cons first users ih =>
    have hadd := addMember_eq h.closed group first
    cases hfirst : db.userExists first with
    | false =>
      have hnew : (group, first) ∉ db.members := by
        intro hmember
        have hthere := (h.member group first hmember).2
        rw [hfirst] at hthere
        cases hthere
      simp only [hnew, hfirst, if_false, Bool.false_eq_true, and_false] at hadd
      simp [addMembers, hadd, hfirst]
    | true =>
      -- Whether the first user is new or not, the others find the same users and the group.
      obtain ⟨added, db₁, hok, hrest, hmembers⟩ : ∃ added db₁,
          db.addMember group first = .ok (added, db₁) ∧
            db₁ = { db with members := db₁.members } ∧
            ∀ other user, (other, user) ∈ db₁.members ↔
              (other, user) ∈ db.members ∨ other = group ∧ user = first := by
        by_cases hmember : (group, first) ∈ db.members
        · rw [if_pos hmember] at hadd
          refine ⟨_, _, hadd, rfl, ?_⟩
          intro other user
          rw [or_iff_left_of_imp]
          rintro ⟨rfl, rfl⟩
          exact hmember
        · rw [if_neg hmember, if_pos ⟨hgroup, hfirst⟩] at hadd
          exact ⟨_, _, hadd, rfl, by simp⟩
      have hexists : db₁.userExists = db.userExists := by rw [hrest]; rfl
      have hgroup₁ : db₁.groupExists group = true := by rw [hrest]; exact hgroup
      obtain ⟨hanswer, hdb, hmem⟩ := ih (h.changes (changes_addMember hok)) hgroup₁
      rw [hexists] at hanswer hmem
      simp only [addMembers, hok, List.all_cons, hfirst, Bool.true_and,
        List.takeWhile_cons_of_pos hfirst, List.mem_cons]
      refine ⟨hanswer, ?_, ?_⟩
      · rw [hdb, hrest]
      · intro other user
        rw [hmem, hmembers]
        tauto

/-- A group is made unless its name is taken or no identifier is left; who cannot be a member ends
it with an error, but what has been made stays. -/
theorem createGroup_spec (h : db.IsReferential) (name : String) (users : List UserId) :
    match nextRowId? (db.groups.map Prod.fst) with
    | none => db.createGroup name users = (.error .full, db)
    | some group =>
      if ∃ row ∈ db.groups, row.2 = name then
        db.createGroup name users = (.error (.duplicate .groupName), db)
      else
        ∃ db', db.MakesGroup name users group db' ∧
          db.createGroup name users =
            (if users.all db.userExists then .ok group else .error .missingReference, db') := by
  split
  case h_1 hnone =>
    simp only [createGroup, checkOpen_of_closed h.closed, hnone]
    rfl
  case h_2 group hnext =>
    have hnew : db.groupExists group = false := by
      rw [Bool.eq_false_iff, ne_eq, groupExists_iff, ← mem_ids_iff]
      exact notMem_of_nextRowId? hnext
    have hput := putGroup_eq h.closed hnew name
    split
    case isTrue hname =>
      rw [if_pos hname] at hput
      simp only [createGroup, checkOpen_of_closed h.closed, hnext, hput]
      rfl
    case isFalse hname =>
      rw [if_neg hname] at hput
      have hunnamed : ∀ row ∈ db.groups, row.2 ≠ name := fun row hrow heq ↦ hname ⟨row, hrow, heq⟩
      obtain ⟨made, hdb⟩ : ∃ made : Database,
          made = { db with groups := db.groups ++ [(group, name)] } := ⟨_, rfl⟩
      have hmade : Change db made := by
        rw [hdb]
        exact .group (notMem_of_nextRowId? hnext) (notMem_names hunnamed)
      have hthere : made.groupExists group = true := by
        rw [hdb]
        exact groupExists_iff.2 ⟨(group, name), by simp, rfl⟩
      have hexists : made.userExists = db.userExists := by
        rw [hdb]
        rfl
      obtain ⟨hanswer, hrest, hmembers⟩ := (h.change hmade).addMembers_spec hthere users
      rw [hexists] at hanswer hmembers
      refine ⟨(made.addMembers group users).2, ?_, ?_⟩
      · refine ⟨hnew, hunnamed, ?_, ?_, ?_⟩
        · rw [hrest, hdb]
        · rw [hdb] at hmembers ⊢
          exact hmembers
        · rw [hrest, hdb]
      · simp only [createGroup, checkOpen_of_closed h.closed, hnext, hput, ← hdb]
        refine Prod.ext ?_ rfl
        change (made.addMembers group users).1.map (fun _ ↦ group) =
          if users.all db.userExists then .ok group else .error .missingReference
        rw [hanswer]
        split <;> rfl

end IsReferential

end Database

/-- Under the lock a group is made as by itself, or else, since the lock is poisoned, the name is
taken or no identifier is left, nothing is changed. -/
theorem SharedDatabase.execute_createGroup {s : SharedDatabase} (h : s.contents.IsReferential)
    (name : String) (users : List UserId) :
    ((s.poisoned = true ∨ (∃ row ∈ s.contents.groups, row.2 = name) ∨
          Database.nextRowId? (s.contents.groups.map Prod.fst) = none) ∧
        ∃ cause, s.execute (·.createGroup name users) = (.error cause, s)) ∨
      s.poisoned = false ∧ ∃ group db, s.contents.MakesGroup name users group db ∧
        s.execute (·.createGroup name users) =
          (if users.all s.contents.userExists then .ok group else .error .missingReference,
            { s with contents := db }) := by
  obtain ⟨contents, poisoned⟩ := s
  have hspec := h.createGroup_spec name users
  unfold execute
  cases poisoned with
  | true => exact .inl ⟨.inl rfl, _, rfl⟩
  | false =>
    split at hspec
    case h_1 hnone => exact .inl ⟨.inr (.inr hnone), .full, by simp [hspec]⟩
    case h_2 group hnext =>
      split at hspec
      case isTrue hname =>
        exact .inl ⟨.inr (.inl hname), .duplicate .groupName, by simp [hspec]⟩
      case isFalse =>
        obtain ⟨db, hmakes, hcreated⟩ := hspec
        exact .inr ⟨rfl, group, db, hmakes, by simp [hcreated]⟩

/-! ## What an action does to the members of groups -/

namespace Action

/-- The user becomes a member of the group, be it that it is made with its members. -/
def Enrols (s : SharedDatabase) (group : GroupId) (user : UserId) : Action → Prop
  | addMember g u => g = group ∧ u = user ∧ (s.statement (·.addMember g u)).1 = .ok true
  | createGroup name users =>
    s.contents.groupExists group = false ∧
      (s.execute (·.createGroup name users)).2.contents.groupExists group = true ∧
      user ∈ users.takeWhile s.contents.userExists
  | _ => False

/-- The user ceases to be a member of the group, be it that it is deleted. -/
def Expels (s : SharedDatabase) (group : GroupId) (user : UserId) : Action → Prop
  | removeMember g u => g = group ∧ u = user ∧ (s.statement (·.removeMember g u)).1 = .ok true
  | deleteGroup g => g = group ∧ (s.statement (·.deleteGroup g)).1 = .ok true
  | _ => False

variable {s : SharedDatabase} {group : GroupId} {user : UserId}

/-- Who is a member after an action was made one by it, or was one before and has not been taken
out. -/
theorem mem_members_perform_iff (a : Action) (h : s.contents.IsReferential) :
    (group, user) ∈ (a.perform s).2.contents.members ↔
      a.Enrols s group user ∨
        (group, user) ∈ s.contents.members ∧ ¬ a.Expels s group user := by
  cases ha : a.isOnGroups with
  | false =>
    rw [(sameGroups_perform a ha).2]
    cases a with
    | createGroup | deleteGroup | addMember | removeMember => cases ha
    | _ => exact ⟨fun hmember ↦ .inr ⟨hmember, id⟩, fun h ↦ h.elim False.elim And.left⟩
  | true =>
    cases a with
    | addMember g u =>
      simp only [perform, Enrols, Expels]
      rcases s.statement_cases (·.addMember g u) with ⟨cause, hfailed⟩ | ⟨added, db, -, hok, heq⟩
      · simp [hfailed]
      · rw [heq, @eq_comm _ g, @eq_comm _ u]
        obtain ⟨rfl, -, rfl⟩ | ⟨rfl, -, -, -, rfl⟩ := Database.addMember_ok hok
        · simp
        · simp [or_comm]
    | removeMember g u =>
      simp only [perform, Enrols, Expels]
      rcases s.statement_cases (·.removeMember g u) with
        ⟨cause, hfailed⟩ | ⟨removed, db, -, hok, heq⟩
      · simp [hfailed]
      · rw [heq, @eq_comm _ g, @eq_comm _ u]
        obtain ⟨rfl, -, rfl⟩ | ⟨rfl, -, rfl⟩ := Database.removeMember_ok hok
        · simp
        · simp only [List.mem_filter, decide_eq_true_eq, ne_eq, Prod.mk.injEq]
          tauto
    | deleteGroup g =>
      simp only [perform, Enrols, Expels]
      rcases s.statement_cases (·.deleteGroup g) with ⟨cause, hfailed⟩ | ⟨deleted, db, -, hok, heq⟩
      · simp [hfailed]
      · rw [heq, @eq_comm _ g]
        obtain ⟨rfl, -, rfl⟩ | ⟨rfl, -, rfl⟩ := Database.deleteGroup_ok hok <;> simp
    | createGroup name users =>
      simp only [perform, Enrols, Expels]
      rcases s.execute_createGroup h name users with
        ⟨-, cause, hfailed⟩ | ⟨-, new, db, hmakes, hmade⟩
      · simp +contextual [hfailed]
      · rw [hmade]
        simp only [not_false_eq_true, and_true]
        exact hmakes.mem_members_iff
    | _ => cases ha

end Action

/-! ## Who belongs to a group after a run -/

namespace Run

variable {r : Run} {group : GroupId} {user : UserId} {a : Action} {later : List Action}

/-- None of the later actions takes the user out of the group. -/
def Keeps (r : Run) (group : GroupId) (user : UserId) (later : List Action) : Prop :=
  ∀ before a after, later = before ++ a :: after →
    ¬ a.Expels (before.foldl step r).shared group user

/-- One of the later actions makes the user a member of the group, and none after it takes the user
out. -/
def Gains (r : Run) (group : GroupId) (user : UserId) (later : List Action) : Prop :=
  ∃ before a after, later = before ++ a :: after ∧
    a.Enrols (before.foldl step r).shared group user ∧
    ((before.foldl step r).step a).Keeps group user after

theorem keeps_cons_iff :
    r.Keeps group user (a :: later) ↔
      ¬ a.Expels r.shared group user ∧ (r.step a).Keeps group user later := by
  constructor
  · intro h
    refine ⟨h [] a later rfl, ?_⟩
    rintro before b after rfl
    exact h (a :: before) b after rfl
  · rintro ⟨hfirst, hrest⟩ (_ | ⟨c, before⟩) b after heq
    · obtain ⟨rfl, rfl⟩ := List.cons.inj heq
      exact hfirst
    · obtain ⟨rfl, rfl⟩ := List.cons.inj heq
      exact hrest before b after rfl

theorem gains_cons_iff :
    r.Gains group user (a :: later) ↔
      a.Enrols r.shared group user ∧ (r.step a).Keeps group user later ∨
        (r.step a).Gains group user later := by
  constructor
  · rintro ⟨_ | ⟨c, before⟩, b, after, heq, henrols, hkeeps⟩
    · obtain ⟨rfl, rfl⟩ := List.cons.inj heq
      exact .inl ⟨henrols, hkeeps⟩
    · obtain ⟨rfl, rfl⟩ := List.cons.inj heq
      exact .inr ⟨before, b, after, rfl, henrols, hkeeps⟩
  · rintro (⟨henrols, hkeeps⟩ | ⟨before, b, after, rfl, henrols, hkeeps⟩)
    · exact ⟨[], a, later, rfl, henrols, hkeeps⟩
    · exact ⟨a :: before, b, after, rfl, henrols, hkeeps⟩

/-- Who belongs to a group has been made a member of it and has not been taken out since. -/
theorem mem_members_foldl_iff (h : r.shared.contents.IsReferential) (later : List Action) :
    (group, user) ∈ (later.foldl step r).shared.contents.members ↔
      r.Gains group user later ∨
        (group, user) ∈ r.shared.contents.members ∧ r.Keeps group user later := by
  induction later generalizing r with
  | nil => simp [Gains, Keeps]
  | cons a later ih =>
    have hstep : (r.step a).shared.contents.IsReferential := h.changes a.changes_perform
    have hmem : (group, user) ∈ (r.step a).shared.contents.members ↔ _ :=
      a.mem_members_perform_iff h
    rw [List.foldl_cons, ih hstep, hmem, gains_cons_iff, keeps_cons_iff]
    tauto

/-- A group is deleted with its members. -/
theorem lacks_step_deleteGroup (h : r.shared.contents.IsReferential)
    (hpoisoned : r.shared.poisoned = false) (group : GroupId) :
    (r.shared.statement (·.deleteGroup group)).1 = .ok (r.shared.contents.groupExists group) ∧
      (r.step (.deleteGroup group)).shared.contents.Lacks group := by
  change _ ∧ (r.shared.statement (·.deleteGroup group)).2.contents.Lacks group
  have heq := Database.deleteGroup_eq h.closed group
  cases hgroup : r.shared.contents.groupExists group with
  | true =>
    rw [if_pos hgroup] at heq
    rw [SharedDatabase.statement_of_ok hpoisoned heq]
    exact ⟨rfl, Database.lacks_of_deleteGroup heq⟩
  | false =>
    rw [if_neg (by simp [hgroup])] at heq
    rw [SharedDatabase.statement_of_ok hpoisoned heq]
    refine ⟨rfl, hgroup, fun user hmember ↦ ?_⟩
    -- Nobody is a member of a group that was not there.
    have hthere := (h.member group user hmember).1
    rw [hgroup] at hthere
    cases hthere

/-- Where a group is gone, who belongs to it later has become a member since. -/
theorem mem_members_foldl_iff_of_lacks (h : r.shared.contents.IsReferential)
    (hlacks : r.shared.contents.Lacks group) (later : List Action) :
    (group, user) ∈ (later.foldl step r).shared.contents.members ↔ r.Gains group user later := by
  rw [mem_members_foldl_iff h, or_iff_left]
  exact fun hkept ↦ hlacks.deserted user hkept.1

end Run

end WhisperChat
