import WhisperChat.Proofs.Fields

/-!
# A request says its recipients

A request is read from an object whose members come in any order and with others among them: the
content and the lists of a whisper where they stand, the target at the end, from what was kept.
A list that was passed over or replaced would make a whisper of its message that reaches others, or
no whisper at all.  None is: a text is read as a request just when it is an object that holds the
request, each of its fields once and nothing else under their names (`SendRequest.read_exactly`).
-/

namespace WhisperChat

/-! ## Reading members -/

namespace SendRequest

open Wire (valuesOf)

/-- The values under the name of an optional field: none, and what was read stays, or the one value
that is written for what is read. -/
def Fills {α : Type} (write : α → Json) (before : Option α) (values : List Json)
    (after : Option α) : Prop :=
  values = [] ∧ after = before ∨ before = none ∧ ∃ a, values = [write a] ∧ after = some a

theorem Fills.exists_eq {α : Type} {write : α → Json} {before after : Option α}
    {values : List Json} (h : Fills write before values after) :
    ∀ value ∈ values, ∃ a, value = write a := by
  rcases h with ⟨rfl, -⟩ | ⟨-, a, rfl, -⟩
  · exact List.forall_mem_nil _
  · exact List.forall_mem_singleton.2 ⟨a, rfl⟩

theorem Fills.eq_some_iff {α : Type} {write : α → Json} {after : Option α} {values : List Json}
    {a : α} (h : Fills write none values after) (hinj : Function.Injective write) :
    after = some a ↔ values = [write a] := by
  rcases h with ⟨rfl, rfl⟩ | ⟨-, found, rfl, rfl⟩
  · simp
  · simp [hinj.eq_iff]

theorem fills_cons {α : Type} {write : α → Json} {before after : Option α} {value : Json}
    {values : List Json} : Fills write before (value :: values) after ↔
      before = none ∧ ∃ a, value = write a ∧ Fills write (some a) values after := by
  simp only [Fills, List.cons_ne_nil, false_and, false_or, List.cons.injEq, reduceCtorEq,
    or_false, and_assoc]

def ownNames : List String := ["content", "whisper_to_user_ids", "whisper_to_group_ids"]

/-- Whether a member is kept until the end. -/
def isKept (member : Option String × Json) : Bool := ownNames.all fun name ↦ member.1 ≠ some name

namespace Progress

variable {p q : Progress} {value : Json} {members : List (Option String × Json)}

/-- What is read where it stands has not been read before, and is what is written. -/
theorem readOnce_eq_ok_iff {α : Type} {before : Option α} {read : Json → Except Refusal α}
    {write : α → Json} {put : α → Progress} (hread : ∀ a, read value = .ok a ↔ value = write a) :
    (do
      if before.isSome then throw .mismatch
      return put (← read value)) = Except.ok q ↔
      before = none ∧ ∃ a, value = write a ∧ q = put a := by
  simp only [← hread]
  cases before with
  | some _ => simp [bind_eq_ok_iff, throw_eq_ok_iff]
  | none =>
    change (read value >>= fun a ↦ pure (put a)) = .ok q ↔ _
    simp only [bind_eq_ok_iff, pure_eq_ok_iff, true_and, eq_comm (a := q)]

theorem take_content :
    p.take (some "content", value) = .ok q ↔
      p.content = none ∧ ∃ s, value = .str s ∧ q = { p with content := some s } :=
  readOnce_eq_ok_iff fun _ ↦ Wire.readString_eq_ok_iff

theorem take_whisperUsers :
    p.take (some "whisper_to_user_ids", value) = .ok q ↔
      p.whisperUsers = none ∧ ∃ ids, value = Wire.idsJson ids ∧
        q = { p with whisperUsers := some ids } :=
  readOnce_eq_ok_iff fun _ ↦ Wire.readIds_eq_ok_iff

theorem take_whisperGroups :
    p.take (some "whisper_to_group_ids", value) = .ok q ↔
      p.whisperGroups = none ∧ ∃ ids, value = Wire.idsJson ids ∧
        q = { p with whisperGroups := some ids } :=
  readOnce_eq_ok_iff fun _ ↦ Wire.readIds_eq_ok_iff

theorem take_kept {name : String} (h : isKept (some name, value) = true) :
    p.take (some name, value) = .ok q ↔
      value.keepable Wire.keptDepth = true ∧
        q = { p with others := (some name, value) :: p.others } := by
  simp only [isKept, ownNames, List.all_cons, List.all_nil, Bool.and_true, Bool.and_eq_true,
    decide_eq_true_eq, ne_eq, Option.some.injEq] at h
  obtain ⟨hcontent, husers, hgroups⟩ := h
  simp only [take, hcontent, husers, hgroups, if_false]
  split
  case isTrue hkeepable => simp [hkeepable, eq_comm]
  case isFalse hkeepable => simp [hkeepable, throw_eq_ok_iff]

/-- What has been read after further members: each field that is read where it stands has been
filled once at most, and the other members have been kept. -/
@[mk_iff]
structure Takes (p : Progress) (members : List (Option String × Json)) (q : Progress) : Prop where
  content : Fills .str p.content (valuesOf "content" members) q.content
  whisperUsers : Fills Wire.idsJson p.whisperUsers (valuesOf "whisper_to_user_ids" members)
    q.whisperUsers
  whisperGroups : Fills Wire.idsJson p.whisperGroups (valuesOf "whisper_to_group_ids" members)
    q.whisperGroups
  others : q.others = (members.filter isKept).reverse ++ p.others
  isSome : ∀ member ∈ members, member.1.isSome = true
  keepable : ∀ member ∈ members, isKept member = true → member.2.keepable Wire.keptDepth = true

theorem takes_nil : Takes p [] q ↔ q = p := by
  cases p
  cases q
  simp [takes_iff, Fills]

/-- One member more is one step more.  The cases are those of the names that are read where they
stand; in each, the values under the other names stay as they are. -/
theorem takes_cons {member : Option String × Json} :
    Takes p (member :: members) q ↔ ∃ p', p.take member = .ok p' ∧ Takes p' members q := by
  obtain ⟨_ | name, value⟩ := member
  · simp [takes_iff, take, throw_eq_ok_iff]
  by_cases hcontent : name = "content"
  · subst hcontent
    have hkept : isKept (some "content", value) = false := rfl
    simp only [takes_iff, take_content, Wire.valuesOf_cons, fills_cons, List.filter_cons, hkept,
      List.forall_mem_cons, Option.isSome_some, Option.some.injEq, String.reduceEq, true_and,
      Bool.false_eq_true, if_true, if_false, false_implies]
    constructor
    · rintro ⟨⟨hbefore, s, rfl, hfills⟩, hrest⟩
      exact ⟨_, ⟨hbefore, s, rfl, rfl⟩, hfills, hrest⟩
    · rintro ⟨_, ⟨hbefore, s, rfl, rfl⟩, hfills, hrest⟩
      exact ⟨⟨hbefore, s, rfl, hfills⟩, hrest⟩
  by_cases husers : name = "whisper_to_user_ids"
  · subst husers
    have hkept : isKept (some "whisper_to_user_ids", value) = false := rfl
    simp only [takes_iff, take_whisperUsers, Wire.valuesOf_cons, fills_cons, List.filter_cons,
      hkept, List.forall_mem_cons, Option.isSome_some, Option.some.injEq, String.reduceEq, true_and,
      Bool.false_eq_true, if_true, if_false, false_implies]
    constructor
    · rintro ⟨hcontent, ⟨hbefore, ids, rfl, hfills⟩, hrest⟩
      exact ⟨_, ⟨hbefore, ids, rfl, rfl⟩, hcontent, hfills, hrest⟩
    · rintro ⟨_, ⟨hbefore, ids, rfl, rfl⟩, hcontent, hfills, hrest⟩
      exact ⟨hcontent, ⟨hbefore, ids, rfl, hfills⟩, hrest⟩
  by_cases hgroups : name = "whisper_to_group_ids"
  · subst hgroups
    have hkept : isKept (some "whisper_to_group_ids", value) = false := rfl
    simp only [takes_iff, take_whisperGroups, Wire.valuesOf_cons, fills_cons, List.filter_cons,
      hkept, List.forall_mem_cons, Option.isSome_some, Option.some.injEq, String.reduceEq, true_and,
      Bool.false_eq_true, if_true, if_false, false_implies]
    constructor
    · rintro ⟨hcontent, husers, ⟨hbefore, ids, rfl, hfills⟩, hrest⟩
      exact ⟨_, ⟨hbefore, ids, rfl, rfl⟩, hcontent, husers, hfills, hrest⟩
    · rintro ⟨_, ⟨hbefore, ids, rfl, rfl⟩, hcontent, husers, hfills, hrest⟩
      exact ⟨hcontent, husers, ⟨hbefore, ids, rfl, hfills⟩, hrest⟩
  · have hkept : isKept (some name, value) = true := by
      simp [isKept, ownNames, hcontent, husers, hgroups]
    simp only [takes_iff, take_kept hkept, Wire.valuesOf_cons, List.filter_cons, hkept,
      List.forall_mem_cons, Option.isSome_some, Option.some.injEq, hcontent, husers, hgroups,
      true_and, if_true, if_false, true_implies, List.reverse_cons, List.append_assoc,
      List.cons_append, List.nil_append]
    constructor
    · rintro ⟨hcontent, husers, hgroups, hothers, hsome, hkeepable, hrest⟩
      exact ⟨_, ⟨hkeepable, rfl⟩, hcontent, husers, hgroups, hothers, hsome, hrest⟩
    · rintro ⟨_, ⟨hkeepable, rfl⟩, hcontent, husers, hgroups, hothers, hsome, hrest⟩
      exact ⟨hcontent, husers, hgroups, hothers, hsome, hkeepable, hrest⟩

/-- Reading the members in their order does what is said of them together. -/
theorem foldlM_take_eq_ok_iff : members.foldlM take p = .ok q ↔ Takes p members q := by
  induction members generalizing p with
  | nil => rw [takes_nil, List.foldlM_nil, pure_eq_ok_iff, eq_comm]
  | cons member members ih =>
    rw [takes_cons, List.foldlM_cons, bind_eq_ok_iff]
    exact exists_congr fun p' ↦ and_congr_right fun _ ↦ ih

end Progress

/-! ## The request of an object -/

def fieldNames (r : SendRequest) : List String := ownNames ++ "type" :: r.target.kind.fieldNames

/-- The values under the name of a list of a whisper: the list alone, or none for the empty list. -/
def Gives {kind : IdentKind} (values : List Json) (ids : List (Ident kind)) : Prop :=
  values = [Wire.idsJson ids] ∨ values = [] ∧ ids = []

/-- The members of an object hold the fields of the request, in any order and each once; an empty
list of a whisper may be left out.  What stands among them is under other names and bounded. -/
structure Holds (r : SendRequest) (members : List (Option String × Json)) : Prop where
  content : valuesOf "content" members = [.str r.content]
  whisperUsers : Gives (valuesOf "whisper_to_user_ids" members) r.whisperUsers
  whisperGroups : Gives (valuesOf "whisper_to_group_ids" members) r.whisperGroups
  kind : ∃ value, valuesOf "type" members = [value] ∧ r.target.kind.IsNamedBy value
  fields : ∀ field ∈ r.target.fields, valuesOf field.1 members = [field.2]
  further : ∀ member ∈ members, ∃ name, member.1 = some name ∧
    (name ∈ r.fieldNames ∨ member.2.IsBounded Wire.keptDepth)

variable {r : SendRequest} {members : List (Option String × Json)} {s : String}

theorem Fills.gives_iff {kind : IdentKind} {values : List Json} {after : Option (List (Ident kind))}
    {ids : List (Ident kind)} (h : Fills Wire.idsJson none values after) :
    Gives values ids ↔ after.getD [] = ids := by
  rcases h with ⟨rfl, rfl⟩ | ⟨-, found, rfl, rfl⟩
  · simp [Gives, eq_comm]
  · simp [Gives, Wire.idsJson_injective.eq_iff]

theorem Gives.exists_fills {kind : IdentKind} {values : List Json} {ids : List (Ident kind)}
    (h : Gives values ids) :
    ∃ after : Option (List (Ident kind)), Fills Wire.idsJson none values after := by
  rcases h with rfl | ⟨rfl, -⟩
  · exact ⟨some ids, .inr ⟨rfl, ids, rfl, rfl⟩⟩
  · exact ⟨none, .inl ⟨rfl, rfl⟩⟩

theorem kind?_eq_some_iff {value : Json} {kind : Target.Kind} :
    Progress.kind? value = some kind ↔ kind.IsNamedBy value := by
  constructor
  · intro h
    unfold Progress.kind? at h
    split at h
    · obtain ⟨name, rfl, hname⟩ := Option.bind_eq_some_iff.1 h
      rw [Target.Kind.ofName?_eq_some_iff.1 hname]
      exact .inl rfl
    · cases h
      exact .inr rfl
    · cases h
      exact .inr rfl
    · cases h
  · rintro (rfl | rfl) <;> cases kind <;> rfl

theorem Progress.finish?_eq_some_iff {p : Progress} :
    p.finish? = some r ↔ p.content = some r.content ∧ p.target? = some r.target ∧
      p.whisperUsers.getD [] = r.whisperUsers ∧ p.whisperGroups.getD [] = r.whisperGroups := by
  obtain ⟨target, content, users, groups⟩ := r
  simp only [finish?, Option.bind_eq_bind, Option.bind_eq_some_iff, Option.pure_def,
    Option.some.injEq, SendRequest.mk.injEq]
  constructor
  · rintro ⟨_, hcontent, _, htarget, rfl, rfl, husers, hgroups⟩
    exact ⟨hcontent, htarget, husers, hgroups⟩
  · rintro ⟨hcontent, htarget, husers, hgroups⟩
    exact ⟨content, hcontent, target, htarget, rfl, rfl, husers, hgroups⟩

theorem isKept_iff {name : String} {value : Json} :
    isKept (some name, value) = true ↔ name ∉ ownNames := by
  simp [isKept, ownNames]

theorem not_mem_ownNames {kind : Target.Kind} :
    ∀ name ∈ "type" :: kind.fieldNames, name ∉ ownNames := by
  cases kind <;> decide

namespace Progress.Takes

variable {p : Progress}

/-- Whatever is taken is JSON throughout. -/
theorem whole (hp : Takes {} members p) : ∀ member ∈ members, member.2.whole = true := by
  rintro ⟨name, value⟩ hmember
  obtain ⟨name, rfl⟩ := Option.isSome_iff_exists.1 (hp.isSome _ hmember)
  have hvalue : value ∈ valuesOf name members := Wire.mem_valuesOf.2 hmember
  by_cases hkept : isKept (some name, value) = true
  · exact (Json.keepable_iff.1 (hp.keepable _ hmember hkept)).1
  · have hname : name ∈ ownNames := by
      rwa [isKept_iff, not_not] at hkept
    simp only [ownNames, List.mem_cons, List.not_mem_nil, or_false] at hname
    rcases hname with rfl | rfl | rfl
    · obtain ⟨_, rfl⟩ := hp.content.exists_eq value hvalue
      rfl
    · obtain ⟨ids, rfl⟩ := hp.whisperUsers.exists_eq value hvalue
      exact Json.whole_of_isExact _ (Wire.isExact_idsJson ids)
    · obtain ⟨ids, rfl⟩ := hp.whisperGroups.exists_eq value hvalue
      exact Json.whole_of_isExact _ (Wire.isExact_idsJson ids)

/-- The target is read from what was kept, and what was not kept is no part of it. -/
theorem target?_eq_some_iff {t : Target} (hp : Takes {} members p) :
    p.target? = some t ↔
      (∃ value, valuesOf "type" members = [value] ∧ t.kind.IsNamedBy value) ∧
        ∀ field ∈ t.fields, valuesOf field.1 members = [field.2] := by
  have hkept : p.others.reverse = members.filter isKept := by
    rw [hp.others, List.append_nil, List.reverse_reverse]
  have hvalues : ∀ name ∈ "type" :: t.kind.fieldNames,
      valuesOf name (members.filter isKept) = valuesOf name members := fun name hname ↦
    Wire.valuesOf_filter fun _ ↦ isKept_iff.2 (not_mem_ownNames name hname)
  have hfield : ∀ field ∈ t.fields,
      valuesOf field.1 (members.filter isKept) = valuesOf field.1 members := fun field hfield ↦
    hvalues field.1 (List.mem_cons_of_mem _ (t.map_fst_fields ▸ List.mem_map_of_mem hfield))
  have hwhole : ∀ member ∈ members.filter isKept, member.2.whole = true := fun member hmember ↦
    hp.whole member (List.mem_of_mem_filter hmember)
  have hsome : ∀ member ∈ members.filter isKept, member.1.isSome = true := fun member hmember ↦
    hp.isSome member (List.mem_of_mem_filter hmember)
  have htype := hvalues "type" (List.mem_cons_self ..)
  have hread : p.target? = (Wire.fields? ["type"] (members.filter isKept)).bind fun fields ↦
      (Wire.required? fields "type" kind?).bind fun kind ↦
        Target.ofMembers? kind (members.filter isKept) := by
    rw [target?, hkept]
    rfl
  rw [hread]
  constructor
  · intro h
    obtain ⟨fields, hfields, h⟩ := Option.bind_eq_some_iff.1 h
    obtain ⟨kind, hkind, h⟩ := Option.bind_eq_some_iff.1 h
    obtain ⟨value, hvalue, hnamed⟩ :=
      (Wire.required?_eq_some_iff hfields (List.mem_singleton_self _)).1 hkind
    obtain ⟨rfl, -, hall⟩ := (Target.ofMembers?_eq_some_iff hwhole).1 h
    exact ⟨⟨value, htype ▸ hvalue, kind?_eq_some_iff.1 hnamed⟩,
      fun field hmem ↦ hfield field hmem ▸ hall field hmem⟩
  · rintro ⟨⟨value, hvalue, hnamed⟩, hall⟩
    rw [← htype] at hvalue
    obtain ⟨fields, hfields⟩ := Wire.exists_fields_iff.2
      ⟨hsome, List.forall_mem_singleton.2 (Nat.le_of_eq (congrArg List.length hvalue))⟩
    have hkind : Wire.required? fields "type" kind? = some t.kind :=
      (Wire.required?_eq_some_iff hfields (List.mem_singleton_self _)).2
        ⟨value, hvalue, kind?_eq_some_iff.2 hnamed⟩
    rw [hfields, Option.bind_some, hkind, Option.bind_some]
    exact (Target.ofMembers?_eq_some_iff hwhole).2
      ⟨rfl, hsome, fun field hmem ↦ (hfield field hmem).trans (hall field hmem)⟩

/-- What is not a field of the request has been kept. -/
theorem further (hp : Takes {} members p) (r : SendRequest) :
    ∀ member ∈ members, ∃ name, member.1 = some name ∧
      (name ∈ r.fieldNames ∨ member.2.IsBounded Wire.keptDepth) := by
  rintro ⟨name, value⟩ hmember
  obtain ⟨name, rfl⟩ := Option.isSome_iff_exists.1 (hp.isSome _ hmember)
  refine ⟨name, rfl, ?_⟩
  by_cases hkept : isKept (some name, value) = true
  · exact .inr (Json.keepable_iff.1 (hp.keepable _ hmember hkept)).2
  · rw [isKept_iff, not_not] at hkept
    exact .inl (List.mem_append_left _ hkept)

/-- What was taken makes up the request that the members hold. -/
theorem finish?_eq_some_iff (hp : Takes {} members p) :
    p.finish? = some r ↔ r.Holds members := by
  have hstr : Function.Injective Json.str := fun s s' h ↦ by cases h; rfl
  rw [Progress.finish?_eq_some_iff, hp.content.eq_some_iff hstr, hp.target?_eq_some_iff,
    ← hp.whisperUsers.gives_iff, ← hp.whisperGroups.gives_iff]
  constructor
  · rintro ⟨hcontent, ⟨hkind, hfields⟩, husers, hgroups⟩
    exact ⟨hcontent, husers, hgroups, hkind, hfields, hp.further r⟩
  · intro h
    exact ⟨h.content, ⟨h.kind, h.fields⟩, h.whisperUsers, h.whisperGroups⟩

end Progress.Takes

/-- The fields of the target can all be kept until its type is known. -/
theorem Holds.keepable (h : r.Holds members) {name : String} {value : Json}
    (hname : name ∈ "type" :: r.target.kind.fieldNames) (hvalue : value ∈ valuesOf name members) :
    value.keepable Wire.keptDepth = true := by
  rcases List.mem_cons.1 hname with rfl | hname
  · obtain ⟨named, hvalues, hnamed⟩ := h.kind
    rw [hvalues, List.mem_singleton] at hvalue
    exact hvalue ▸ hnamed.keepable
  · rw [← Target.map_fst_fields] at hname
    obtain ⟨field, hfield, rfl⟩ := List.mem_map.1 hname
    rw [h.fields field hfield, List.mem_singleton] at hvalue
    exact hvalue ▸ Target.keepable_of_mem_fields hfield

/-- Members that hold a request can be taken. -/
theorem Holds.exists_takes (h : r.Holds members)
    (hwhole : ∀ member ∈ members, member.2.whole = true) : ∃ p, Progress.Takes {} members p := by
  obtain ⟨users, husers⟩ := h.whisperUsers.exists_fills
  obtain ⟨groups, hgroups⟩ := h.whisperGroups.exists_fills
  refine ⟨⟨some r.content, users, groups, (members.filter isKept).reverse⟩,
    .inr ⟨rfl, r.content, h.content, rfl⟩, husers, hgroups, (List.append_nil _).symm, ?_, ?_⟩
  · intro member hmember
    obtain ⟨name, hname, -⟩ := h.further member hmember
    rw [hname, Option.isSome_some]
  · rintro ⟨name, value⟩ hmember hkept
    obtain ⟨name, rfl, hname | hbounded⟩ := h.further _ hmember
    · have hrest := (List.mem_append.1 hname).resolve_left (isKept_iff.1 hkept)
      exact h.keepable hrest (Wire.mem_valuesOf.2 hmember)
    · exact Json.keepable_iff.2 ⟨hwhole _ hmember, hbounded⟩

theorem ofTree_object_eq_ok_iff {closed : Bool} :
    ofTree (.object members closed) = .ok r ↔
      closed = true ∧ ∃ p, Progress.Takes {} members p ∧ p.finish? = some r := by
  simp only [ofTree, bind_eq_ok_iff, Progress.foldlM_take_eq_ok_iff]
  cases closed with
  | false =>
    refine iff_of_false ?_ (by simp)
    rintro ⟨p, -, h⟩
    cases h
  | true =>
    simp only [true_and]
    refine exists_congr fun p ↦ and_congr_right fun _ ↦ ?_
    cases hfinish : p.finish? with
    | none => simp [throw_eq_ok_iff]
    | some found => simp [pure_eq_ok_iff]

/-- A text is read as a request just when it is an object that holds the request. -/
theorem read_eq_ok_iff :
    read s = .ok r ↔ ∃ members, Json.parse? s = some (.object members true) ∧ r.Holds members := by
  have hread : read s = .ok r ↔
      ofTree (Json.read s).tree = .ok r ∧ (Json.read s).alone = true := by
    simp only [read, bind_eq_ok_iff, ite_eq_ok_iff, pure_eq_ok_iff, throw_eq_ok_iff, and_false,
      or_false, exists_eq_right_right]
  rw [hread]
  constructor
  · rintro ⟨htree, halone⟩
    cases hshape : (Json.read s).tree with
    | object members closed =>
      rw [hshape] at htree
      obtain ⟨rfl, p, hp, hfinish⟩ := ofTree_object_eq_ok_iff.1 htree
      have hwhole : (Json.object members true).whole = true := by
        rw [Json.whole, Bool.true_and, Json.wholeMembers_iff]
        exact hp.whole
      exact ⟨members, Json.parse?_eq_some_iff.2 ⟨hshape, hwhole, halone⟩,
        hp.finish?_eq_some_iff.1 hfinish⟩
    | null | bool _ | number _ | text _ | array _ _ | broken =>
      rw [hshape] at htree
      cases htree
  · rintro ⟨members, hparse, hholds⟩
    obtain ⟨hshape, hwhole, halone⟩ := Json.parse?_eq_some_iff.1 hparse
    rw [Json.whole, Bool.true_and, Json.wholeMembers_iff] at hwhole
    obtain ⟨p, hp⟩ := hholds.exists_takes hwhole
    rw [hshape]
    exact ⟨ofTree_object_eq_ok_iff.2 ⟨rfl, p, hp, hp.finish?_eq_some_iff.2 hholds⟩, halone⟩

/-! ## Objects that hold no request -/

/-- The faults that leave an object without a request, whatever else it holds. -/
inductive IsSpoilt (members : List (Option String × Json)) : Prop where
  /-- A field of every request is repeated, with any values. -/
  | repeated {name : String} (hname : name ∈ "type" :: ownNames)
      (h : 1 < (valuesOf name members).length)
  /-- A field of the type of target that is named is repeated, with any values. -/
  | repeatedField {kind : Target.Kind} {value : Json} {name : String}
      (hvalue : value ∈ valuesOf "type" members) (hkind : kind.IsNamedBy value)
      (hname : name ∈ kind.fieldNames) (h : 1 < (valuesOf name members).length)
  /-- A list of a whisper is null. -/
  | nullList {name : String} (hname : name ∈ ["whisper_to_user_ids", "whisper_to_group_ids"])
      (h : .null ∈ valuesOf name members)
  /-- A list of a whisper has an item that is no integer of 64 bits. -/
  | strayItem {name : String} {items : List Json} {closed : Bool} {item : Json}
      (hname : name ∈ ["whisper_to_user_ids", "whisper_to_group_ids"])
      (h : .array items closed ∈ valuesOf name members) (hitem : item ∈ items)
      (hstray : ∀ n : Int, -0x8000000000000000 ≤ n → n < 0x8000000000000000 → item ≠ .int n)

theorem Gives.length_le {kind : IdentKind} {values : List Json} {ids : List (Ident kind)}
    (h : Gives values ids) : values.length ≤ 1 := by
  rcases h with rfl | ⟨rfl, -⟩
  · exact Nat.le_refl 1
  · exact Nat.zero_le 1

/-- Under the name of a list stands nothing but a list of identifiers. -/
theorem Gives.eq_idsJson {kind : IdentKind} {values : List Json} {ids : List (Ident kind)}
    {value : Json} (h : Gives values ids) (hvalue : value ∈ values) : value = Wire.idsJson ids := by
  rcases h with rfl | ⟨rfl, -⟩
  · exact List.mem_singleton.1 hvalue
  · cases hvalue

theorem Holds.gives (h : r.Holds members) {name : String}
    (hname : name ∈ ["whisper_to_user_ids", "whisper_to_group_ids"]) :
    ∃ kind, ∃ ids : List (Ident kind), Gives (valuesOf name members) ids := by
  rcases List.mem_pair.1 hname with rfl | rfl
  · exact ⟨.user, r.whisperUsers, h.whisperUsers⟩
  · exact ⟨.group, r.whisperGroups, h.whisperGroups⟩

/-- No field of a request that is held is repeated. -/
theorem Holds.length_le (h : r.Holds members) {name : String} (hname : name ∈ r.fieldNames) :
    (valuesOf name members).length ≤ 1 := by
  rcases List.mem_append.1 hname with hown | hrest
  · simp only [ownNames, List.mem_cons, List.not_mem_nil, or_false] at hown
    rcases hown with rfl | rfl | rfl
    · exact Nat.le_of_eq (congrArg List.length h.content)
    · exact h.whisperUsers.length_le
    · exact h.whisperGroups.length_le
  rcases List.mem_cons.1 hrest with rfl | hfield
  · obtain ⟨value, hvalues, -⟩ := h.kind
    exact Nat.le_of_eq (congrArg List.length hvalues)
  · rw [← Target.map_fst_fields] at hfield
    obtain ⟨field, hmem, rfl⟩ := List.mem_map.1 hfield
    exact Nat.le_of_eq (congrArg List.length (h.fields field hmem))

/-- The type that is named is the one of the target. -/
theorem Holds.kind_eq (h : r.Holds members) {kind : Target.Kind} {value : Json}
    (hvalue : value ∈ valuesOf "type" members) (hkind : kind.IsNamedBy value) :
    kind = r.target.kind := by
  obtain ⟨named, hvalues, hnamed⟩ := h.kind
  rw [hvalues, List.mem_singleton] at hvalue
  subst hvalue
  have hread := kind?_eq_some_iff.2 hkind
  rw [kind?_eq_some_iff.2 hnamed] at hread
  exact (Option.some.inj hread).symm

theorem IsSpoilt.not_holds (h : IsSpoilt members) : ¬ r.Holds members := by
  intro hholds
  cases h with
  | repeated hname h =>
    refine Nat.not_le_of_lt h (hholds.length_le ?_)
    rcases List.mem_cons.1 hname with rfl | hown
    · exact List.mem_append_right _ (List.mem_cons_self ..)
    · exact List.mem_append_left _ hown
  | repeatedField hvalue hkind hname h =>
    rw [hholds.kind_eq hvalue hkind] at hname
    have hmem := List.mem_append_right ownNames (List.mem_cons_of_mem "type" hname)
    exact Nat.not_le_of_lt h (hholds.length_le hmem)
  | nullList hname h =>
    obtain ⟨kind, ids, hgives⟩ := hholds.gives hname
    cases hgives.eq_idsJson h
  | strayItem hname h hitem hstray =>
    obtain ⟨kind, ids, hgives⟩ := hholds.gives hname
    cases hgives.eq_idsJson h
    obtain ⟨a, -, rfl⟩ := List.mem_map.1 hitem
    exact hstray a.val a.le_val a.val_lt rfl

/-- A text is read as a request just when it is an object that holds the fields of that request, in
any order and among any others, so nobody is lost and nobody added; and what is written of such an
object is such a text.  Where a field is repeated, or a list of a whisper is null or has an item
that names nobody, the text is refused. -/
theorem read_exactly :
    (∀ s r, read s = .ok r ↔
      ∃ members, Json.parse? s = some (.object members true) ∧ r.Holds members) ∧
      (∀ r members, (Json.object members true).isExact = true → r.Holds members →
        read (Json.object members true).render = .ok r) ∧
      ∀ s members, Json.parse? s = some (.object members true) → IsSpoilt members →
        ∃ refusal, read s = .error refusal := by
  refine ⟨fun s r ↦ read_eq_ok_iff, fun r members hexact hholds ↦ ?_,
    fun s members hparse hspoilt ↦ ?_⟩
  · exact read_eq_ok_iff.2 ⟨members, Json.parse?_render hexact, hholds⟩
  · cases hread : read s with
    | error refusal => exact ⟨refusal, rfl⟩
    | ok r =>
      obtain ⟨found, hfound, hholds⟩ := read_eq_ok_iff.1 hread
      rw [hparse] at hfound
      cases hfound
      exact absurd hholds hspoilt.not_holds

/-- The fields of a direct message are shuffled, a recipient is named twice, and another member
stands in front.  With a second content at the end, nothing is read. -/
theorem read_exactly_shuffled :
    read (Json.record [("note", .list [.null, .record [("deep", .bool true)]]),
      ("recipient_ids", .list [.int 7, .int (-2), .int 7]), ("whisper_to_group_ids", .list []),
      ("content", .str "hi"), ("type", .str "direct")]).render =
        .ok ⟨.direct [⟨7, by decide, by decide⟩, ⟨-2, by decide, by decide⟩,
          ⟨7, by decide, by decide⟩], "hi", [], []⟩ ∧
      ∃ refusal, read (Json.record [("recipient_ids", .list [.int 7]), ("content", .str "hi"),
        ("type", .str "direct"), ("content", .str "hi")]).render = .error refusal := by
  refine ⟨read_exactly.2.1 _ _ rfl ?_, read_exactly.2.2 _ _ (Json.parse?_render rfl) ?_⟩
  · refine ⟨rfl, .inr ⟨rfl, rfl⟩, .inl rfl, ⟨_, rfl, .inl rfl⟩,
      List.forall_mem_singleton.2 rfl, ?_⟩
    refine List.forall_mem_cons.2 ⟨⟨"note", rfl, .inr ⟨by decide, by decide, by decide⟩⟩, ?_⟩
    simp [fieldNames, ownNames, Target.kind, Target.Kind.fieldNames]
  · exact .repeated (List.mem_cons_of_mem _ (List.mem_cons_self ..)) (by decide)

-- The type is given by its number and stands behind the fields that it is needed for.
example :
    (read
      "\x7b\"channel_id\": 4, \"topic\": \"t\", \"type\": 0, \"content\": \"hi\"\x7d").toOption =
      some ⟨.channel ⟨4, by decide, by decide⟩ "t", "hi", [], []⟩ := by decide +kernel

end SendRequest

end WhisperChat
