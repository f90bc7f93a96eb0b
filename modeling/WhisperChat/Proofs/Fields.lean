import WhisperChat.Proofs.Except
import WhisperChat.Proofs.Wire
import WhisperChat.Wire.Request

/-!
# Fields are read exactly

What a reader of fields accepts is what is written for a value, and nothing else.  The values that
stand under a name are listed with their repeats (`Wire.valuesOf`), so that a field that has to be
there is one that has a single value (`Wire.required?_eq_some_iff`), and a target is read from just
those members whose names are its fields (`Target.ofMembers?_eq_some_iff`).  A value that is kept
for later is bounded in its levels, its numbers and its strings (`Json.keepable_iff`).
-/

namespace WhisperChat

/-! ## Values that can be kept -/

namespace Json

mutual

def depth : Json → Nat
  | array items _ => itemsDepth items + 1
  | object members _ => membersDepth members + 1
  | null | bool _ | number _ | text _ | broken => 0

def itemsDepth : List Json → Nat
  | [] => 0
  | item :: items => max item.depth (itemsDepth items)

def membersDepth : List (Option String × Json) → Nat
  | [] => 0
  | (_, value) :: members => max value.depth (membersDepth members)

end

mutual

def numbers : Json → List Number
  | number value => [value]
  | array items _ => itemNumbers items
  | object members _ => memberNumbers members
  | null | bool _ | text _ | broken => []

def itemNumbers : List Json → List Number
  | [] => []
  | item :: items => item.numbers ++ itemNumbers items

def memberNumbers : List (Option String × Json) → List Number
  | [] => []
  | (_, value) :: members => value.numbers ++ memberNumbers members

end

mutual

def texts : Json → List (Option String)
  | text value => [value]
  | array items _ => itemTexts items
  | object members _ => memberTexts members
  | null | bool _ | number _ | broken => []

def itemTexts : List Json → List (Option String)
  | [] => []
  | item :: items => item.texts ++ itemTexts items

def memberTexts : List (Option String × Json) → List (Option String)
  | [] => []
  | (name, value) :: members => name :: value.texts ++ memberTexts members

end

/-- A value of at most so many levels, whose numbers are within the range of a double and whose
strings name texts, with no half of a surrogate pair alone. -/
@[mk_iff]
structure IsBounded (limit : Nat) (value : Json) : Prop where
  depth_le : value.depth ≤ limit
  isFinite : ∀ n ∈ value.numbers, n.isFinite = true
  isSome : ∀ t ∈ value.texts, t.isSome = true

mutual

theorem keepable_iff_parts : ∀ (limit : Nat) (v : Json), v.keepable limit = true ↔
    v.whole = true ∧ v.depth ≤ limit ∧ (∀ n ∈ v.numbers, n.isFinite = true) ∧
      ∀ t ∈ v.texts, t.isSome = true
  | _, null | _, bool _ | _, number _ | _, text _ | _, broken => by
    simp [keepable, whole, depth, numbers, texts]
  | 0, array _ _ | 0, object _ _ => by simp [keepable, depth]
  | limit + 1, array items closed => by
    simp only [keepable, whole, depth, numbers, texts, Bool.and_eq_true,
      keepableItems_iff limit items, Nat.add_le_add_iff_right, and_assoc]
  | limit + 1, object members closed => by
    simp only [keepable, whole, depth, numbers, texts, Bool.and_eq_true,
      keepableMembers_iff limit members, Nat.add_le_add_iff_right, and_assoc]

theorem keepableItems_iff : ∀ (limit : Nat) (items : List Json),
    keepableItems limit items = true ↔
      wholeItems items = true ∧ itemsDepth items ≤ limit ∧
        (∀ n ∈ itemNumbers items, n.isFinite = true) ∧ ∀ t ∈ itemTexts items, t.isSome = true
  | _, [] => by simp [keepableItems, wholeItems, itemsDepth, itemNumbers, itemTexts]
  | limit, item :: items => by
    simp only [keepableItems, wholeItems, itemsDepth, itemNumbers, itemTexts, Bool.and_eq_true,
      keepable_iff_parts limit item, keepableItems_iff limit items, max_le_iff,
      List.forall_mem_append]
    tauto

theorem keepableMembers_iff : ∀ (limit : Nat) (members : List (Option String × Json)),
    keepableMembers limit members = true ↔
      wholeMembers members = true ∧ membersDepth members ≤ limit ∧
        (∀ n ∈ memberNumbers members, n.isFinite = true) ∧
          ∀ t ∈ memberTexts members, t.isSome = true
  | _, [] => by simp [keepableMembers, wholeMembers, membersDepth, memberNumbers, memberTexts]
  | limit, (name, value) :: members => by
    simp only [keepableMembers, wholeMembers, membersDepth, memberNumbers, memberTexts,
      Bool.and_eq_true, keepable_iff_parts limit value, keepableMembers_iff limit members,
      max_le_iff, List.cons_append, List.forall_mem_cons, List.forall_mem_append]
    tauto

end

/-- What can be kept is JSON throughout and bounded. -/
theorem keepable_iff {limit : Nat} {v : Json} :
    v.keepable limit = true ↔ v.whole = true ∧ v.IsBounded limit := by
  rw [keepable_iff_parts, isBounded_iff]

theorem wholeMembers_iff {members : List (Option String × Json)} :
    wholeMembers members = true ↔ ∀ member ∈ members, member.2.whole = true := by
  induction members with
  | nil => simp [wholeMembers]
  | cons member members ih =>
    rw [wholeMembers, Bool.and_eq_true, ih, List.forall_mem_cons]

theorem parse?_eq_some_iff {s : String} {v : Json} :
    parse? s = some v ↔ (read s).tree = v ∧ v.whole = true ∧ (read s).alone = true := by
  simp only [parse?]
  split
  case isTrue h =>
    rw [Bool.and_eq_true] at h
    rw [Option.some.injEq]
    constructor
    · rintro rfl
      exact ⟨rfl, h⟩
    · exact fun h ↦ h.1
  case isFalse h =>
    rw [Bool.and_eq_true] at h
    constructor
    · intro h'
      cases h'
    · rintro ⟨rfl, h'⟩
      exact absurd h' h

end Json

/-! ## Values of fields -/

namespace Wire

variable {α : Type} {kind : IdentKind} {name : String} {members : List (Option String × Json)}

/-- The values that stand under a name, in their order. -/
def valuesOf (name : String) (members : List (Option String × Json)) : List Json :=
  (members.filter fun member ↦ member.1 = some name).map Prod.snd

theorem mem_valuesOf {value : Json} :
    value ∈ valuesOf name members ↔ (some name, value) ∈ members := by
  simp [valuesOf]

@[simp]
theorem valuesOf_nil (name : String) : valuesOf name [] = [] := rfl

theorem valuesOf_cons (name : String) (member : Option String × Json)
    (members : List (Option String × Json)) :
    valuesOf name (member :: members) =
      if member.1 = some name then member.2 :: valuesOf name members
      else valuesOf name members := by
  unfold valuesOf
  rw [List.filter_cons]
  split <;> simp_all

/-- Leaving out members of other names leaves the values of a name. -/
theorem valuesOf_filter {p : Option String × Json → Bool}
    (h : ∀ value, p (some name, value) = true) :
    valuesOf name (members.filter p) = valuesOf name members := by
  unfold valuesOf
  rw [List.filter_filter]
  congr 1
  refine List.filter_congr ?_
  rintro ⟨_, value⟩ _
  simp only [Bool.and_eq_left_iff_imp, decide_eq_true_eq]
  rintro rfl
  exact h value

theorem id?_eq_some_iff {value : Json} {a : Ident kind} :
    id? kind value = some a ↔ value = .int a.val := by
  constructor
  · intro h
    unfold id? at h
    split at h
    · rw [Ident.ofInt?_eq_some_iff.1 h]
    · cases h
  · rintro rfl
    exact id?_int a

theorem string?_eq_some_iff {value : Json} {s : String} :
    string? value = some s ↔ value = .str s := by
  constructor
  · intro h
    unfold string? at h
    split at h
    · rw [h]
    · cases h
  · rintro rfl
    rfl

theorem idsJson_injective : Function.Injective (idsJson : List (Ident kind) → Json) := by
  intro ids ids' h
  have hread := ids?_idsJson ids
  rw [h, ids?_idsJson] at hread
  exact (Option.some.inj hread).symm

/-- Values that are read one by one are the ones that were written. -/
theorem mapM_eq_some_iff_eq_map {α β : Type} {read : α → Option β} {write : β → α}
    (h : ∀ a b, read a = some b ↔ a = write b) {as : List α} {bs : List β} :
    as.mapM read = some bs ↔ as = bs.map write := by
  induction as generalizing bs with
  | nil => cases bs <;> simp
  | cons a as ih =>
    simp only [List.mapM_cons, Option.bind_eq_bind, Option.bind_eq_some_iff, h, ih,
      Option.pure_def, Option.some.injEq]
    constructor
    · rintro ⟨b, rfl, bs, rfl, rfl⟩
      rfl
    · intro h
      cases bs with
      | nil => cases h
      | cons b bs =>
        rw [List.map_cons, List.cons.injEq] at h
        exact ⟨b, h.1, bs, h.2, rfl⟩

theorem mapM_id?_eq_some_iff {items : List Json} {ids : List (Ident kind)} :
    items.mapM (id? kind) = some ids ↔ items = ids.map fun a ↦ .int a.val :=
  mapM_eq_some_iff_eq_map fun _ _ ↦ id?_eq_some_iff

/-- The length of a list may be any; that it is closed is not looked at here. -/
theorem ids?_eq_some_iff {value : Json} {ids : List (Ident kind)} (h : value.whole = true) :
    ids? kind value = some ids ↔ value = idsJson ids := by
  constructor
  · intro hread
    unfold ids? at hread
    split at hread
    · rename_i items closed
      rw [Json.whole, Bool.and_eq_true] at h
      rw [mapM_id?_eq_some_iff.1 hread, h.1]
      rfl
    · cases hread
  · rintro rfl
    exact ids?_idsJson ids

/-- Reading a list of identifiers where it stands differs in what is said of a failure only. -/
theorem toOption_mapM_readId (items : List Json) :
    (items.mapM (readId kind)).toOption = items.mapM (id? kind) := by
  induction items with
  | nil => rfl
  | cons item items ih =>
    rw [List.mapM_cons, List.mapM_cons, ← ih, readId]
    cases id? kind item <;> cases items.mapM (readId kind) <;> rfl

theorem readString_eq_ok_iff {value : Json} {s : String} :
    readString value = .ok s ↔ value = .str s := by
  rw [← string?_eq_some_iff, readString]
  cases string? value <;> simp

theorem mapM_readId_eq_ok_iff {items : List Json} {ids : List (Ident kind)} :
    items.mapM (readId kind) = .ok ids ↔ items = ids.map fun a ↦ .int a.val := by
  rw [← mapM_id?_eq_some_iff, ← toOption_mapM_readId, toOption_eq_some_iff]

theorem readIds_eq_ok_iff {value : Json} {ids : List (Ident kind)} :
    readIds kind value = .ok ids ↔ value = idsJson ids := by
  constructor
  · intro h
    unfold readIds at h
    split at h
    · rename_i items closed
      obtain ⟨found, hread, h⟩ := bind_eq_ok_iff.1 h
      rw [ite_eq_ok_iff, pure_eq_ok_iff, throw_eq_ok_iff, and_false, or_false] at h
      obtain ⟨rfl, rfl⟩ := h
      rw [mapM_readId_eq_ok_iff.1 hread]
      rfl
    · cases h
  · rintro rfl
    have hread : (ids.map fun a ↦ Json.int a.val).mapM (readId kind) = .ok ids :=
      mapM_readId_eq_ok_iff.2 rfl
    rw [idsJson, readIds, hread]
    rfl

/-- The members of an object are its fields just when all their names are text and the known ones
are not repeated. -/
theorem fields?_eq_some_iff {known : List String} {fields : List (String × Json)} :
    fields? known members = some fields ↔
      members = fields.map (fun field ↦ (some field.1, field.2)) ∧
        ∀ name ∈ known, (valuesOf name members).length ≤ 1 := by
  have hread : ∀ (member : Option String × Json) (field : String × Json),
      (member.1.map fun name ↦ (name, member.2)) = some field ↔
        member = (some field.1, field.2) := by
    rintro ⟨name, value⟩ ⟨name', value'⟩
    cases name <;> simp
  have hlength : ∀ name, (fields.filter fun field ↦ field.1 = name).length =
      (valuesOf name (fields.map fun field ↦ (some field.1, field.2))).length := by
    intro name
    simp [valuesOf, List.filter_map, Function.comp_def]
  have hbind : fields? known members = (members.mapM fun member : Option String × Json ↦
      member.1.map fun name ↦ (name, member.2)).bind fun fields ↦ do
        guard (known.all fun name ↦ (fields.filter fun field ↦ field.1 = name).length ≤ 1)
        return fields := rfl
  rw [hbind, Option.bind_eq_some_iff]
  simp only [mapM_eq_some_iff_eq_map hread, Option.bind_eq_bind, Option.bind_eq_some_iff,
    Option.guard_eq_some', List.all_eq_true, decide_eq_true_eq, Option.pure_def,
    Option.some.injEq]
  constructor
  · rintro ⟨found, rfl, _, hknown, rfl⟩
    exact ⟨rfl, fun name hname ↦ hlength name ▸ hknown name hname⟩
  · rintro ⟨rfl, hknown⟩
    exact ⟨fields, rfl, (), fun name hname ↦ (hlength name).symm ▸ hknown name hname, rfl⟩

theorem exists_fields_iff {known : List String} :
    (∃ fields, fields? known members = some fields) ↔
      (∀ member ∈ members, member.1.isSome = true) ∧
        ∀ name ∈ known, (valuesOf name members).length ≤ 1 := by
  simp only [fields?_eq_some_iff, exists_and_right]
  refine and_congr_left fun _ ↦ ⟨?_, fun h ↦ ?_⟩
  · rintro ⟨fields, rfl⟩ _ hmember
    obtain ⟨field, -, rfl⟩ := List.mem_map.1 hmember
    rfl
  · refine ⟨members.map fun member ↦ (member.1.getD "", member.2), ?_⟩
    rw [List.map_map]
    calc
      members = members.map id := (List.map_id members).symm
      _ = members.map _ := by
        refine List.map_congr_left ?_
        rintro ⟨name, value⟩ hmember
        obtain ⟨name, rfl⟩ := Option.isSome_iff_exists.1 (h _ hmember)
        rfl

theorem lookup_eq_head? (name : String) (fields : List (String × Json)) :
    fields.lookup name =
      (valuesOf name (fields.map fun field ↦ (some field.1, field.2))).head? := by
  induction fields with
  | nil => rfl
  | cons field fields ih =>
    rw [List.map_cons]
    rw [List.lookup_cons, valuesOf_cons, ih]
    by_cases h : name = field.1
    · simp [h]
    · simp [beq_eq_false_iff_ne.2 h, Ne.symm h]

/-- A field that has to be there stands under its name alone. -/
theorem required?_eq_some_iff {known : List String} {fields : List (String × Json)}
    {read : Json → Option α} {a : α} (hfields : fields? known members = some fields)
    (hname : name ∈ known) :
    required? fields name read = some a ↔
      ∃ value, valuesOf name members = [value] ∧ read value = some a := by
  obtain ⟨rfl, hknown⟩ := fields?_eq_some_iff.1 hfields
  have hlength := hknown name hname
  rw [required?, lookup_eq_head?, Option.bind_eq_some_iff]
  cases hvalues : valuesOf name (fields.map fun field ↦ (some field.1, field.2)) with
  | nil => simp
  | cons value rest =>
    rw [hvalues, List.length_cons] at hlength
    obtain rfl : rest = [] := List.length_eq_zero_iff.1 (by omega)
    simp

end Wire

/-! ## Targets -/

namespace Target

def Kind.name : Kind → String
  | .channel => "channel"
  | .direct => "direct"

/-- The number of a type of targets, which may stand for its name in a request. -/
def Kind.number : Kind → Int
  | .channel => 0
  | .direct => 1

theorem Kind.ofName?_eq_some_iff {name : String} {kind : Kind} :
    Kind.ofName? name = some kind ↔ name = kind.name := by
  constructor
  · intro h
    unfold ofName? at h
    split at h
    case isTrue hname =>
      cases h
      exact hname
    split at h
    case isTrue hname =>
      cases h
      exact hname
    · cases h
  · rintro rfl
    cases kind <;> rfl

/-- The values that a request names a type of targets by. -/
def Kind.IsNamedBy (kind : Kind) (value : Json) : Prop :=
  value = .str kind.name ∨ value = .int kind.number

def kind : Target → Kind
  | channel _ _ => .channel
  | direct _ => .direct

def fields : Target → List (String × Json)
  | channel id topic => [("channel_id", .int id.val), ("topic", .str topic)]
  | direct recipients => [("recipient_ids", Wire.idsJson recipients)]

theorem map_fst_fields (t : Target) : t.fields.map Prod.fst = t.kind.fieldNames := by
  cases t <;> rfl

theorem keepable_of_mem_fields {t : Target} {field : String × Json} (h : field ∈ t.fields) :
    field.2.keepable Wire.keptDepth = true := by
  cases t with
  | channel id topic =>
    rcases List.mem_pair.1 h with rfl | rfl
    · exact keepable_int id _
    · rfl
  | direct recipients =>
    rw [List.mem_singleton.1 h]
    exact keepable_idsJson recipients 125

theorem Kind.IsNamedBy.keepable {kind : Kind} {value : Json} (h : kind.IsNamedBy value) :
    value.keepable Wire.keptDepth = true := by
  rcases h with rfl | rfl
  · rfl
  · cases kind <;> decide +kernel

/-- A target is read from its fields, each there once, whatever stands under other names. -/
theorem ofMembers?_eq_some_iff {kind : Kind} {t : Target} {members : List (Option String × Json)}
    (hwhole : ∀ member ∈ members, member.2.whole = true) :
    ofMembers? kind members = some t ↔
      t.kind = kind ∧ (∀ member ∈ members, member.1.isSome = true) ∧
        ∀ field ∈ t.fields, Wire.valuesOf field.1 members = [field.2] := by
  constructor
  · intro h
    obtain ⟨fields, hfields, h⟩ := Option.bind_eq_some_iff.1 h
    have hsome := (Wire.exists_fields_iff.1 ⟨fields, hfields⟩).1
    cases kind with
    | channel =>
      obtain ⟨id, hid, h⟩ := Option.bind_eq_some_iff.1 h
      obtain ⟨topic, htopic, h⟩ := Option.bind_eq_some_iff.1 h
      obtain rfl := Option.some.inj h
      obtain ⟨value, hidValue, hread⟩ :=
        (Wire.required?_eq_some_iff hfields (by decide)).1 hid
      obtain rfl := Wire.id?_eq_some_iff.1 hread
      obtain ⟨value, htopicValue, hread⟩ :=
        (Wire.required?_eq_some_iff hfields (by decide)).1 htopic
      obtain rfl := Wire.string?_eq_some_iff.1 hread
      exact ⟨rfl, hsome, List.forall_mem_cons.2
        ⟨hidValue, List.forall_mem_singleton.2 htopicValue⟩⟩
    | direct =>
      obtain ⟨recipients, hids, h⟩ := Option.bind_eq_some_iff.1 h
      obtain rfl := Option.some.inj h
      obtain ⟨value, hvalue, hread⟩ := (Wire.required?_eq_some_iff hfields (by decide)).1 hids
      have hmember : (some "recipient_ids", value) ∈ members :=
        Wire.mem_valuesOf.1 (hvalue ▸ List.mem_singleton_self value)
      obtain rfl := (Wire.ids?_eq_some_iff (hwhole _ hmember)).1 hread
      exact ⟨rfl, hsome, List.forall_mem_singleton.2 hvalue⟩
  · rintro ⟨rfl, hsome, hvalues⟩
    have honce : ∀ name ∈ t.kind.fieldNames, (Wire.valuesOf name members).length ≤ 1 := by
      intro name hname
      rw [← map_fst_fields] at hname
      obtain ⟨field, hfield, rfl⟩ := List.mem_map.1 hname
      rw [hvalues field hfield, List.length_singleton]
    obtain ⟨fields, hfields⟩ := Wire.exists_fields_iff.2 ⟨hsome, honce⟩
    refine Option.bind_eq_some_iff.2 ⟨fields, hfields, ?_⟩
    cases t with
    | channel id topic =>
      have hidValue := hvalues _ (List.mem_cons_self ..)
      have htopicValue := hvalues _ (List.mem_cons_of_mem _ (List.mem_singleton_self _))
      have hid : Wire.required? fields "channel_id" (Wire.id? .channel) = some id :=
        (Wire.required?_eq_some_iff hfields (List.mem_cons_self ..)).2
          ⟨_, hidValue, Wire.id?_int id⟩
      have htopic : Wire.required? fields "topic" Wire.string? = some topic :=
        (Wire.required?_eq_some_iff hfields (List.mem_cons_of_mem _ (List.mem_singleton_self _))).2
          ⟨_, htopicValue, rfl⟩
      simp only [kind, hid, htopic, Option.bind_eq_bind, Option.bind_some]
      rfl
    | direct recipients =>
      have hids : Wire.required? fields "recipient_ids" (Wire.ids? .user) = some recipients :=
        (Wire.required?_eq_some_iff hfields (List.mem_singleton_self _)).2
          ⟨_, hvalues _ (List.mem_singleton_self _), Wire.ids?_idsJson recipients⟩
      simp only [kind, hids, Option.bind_eq_bind, Option.bind_some]
      rfl

end Target

end WhisperChat
