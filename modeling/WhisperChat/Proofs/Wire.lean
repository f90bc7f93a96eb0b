import Mathlib.Data.List.Nodup
import WhisperChat.Proofs.Row
import WhisperChat.Wire.Event

/-!
# What is written on the wire reads back

Reading is laxer than writing: members of an object may come in any order and with others among
them, an array may stand for an object, a set may be given with repeats, an instant with blanks and
any offset.  Of every way to say a value, writing picks one, and that one says the value again, with
its instant settled (`Wire.Lawful`).  Nothing that has been read is left to settle, so writing it
fixes its text (`wire_round_trips`).
-/

namespace WhisperChat

namespace Wire

variable {α : Type} {settle : α → α} {write : α → Json} {read : Json → Option α} {kind : IdentKind}

/-- Whatever is written loses nothing on its way to the text, and reads back settled, as everything
that can be read is. -/
structure Lawful (settle : α → α) (write : α → Json) (read : Json → Option α) : Prop where
  isExact : ∀ a, (write a).isExact = true
  read_write : ∀ a, read (write a) = some (settle a)
  settle_of_read : ∀ value a, read value = some a → settle a = a

theorem lawful_id (kind : IdentKind) : Lawful id (fun a : Ident kind ↦ .int a.val) (id? kind) where
  isExact _ := rfl
  read_write := id?_int
  settle_of_read _ _ _ := rfl

theorem lawful_string : Lawful id .str string? where
  isExact _ := rfl
  read_write _ := rfl
  settle_of_read _ _ _ := rfl

theorem lawful_ids (kind : IdentKind) : Lawful id idsJson (ids? kind) where
  isExact := isExact_idsJson
  read_write := ids?_idsJson
  settle_of_read _ _ _ := rfl

/-- Null is told from what is written wherever it does not stand for a value itself. -/
theorem Lawful.nullable (h : Lawful id write read) (hnull : read .null = none) :
    Lawful id (Wire.nullable write) (orNull? read) where
  isExact
    | none => rfl
    | some a => h.isExact a
  read_write
    | none => rfl
    | some a => by
      have hread := h.read_write a
      change orNull? read (write a) = some (some a)
      unfold orNull?
      split
      case h_1 heq =>
        rw [heq, hnull] at hread
        cases hread
      case h_2 =>
        rw [hread]
        rfl
  settle_of_read _ _ _ := rfl

section Fields

variable {fields : List (String × Json)} {name : String} {a : α}

theorem Lawful.required? (h : Lawful settle write read)
    (hfield : fields.lookup name = some (write a)) :
    Wire.required? fields name read = some (settle a) := by
  rw [Wire.required?, hfield, Option.bind_some, h.read_write]

theorem Lawful.defaulted? (h : Lawful settle write read)
    (hfield : fields.lookup name = some (write a)) (missing : α) :
    Wire.defaulted? fields name missing read = some (settle a) := by
  simp only [Wire.defaulted?, hfield, h.read_write]

end Fields

/-- The members of a record are its fields, when no name is repeated. -/
theorem fields?_record (known : List String) (members : List (String × Json))
    (h : (members.map Prod.fst).Nodup) :
    fields? known (members.map fun member ↦ (some member.1, member.2)) = some members := by
  have hmembers : (members.map fun member ↦ (some member.1, member.2)).mapM
      (fun field : Option String × Json ↦ field.1.map fun name ↦ (name, field.2)) =
        some members := by
    induction members with
    | nil => rfl
    | cons member members ih =>
      rw [List.map_cons, List.nodup_cons] at h
      simp [ih h.2]
  have hknown : (known.all fun name ↦ (members.filter fun field ↦ field.1 = name).length ≤ 1) =
      true := by
    rw [List.all_eq_true]
    intro name _
    rw [decide_eq_true_eq, ← List.countP_eq_length_filter]
    have hcount := List.nodup_iff_count_le_one.1 h name
    rw [List.count, List.countP_map] at hcount
    exact hcount
  calc
    fields? known (members.map fun member ↦ (some member.1, member.2)) =
        ((members.map fun member ↦ (some member.1, member.2)).mapM
          fun field : Option String × Json ↦ field.1.map fun name ↦ (name, field.2)).bind
          fun fields ↦ do
            guard (known.all fun name ↦ (fields.filter fun field ↦ field.1 = name).length ≤ 1)
            return fields := rfl
    _ = some members := by
      rw [hmembers, Option.bind_some, hknown]
      rfl

end Wire

/-! ## Instants -/

theorem Instant.lawful : Wire.Lawful settled (fun t : Instant ↦ .str t.text) Instant.ofJson? where
  isExact _ := rfl
  read_write t := by rw [ofJson?, Wire.string?, Option.bind_some, parse?_text]
  settle_of_read value t h := by
    obtain ⟨s, -, hs⟩ := Option.bind_eq_some_iff.1 h
    exact settled_of_isRegular (isRegular_of_parse? hs)

theorem Descriptor.lawful : Wire.Lawful id Descriptor.toJson Descriptor.ofJson? :=
  ⟨isExact_toJson, ofJson?_toJson, fun _ _ _ ↦ rfl⟩

/-! ## Messages -/

namespace Message

def fields (m : Message) : List (String × Json) :=
  [("id", .int m.id.val),
    ("sender_id", .int m.sender.val),
    ("channel_id", Wire.nullable (fun c ↦ .int c.val) m.channel),
    ("topic", Wire.nullable .str m.topic),
    ("content", .str m.content),
    ("sent_at", .str m.sentAt.text),
    ("whisper_recipients", Wire.nullable Descriptor.toJson m.whisper)]

theorem toJson_eq (m : Message) :
    m.toJson = .object (m.fields.map fun (name, value) ↦ (some name, value)) true := rfl

theorem lawful_channel :
    Wire.Lawful (fun channel ↦ channel) (Wire.nullable fun c : ChannelId ↦ .int c.val)
      (Wire.orNull? (Wire.id? .channel)) :=
  (Wire.lawful_id .channel).nullable rfl

theorem lawful_topic :
    Wire.Lawful (fun topic ↦ topic) (Wire.nullable .str) (Wire.orNull? Wire.string?) :=
  Wire.lawful_string.nullable rfl

theorem lawful_whisper :
    Wire.Lawful (fun whisper ↦ whisper) (Wire.nullable Descriptor.toJson)
      (Wire.orNull? Descriptor.ofJson?) :=
  Descriptor.lawful.nullable rfl

theorem settled_of_ofJson? {value : Json} {m : Message} (h : ofJson? value = some m) :
    m.settled = m := by
  suffices hread : ∃ value, Instant.ofJson? value = some m.sentAt by
    obtain ⟨value, hvalue⟩ := hread
    exact congrArg (fun t ↦ { m with sentAt := t }) (Instant.lawful.settle_of_read value _ hvalue)
  unfold ofJson? at h
  split at h
  case h_1 =>
    obtain ⟨fields, -, h⟩ := Option.bind_eq_some_iff.1 h
    obtain ⟨id, -, h⟩ := Option.bind_eq_some_iff.1 h
    obtain ⟨sender, -, h⟩ := Option.bind_eq_some_iff.1 h
    obtain ⟨channel, -, h⟩ := Option.bind_eq_some_iff.1 h
    obtain ⟨topic, -, h⟩ := Option.bind_eq_some_iff.1 h
    obtain ⟨content, -, h⟩ := Option.bind_eq_some_iff.1 h
    obtain ⟨sentAt, hsentAt, h⟩ := Option.bind_eq_some_iff.1 h
    obtain ⟨whisper, -, h⟩ := Option.bind_eq_some_iff.1 h
    cases h
    obtain ⟨value, -, hvalue⟩ := Option.bind_eq_some_iff.1 hsentAt
    exact ⟨value, hvalue⟩
  case h_2 =>
    obtain ⟨id, -, h⟩ := Option.bind_eq_some_iff.1 h
    obtain ⟨sender, -, h⟩ := Option.bind_eq_some_iff.1 h
    obtain ⟨channel, -, h⟩ := Option.bind_eq_some_iff.1 h
    obtain ⟨topic, -, h⟩ := Option.bind_eq_some_iff.1 h
    obtain ⟨content, -, h⟩ := Option.bind_eq_some_iff.1 h
    obtain ⟨sentAt, hsentAt, h⟩ := Option.bind_eq_some_iff.1 h
    obtain ⟨whisper, -, h⟩ := Option.bind_eq_some_iff.1 h
    cases h
    exact ⟨_, hsentAt⟩
  case h_3 => cases h

theorem lawful : Wire.Lawful settled toJson ofJson? where
  settle_of_read _ _ := settled_of_ofJson?
  isExact m := by
    simp [toJson_eq, fields, Json.isExact, Json.membersExact, lawful_channel.isExact,
      lawful_topic.isExact, lawful_whisper.isExact]
  read_write m := by
    have hfields : Wire.fields? fieldNames (m.fields.map fun (name, value) ↦ (some name, value)) =
        some m.fields := Wire.fields?_record fieldNames m.fields (show fieldNames.Nodup by decide)
    have hid : Wire.required? m.fields "id" (Wire.id? .message) = some m.id :=
      (Wire.lawful_id .message).required? rfl
    have hsender : Wire.required? m.fields "sender_id" (Wire.id? .user) = some m.sender :=
      (Wire.lawful_id .user).required? rfl
    have hchannel : Wire.defaulted? m.fields "channel_id" none (Wire.orNull? (Wire.id? .channel)) =
        some m.channel := lawful_channel.defaulted? rfl none
    have htopic : Wire.defaulted? m.fields "topic" none (Wire.orNull? Wire.string?) =
        some m.topic := lawful_topic.defaulted? rfl none
    have hcontent : Wire.required? m.fields "content" Wire.string? = some m.content :=
      Wire.lawful_string.required? rfl
    have hsentAt : Wire.required? m.fields "sent_at" Instant.ofJson? =
        some m.sentAt.settled :=
      Instant.lawful.required? rfl
    have hwhisper : Wire.defaulted? m.fields "whisper_recipients" none
        (Wire.orNull? Descriptor.ofJson?) = some m.whisper := lawful_whisper.defaulted? rfl none
    simp only [toJson_eq, ofJson?, hfields, hid, hsender, hchannel, htopic, hcontent, hsentAt,
      hwhisper, Option.bind_eq_bind, Option.bind_some]
    rfl

end Message

/-! ## Events -/

namespace Event

/-- The type comes first, so that nothing has to be kept. -/
theorem ofJson?_record (name : String) (data : Json) :
    ofJson? (.record [("type", .str name), ("data", data)]) = ofData? name data := by
  have hfields := Wire.fields?_record ["type", "data"] [("type", .str name), ("data", data)]
    (show ["type", "data"].Nodup by decide)
  have htype : Wire.required? [("type", .str name), ("data", data)] "type" Wire.string? =
      some name := Wire.lawful_string.required? rfl
  have hdata : List.lookup "data" [("type", .str name), ("data", data)] = some data := rfl
  have hfirst : ([("type", .str name), ("data", data)].find? fun field : String × Json ↦
      field.1 = "type" || field.1 = "data") = some ("type", .str name) := rfl
  simp only [Json.record, ofJson?, hfields, htype, hdata, hfirst, Option.bind_eq_bind,
    Option.bind_some]
  rfl

/-- Data of one field is read as that field. -/
theorem fields?_single (name : String) (value : Json) :
    Wire.fields? [name] ([(name, value)].map fun (name, value) ↦ (some name, value)) =
      some [(name, value)] := Wire.fields?_record [name] [(name, value)] (List.nodup_singleton name)

def settled : Event → Event
  | ready user => ready user
  | messageCreated m => messageCreated m.settled

theorem settled_of_ofData? {name : String} {data : Json} {e : Event}
    (h : ofData? name data = some e) : e.settled = e := by
  unfold ofData? at h
  split at h
  · split at h
    · obtain ⟨fields, -, h⟩ := Option.bind_eq_some_iff.1 h
      obtain ⟨user, -, h⟩ := Option.bind_eq_some_iff.1 h
      cases h
      rfl
    · split at h
      · obtain ⟨fields, -, h⟩ := Option.bind_eq_some_iff.1 h
        obtain ⟨m, hm, h⟩ := Option.bind_eq_some_iff.1 h
        cases h
        obtain ⟨value, -, hvalue⟩ := Option.bind_eq_some_iff.1 hm
        exact congrArg messageCreated (Message.settled_of_ofJson? hvalue)
      · cases h
  · cases h

theorem settled_of_ofJson? {value : Json} {e : Event} (h : ofJson? value = some e) :
    e.settled = e := by
  unfold ofJson? at h
  split at h
  · obtain ⟨fields, -, h⟩ := Option.bind_eq_some_iff.1 h
    obtain ⟨name, -, h⟩ := Option.bind_eq_some_iff.1 h
    obtain ⟨data, -, h⟩ := Option.bind_eq_some_iff.1 h
    obtain ⟨-, -, h⟩ := Option.bind_eq_some_iff.1 h
    exact settled_of_ofData? h
  · obtain ⟨name, -, h⟩ := Option.bind_eq_some_iff.1 h
    exact settled_of_ofData? h
  · cases h

theorem lawful : Wire.Lawful settled toJson ofJson? where
  settle_of_read _ _ := settled_of_ofJson?
  isExact
    | ready user => rfl
    | messageCreated m => by
      simp [toJson, Json.record, Json.isExact, Json.membersExact, Message.lawful.isExact]
  read_write
    | ready user => by
      have huser : Wire.required? [("user_id", .int user.val)] "user_id" (Wire.id? .user) =
          some user := (Wire.lawful_id .user).required? rfl
      rw [toJson, ofJson?_record]
      simp only [Json.record, ofData?, if_true, fields?_single, huser, Option.bind_eq_bind,
        Option.bind_some]
      rfl
    | messageCreated m => by
      have hmessage : Wire.required? [("message", m.toJson)] "message" Message.ofJson? =
          some m.settled :=
        Message.lawful.required? rfl
      rw [toJson, ofJson?_record]
      simp only [Json.record, ofData?, fields?_single, hmessage, Option.bind_eq_bind,
        Option.bind_some]
      rfl

end Event

/-! ## Targets -/

/-- An identifier is within the range of a double by far. -/
theorem Ident.isFinite {kind : IdentKind} (a : Ident kind) :
    Json.Number.isFinite (.integer a.val) = true := by
  have hsmall : a.val.natAbs < Nat.pow 10 19 := by
    have hlow := a.le_val
    have hhigh := a.val_lt
    change a.val.natAbs < 10000000000000000000
    omega
  have hwidth : (Decimal.digits a.val.natAbs).length ≤ 19 :=
    (Nat.length_toDigits_le_iff (by decide) (by decide)).2 hsmall
  simp only [Json.Number.isFinite, Json.Number.isBelowOverflow]
  split
  · rfl
  · rw [if_pos (by omega)]

namespace Target

theorem keepable_int {kind : IdentKind} (a : Ident kind) (depth : Nat) :
    (Json.int a.val).keepable depth = true := a.isFinite

theorem keepable_idsJson {kind : IdentKind} (ids : List (Ident kind)) (depth : Nat) :
    (Wire.idsJson ids).keepable (depth + 1) = true := by
  change (true && Json.keepableItems depth (ids.map fun a ↦ .int a.val)) = true
  rw [Bool.true_and]
  induction ids with
  | nil => rfl
  | cons a ids ih => rw [List.map_cons, Json.keepableItems, keepable_int, ih, Bool.and_self]

/-- A target is read from the fields of its type, which can all be kept until the type is known. -/
theorem ofJson?_record {kind : Kind} {name : String} (hname : Kind.ofName? name = some kind)
    (fields : List (String × Json)) (hnodup : (("type" :: fields.map Prod.fst)).Nodup)
    (hkept : ∀ field ∈ fields, field.2.keepable Wire.keptDepth = true) :
    ofJson? (.record (("type", .str name) :: fields)) =
      ofMembers? kind
        ((("type", .str name) :: fields).map fun (name, value) ↦ (some name, value)) := by
  have hfields := Wire.fields?_record ["type"] (("type", .str name) :: fields) hnodup
  have hkind : Wire.required? (("type", .str name) :: fields) "type"
      (fun value ↦ (Wire.string? value).bind Kind.ofName?) = some kind := by
    rw [Wire.required?, List.lookup_cons_self, Option.bind_some]
    exact hname
  have hall : ((("type", .str name) :: fields).all fun (name, value) ↦
      name = "type" || value.keepable Wire.keptDepth) = true := by
    rw [List.all_cons, List.all_eq_true.2 fun field hfield ↦ by simp [hkept field hfield]]
    rfl
  simp only [Json.record, ofJson?, hfields, hkind, Option.bind_eq_bind, Option.bind_some]
  rw [hall]
  rfl

theorem lawful : Wire.Lawful id toJson ofJson? where
  settle_of_read _ _ _ := rfl
  isExact
    | channel id topic => rfl
    | direct recipients => by
      simp [toJson, Json.record, Json.isExact, Json.membersExact, Wire.isExact_idsJson]
  read_write
    | channel id topic => by
      have hfields := Wire.fields?_record Kind.channel.fieldNames
        [("type", .str "channel"), ("channel_id", .int id.val), ("topic", .str topic)]
        (show ["type", "channel_id", "topic"].Nodup by decide)
      have hid : Wire.required? [("type", .str "channel"), ("channel_id", .int id.val),
          ("topic", .str topic)] "channel_id" (Wire.id? .channel) = some id :=
        (Wire.lawful_id .channel).required? rfl
      have htopic : Wire.required? [("type", .str "channel"), ("channel_id", .int id.val),
          ("topic", .str topic)] "topic" Wire.string? = some topic :=
        Wire.lawful_string.required? rfl
      have hkept : ∀ field ∈ [("channel_id", Json.int id.val), ("topic", .str topic)],
          field.2.keepable Wire.keptDepth = true :=
        List.forall_mem_cons.2 ⟨keepable_int id _, List.forall_mem_singleton.2 rfl⟩
      have hread := ofJson?_record (show Kind.ofName? "channel" = some .channel from rfl)
        [("channel_id", .int id.val), ("topic", .str topic)]
        (show ["type", "channel_id", "topic"].Nodup by decide) hkept
      rw [toJson, hread]
      simp only [ofMembers?, hfields, hid, htopic, Option.bind_eq_bind, Option.bind_some]
      rfl
    | direct recipients => by
      have hfields := Wire.fields?_record Kind.direct.fieldNames
        [("type", .str "direct"), ("recipient_ids", Wire.idsJson recipients)]
        (show ["type", "recipient_ids"].Nodup by decide)
      have hids : Wire.required? [("type", .str "direct"),
          ("recipient_ids", Wire.idsJson recipients)] "recipient_ids" (Wire.ids? .user) =
            some recipients := (Wire.lawful_ids .user).required? rfl
      have hkept : ∀ field ∈ [("recipient_ids", Wire.idsJson recipients)],
          field.2.keepable Wire.keptDepth = true :=
        List.forall_mem_singleton.2 (keepable_idsJson recipients 125)
      have hread := ofJson?_record (show Kind.ofName? "direct" = some .direct from rfl)
        [("recipient_ids", Wire.idsJson recipients)]
        (show ["type", "recipient_ids"].Nodup by decide) hkept
      rw [toJson, hread]
      simp only [ofMembers?, hfields, hids, Option.bind_eq_bind, Option.bind_some]
      rfl

end Target

/-! ## Texts -/

/-- The text that a value is written as says that value, settled, and whatever text a value was read
from, writing it anew says the same value in a text that stays. -/
structure Wire.RoundTrips {α : Type} (settle : α → α) (text : α → String)
    (parse? : String → Option α) : Prop where
  read_back : ∀ a, parse? (text a) = some (settle a)
  settles : ∀ s a, parse? s = some a →
    parse? (text a) = some a ∧ (parse? (text a)).map text = some (text a)

theorem Wire.Lawful.roundTrips {α : Type} {settle : α → α} {write : α → Json}
    {read : Json → Option α} (h : Wire.Lawful settle write read) :
    Wire.RoundTrips settle (fun a ↦ (write a).render) fun s ↦ (Json.parse? s).bind read := by
  have hback : ∀ a, (Json.parse? (write a).render).bind read = some (settle a) := by
    intro a
    rw [Json.parse?_render (h.isExact a), Option.bind_some, h.read_write]
  refine ⟨hback, ?_⟩
  intro s a hread
  obtain ⟨value, -, hvalue⟩ := Option.bind_eq_some_iff.1 hread
  rw [hback, h.settle_of_read value a hvalue]
  exact ⟨rfl, rfl⟩

theorem Wire.RoundTrips.parse?_text_eq_iff {α : Type} {settle : α → α} {text : α → String}
    {parse? : String → Option α} (h : Wire.RoundTrips settle text parse?) {a : α} :
    parse? (text a) = some a ↔ settle a = a := by
  rw [h.read_back, Option.some.injEq]

/-- Messages, events, descriptors and targets all read back from what they are written as, whatever
their identifiers, texts and sets are, and whatever has been read once is read again from what it is
written as.  An instant reads back unless it lies in a leap second that does not follow the last
second of a minute: then what is read lies in the second after. -/
theorem wire_round_trips :
    Wire.RoundTrips Message.settled (fun m ↦ m.toJson.render) Message.parse? ∧
      Wire.RoundTrips Event.settled Event.text Event.parse? ∧
      Wire.RoundTrips id Descriptor.text Descriptor.parse? ∧
      Wire.RoundTrips id (fun t : Target ↦ t.toJson.render) Target.parse? ∧
      (∀ m : Message, Message.parse? m.toJson.render = some m ↔ m.sentAt.IsRegular) ∧
      (∀ user, Event.parse? (Event.ready user).text = some (.ready user)) ∧
      ∀ m : Message, Event.parse? (Event.messageCreated m).text = some (.messageCreated m) ↔
        m.sentAt.IsRegular := by
  have hmessage := Message.lawful.roundTrips
  have hevent := Event.lawful.roundTrips
  refine ⟨hmessage, hevent, Descriptor.lawful.roundTrips, Target.lawful.roundTrips, ?_, ?_, ?_⟩
  · intro m
    exact hmessage.parse?_text_eq_iff.trans Message.settled_eq_self_iff
  · exact fun user ↦ hevent.read_back (.ready user)
  · intro m
    refine hevent.parse?_text_eq_iff.trans (Iff.trans ?_ Message.settled_eq_self_iff)
    exact ⟨Event.messageCreated.inj, congrArg Event.messageCreated⟩

/-- A message that was sent in a leap second after noon is not read back: its text is the text of a
message that was sent a second later. -/
theorem parse?_noonMessage :
    Message.parse? noonMessage.toJson.render ≠ some noonMessage ∧
      Message.parse? noonMessage.toJson.render = some noonMessage.settled ∧
      noonMessage.toJson.render = noonMessage.settled.toJson.render := by
  have hirregular : ¬ noonMessage.sentAt.IsRegular := by decide
  have hmessage := Message.lawful.roundTrips
  refine ⟨?_, hmessage.read_back noonMessage, by decide +kernel⟩
  intro h
  exact hirregular (Message.settled_eq_self_iff.1 (hmessage.parse?_text_eq_iff.1 h))

-- An array stands for the object, its second field is left out, and an identifier is repeated.
example : (Descriptor.parse? "[[3, 1, 3]]").map Descriptor.text =
    some "\x7b\"user_ids\":[1,3],\"group_ids\":[]\x7d" := by decide +kernel

end WhisperChat
