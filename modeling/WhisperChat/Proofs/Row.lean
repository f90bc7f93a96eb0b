import WhisperChat.Proofs.Instant
import WhisperChat.Proofs.Json
import WhisperChat.Store.Row

/-!
# Rows decode to what was written

A descriptor and an instant are kept as text.  Both read back, so the row of a message decodes to
that message with nothing lost and nothing changed, if only the instant is one that a text can say;
else to the message with its instant settled (`MessageRow.decode_ofMessage`).
-/

namespace WhisperChat

/-! ## Lists of identifiers -/

namespace Wire

variable {kind : IdentKind}

theorem areExact_map_int (ids : List (Ident kind)) :
    Json.areExact (ids.map fun a ↦ .int a.val) = true := by
  induction ids with
  | nil => rfl
  | cons a ids ih => simpa [Json.areExact, Json.isExact] using ih

theorem isExact_idsJson (ids : List (Ident kind)) : (idsJson ids).isExact = true := by
  simpa [idsJson, Json.isExact] using areExact_map_int ids

@[simp]
theorem id?_int (a : Ident kind) : id? kind (.int a.val) = some a := Ident.ofInt?_val a

@[simp]
theorem ids?_idsJson (ids : List (Ident kind)) : ids? kind (idsJson ids) = some ids := by
  change (ids.map fun a ↦ Json.int a.val).mapM (id? kind) = some ids
  induction ids with
  | nil => rfl
  | cons a ids ih => simp [ih]

@[simp]
theorem idSet?_idsJson (s : IdentSet kind) : idSet? kind (idsJson s.toList) = some s := by
  simp [idSet?]

end Wire

/-! ## Descriptors -/

namespace Descriptor

theorem isExact_toJson (d : Descriptor) : d.toJson.isExact = true := by
  simp [toJson, Json.record, Json.isExact, Json.membersExact, Wire.isExact_idsJson]

theorem fields?_toJson (d : Descriptor) :
    Wire.fields? ["user_ids", "group_ids"]
        [(some "user_ids", Wire.idsJson d.users.toList),
          (some "group_ids", Wire.idsJson d.groups.toList)] =
      some [("user_ids", Wire.idsJson d.users.toList),
        ("group_ids", Wire.idsJson d.groups.toList)] := by
  simp [Wire.fields?]

theorem ofJson?_toJson (d : Descriptor) : ofJson? d.toJson = some d := by
  have husers : Wire.defaulted? [("user_ids", Wire.idsJson d.users.toList),
      ("group_ids", Wire.idsJson d.groups.toList)] "user_ids" .empty (Wire.idSet? .user) =
        some d.users := Wire.idSet?_idsJson d.users
  have hgroups : Wire.defaulted? [("user_ids", Wire.idsJson d.users.toList),
      ("group_ids", Wire.idsJson d.groups.toList)] "group_ids" .empty (Wire.idSet? .group) =
        some d.groups := Wire.idSet?_idsJson d.groups
  simp only [toJson, Json.record, List.map_cons, List.map_nil, ofJson?, fields?_toJson, husers,
    hgroups, Option.bind_eq_bind, Option.bind_some]
  rfl

/-- The text of a descriptor stands for that descriptor. -/
theorem parse?_text (d : Descriptor) : parse? d.text = some d := by
  rw [parse?, text, Json.parse?_render d.isExact_toJson, Option.bind_some, ofJson?_toJson]

end Descriptor

/-- The message that is read where the given one was written. -/
def Message.settled (m : Message) : Message := { m with sentAt := m.sentAt.settled }

theorem Message.settled_of_isRegular {m : Message} (h : m.sentAt.IsRegular) : m.settled = m := by
  rw [settled, Instant.settled_of_isRegular h]

theorem Message.settled_eq_self_iff {m : Message} : m.settled = m ↔ m.sentAt.IsRegular := by
  constructor
  · intro h
    exact Instant.settled_eq_self_iff.1 (congrArg (fun m : Message ↦ m.sentAt) h)
  · exact settled_of_isRegular

/-- A message that was sent half a second into a leap second after noon. -/
def noonMessage : Message where
  id := ⟨1, by decide, by decide⟩
  sender := ⟨1, by decide, by decide⟩
  channel := some ⟨1, by decide, by decide⟩
  topic := some "news"
  content := "noon"
  sentAt := .leapAtNoon
  whisper := none

namespace MessageRow

theorem descriptor_ofDraft (id : MessageId) (d : Draft) :
    (ofDraft id d).descriptor = .ok d.whisper := by
  cases hwhisper : d.whisper with
  | none => simp [descriptor, ofDraft, hwhisper]
  | some whisper => simp [descriptor, ofDraft, hwhisper, Descriptor.parse?_text]

/-- The row of a draft decodes to the draft's message, its instant settled. -/
theorem decode_ofDraft (id : MessageId) (d : Draft) :
    (ofDraft id d).decode = .ok { d with id, sentAt := d.sentAt.settled } := by
  have hinstant : Instant.parse? (ofDraft id d).sentAt = some d.sentAt.settled :=
    Instant.parse?_storedText d.sentAt
  simp only [decode, descriptor_ofDraft, hinstant]
  rfl

/-- The row of a message decodes to the message, settled. -/
theorem decode_ofMessage (m : Message) : (ofDraft m.id m.toDraft).decode = .ok m.settled :=
  decode_ofDraft m.id m.toDraft

/-- A row decodes just when its two texts can be read; all else is kept as it stands. -/
theorem decode_eq_ok_iff {row : MessageRow} {m : Message} :
    row.decode = .ok m ↔ ∃ whisper sentAt, row.descriptor = .ok whisper ∧
      Instant.parse? row.sentAt = some sentAt ∧ m = { row with sentAt, whisper } := by
  unfold decode
  cases row.descriptor with
  | error cause =>
    constructor
    · intro h
      cases h
    · rintro ⟨_, _, h, -⟩
      cases h
  | ok whisper =>
    cases Instant.parse? row.sentAt with
    | none =>
      constructor
      · intro h
        cases h
      · rintro ⟨_, _, -, h, -⟩
        cases h
    | some sentAt =>
      constructor
      · intro h
        cases h
        exact ⟨whisper, sentAt, rfl, rfl, rfl⟩
      · rintro ⟨_, _, ⟨⟩, ⟨⟩, rfl⟩
        rfl

/-- What a row decodes to was sent at an instant that a text can say. -/
theorem isRegular_of_decode {row : MessageRow} {m : Message} (h : row.decode = .ok m) :
    m.sentAt.IsRegular := by
  obtain ⟨_, _, -, hinstant, rfl⟩ := decode_eq_ok_iff.1 h
  exact Instant.isRegular_of_parse? hinstant

theorem id_of_decode {row : MessageRow} {m : Message} (h : row.decode = .ok m) : m.id = row.id := by
  obtain ⟨_, _, -, -, rfl⟩ := decode_eq_ok_iff.1 h
  rfl

theorem channel_of_decode {row : MessageRow} {m : Message} (h : row.decode = .ok m) :
    m.channel = row.channel := by
  obtain ⟨_, _, -, -, rfl⟩ := decode_eq_ok_iff.1 h
  rfl

end MessageRow

end WhisperChat
