import WhisperChat.Proofs.Row
import WhisperChat.Proofs.Store
import WhisperChat.Proofs.Work
import WhisperChat.Visibility

/-!
# What a viewer gets

Asking the store message by message settles visibility by what the tables say at that moment
(`Database.grants`).  A viewer who asks for a message gets it just when its row decodes and the
tables grant it; where all rows decode, a message that is hidden and one that was never sent have
the same answer.
-/

namespace WhisperChat

namespace IdentSet

variable {kind : IdentKind} {s t : IdentSet kind}

theorem meets_eq_false_of_isEmpty (h : s.isEmpty = true) : s.meets t = false := by
  rw [isEmpty, List.isEmpty_iff] at h
  simp [meets, h]

/-- The identifiers that stand beside a value in the rows of a table. -/
theorem mem_ofList_snd {β : Type} [DecidableEq β] {rows : List (β × Ident kind)} {b : β}
    {id : Ident kind} :
    id ∈ ofList ((rows.filter fun row ↦ row.1 = b).map Prod.snd) ↔ (b, id) ∈ rows := by
  simp only [mem_ofList, List.mem_map, List.mem_filter, decide_eq_true_eq]
  constructor
  · rintro ⟨row, ⟨hrow, rfl⟩, rfl⟩
    exact hrow
  · intro hrow
    exact ⟨(b, id), ⟨hrow, rfl⟩, rfl⟩

end IdentSet

namespace Database

variable {db : Database} {viewer : UserId} {m : Message}

/-! ## Grants -/

/-- Whether the tables grant the viewer the message as they stand. -/
def grants (db : Database) (viewer : UserId) (m : Message) : Bool :=
  match m.whisper, m.channel with
  | none, some channel => db.isSubscribed channel viewer
  | none, none => db.hasVisibilityRow m.id viewer
  | some d, _ => db.hasVisibilityRow m.id viewer || d.groups.meets (db.groupsOf viewer)

theorem mem_groupsOf {group : GroupId} :
    group ∈ db.groupsOf viewer ↔ (group, viewer) ∈ db.members := by
  simp only [groupsOf, IdentSet.mem_ofList, List.mem_map, List.mem_filter, decide_eq_true_eq]
  constructor
  · rintro ⟨row, ⟨hrow, rfl⟩, rfl⟩
    exact hrow
  · intro hrow
    exact ⟨_, ⟨hrow, rfl⟩, rfl⟩

theorem mem_groupMembers {group : GroupId} {user : UserId} :
    user ∈ db.groupMembers group ↔ (group, user) ∈ db.members := IdentSet.mem_ofList_snd

theorem mem_subscribers {channel : ChannelId} {user : UserId} :
    user ∈ db.subscribers channel ↔ db.isSubscribed channel user = true := by
  rw [subscribers, IdentSet.mem_ofList_snd, isSubscribed, List.contains_iff_mem]

theorem grants_ordinary {channel : ChannelId} (hw : m.whisper = none)
    (hc : m.channel = some channel) :
    db.grants viewer m = db.isSubscribed channel viewer := by
  simp [grants, hw, hc]

theorem grants_direct (hw : m.whisper = none) (hc : m.channel = none) :
    db.grants viewer m = db.hasVisibilityRow m.id viewer := by
  simp [grants, hw, hc]

theorem grants_whisper {d : Descriptor} (hw : m.whisper = some d) :
    db.grants viewer m =
      (db.hasVisibilityRow m.id viewer || d.groups.meets (db.groupsOf viewer)) := by
  simp [grants, hw]

theorem grants_whisper_iff {d : Descriptor} (hw : m.whisper = some d) :
    db.grants viewer m = true ↔ db.hasVisibilityRow m.id viewer = true ∨
      ∃ group ∈ d.groups, (group, viewer) ∈ db.members := by
  simp [grants_whisper hw, IdentSet.meets_iff, mem_groupsOf]

end Database

/-! ## Asking message by message -/

open Work

theorem yields_isVisible_live (db : Database) (viewer : UserId) (m : Message) :
    (isVisible .live viewer m).Yields [] db (db.grants viewer m) db := by
  unfold isVisible Access.live
  rcases hw : m.whisper with _ | d
  · rcases hc : m.channel with _ | channel
    · simp [yields_ask_iff, Call.answer, Database.grants_direct hw hc]
    · simp [yields_ask_iff, Call.answer, Database.grants_ordinary hw hc]
  · rw [Database.grants_whisper hw]
    rcases hrow : db.hasVisibilityRow m.id viewer with _ | _
    · rcases hempty : d.groups.isEmpty with _ | _
      · simp [yields_ask_iff, Call.answer, hrow, hempty]
      · simp [yields_ask_iff, Call.answer, hrow, hempty, IdentSet.meets_eq_false_of_isEmpty hempty]
    · simp [yields_ask_iff, Call.answer, hrow]

theorem within_isVisible (viewer : UserId) (m : Message) :
    Within (·.isFor viewer = true) (·.isBreakdown = false) (isVisible .live viewer m) := by
  unfold isVisible Access.live
  rcases m.whisper with _ | d
  · rcases m.channel with _ | channel <;> exact within_ask (decide_eq_true rfl)
  · refine Within.bind (within_ask (decide_eq_true rfl)) ?_
    intro row
    split
    · exact within_pure _
    · split
      · exact within_pure _
      · refine Within.bind (within_ask (decide_eq_true rfl)) ?_
        exact fun _ ↦ within_pure _

/-- A viewer who asks for a message asks about nobody else. -/
theorem within_isFor_getMessage (viewer : UserId) (id : MessageId) :
    Within (·.isFor viewer = true) (·.isBreakdown = false) (getMessage viewer id) := by
  unfold getMessage
  refine Within.bind (within_ask rfl) ?_
  rintro (_ | m)
  · exact within_throw rfl
  · apply (within_isVisible viewer m).bind
    intro visible
    split
    · exact within_pure _
    · exact within_throw rfl

theorem within_getMessage (viewer : UserId) (id : MessageId) :
    Within (·.isQuestion = true) (·.isBreakdown = false) (getMessage viewer id) :=
  (within_isFor_getMessage viewer id).questions

def Database.get (db : Database) (viewer : UserId) (id : MessageId) : Except Failure Message :=
  ((getMessage viewer id).run [] db).answer

theorem Database.get_eq (db : Database) (viewer : UserId) (id : MessageId) :
    db.get viewer id =
      match db.messageById id with
      | .error cause => .error (.error (.store cause))
      | .ok none => .error (.error .notVisible)
      | .ok (some m) => if db.grants viewer m then .ok m else .error (.error .notVisible) := by
  unfold Database.get getMessage
  rcases hstored : db.messageById id with cause | _ | m
  · rw [answer_ask_bind (c := .messageById id)]
    simp [Call.answer, hstored]
  · have hask : (ask (.messageById id)).Yields [] db none db := by
      simp [yields_ask_iff, Call.answer, hstored]
    rw [answer_bind_of_yields hask]
    rfl
  · have hask : (ask (.messageById id)).Yields [] db (some m) db := by
      simp [yields_ask_iff, Call.answer, hstored]
    rw [answer_bind_of_yields hask]
    simp only
    rw [answer_bind_of_yields (yields_isVisible_live db viewer m)]
    split <;> rfl

namespace Database

variable {db : Database} {viewer : UserId} {id : MessageId} {m : Message}

/-! ## What is stored -/

/-- Every row of the table of messages can be read. -/
def Decodes (db : Database) : Prop := ∀ row ∈ db.messages.rows, ∃ m, row.decode = .ok m

/-- The messages of the rows that can be read, in ascending order. -/
def stored (db : Database) : List Message :=
  db.messages.rows.filterMap fun row ↦ row.decode.toOption

theorem mem_stored : m ∈ db.stored ↔ ∃ row ∈ db.messages.rows, row.decode = .ok m := by
  simp only [stored, List.mem_filterMap, toOption_eq_some_iff]

theorem pairwise_stored : db.stored.Pairwise fun a b ↦ a.id < b.id := by
  refine List.Pairwise.filterMap _ ?_ db.messages.ascending
  intro row row' hlt m hm m' hm'
  rw [toOption_eq_some_iff] at hm hm'
  rw [MessageRow.id_of_decode hm, MessageRow.id_of_decode hm']
  exact hlt

/-- The rows of messages decode to the messages, settled. -/
theorem stored_eq_map_settled {messages : List Message}
    (h : db.messages.rows = messages.map fun m ↦ .ofDraft m.id m.toDraft) :
    db.stored = messages.map Message.settled := by
  have hdecode : ((fun row : MessageRow ↦ row.decode.toOption) ∘
      fun m : Message ↦ MessageRow.ofDraft m.id m.toDraft) = some ∘ Message.settled := by
    funext m
    exact toOption_eq_some_iff.2 (MessageRow.decode_ofMessage m)
  rw [stored, h, List.filterMap_map, hdecode, List.filterMap_eq_map]

theorem stored_eq {messages : List Message}
    (h : db.messages.rows = messages.map fun m ↦ .ofDraft m.id m.toDraft)
    (hregular : ∀ m ∈ messages, m.sentAt.IsRegular) : db.stored = messages := by
  have hsettled : messages.map Message.settled = messages.map id :=
    List.map_congr_left fun m hm ↦ Message.settled_of_isRegular (hregular m hm)
  rw [stored_eq_map_settled h, hsettled, List.map_id]

theorem decodes_of_eq {messages : List Message}
    (h : db.messages.rows = messages.map fun m ↦ .ofDraft m.id m.toDraft) : db.Decodes := by
  intro row hrow
  rw [h] at hrow
  obtain ⟨m, -, rfl⟩ := List.mem_map.1 hrow
  exact ⟨m.settled, MessageRow.decode_ofMessage m⟩

theorem messageById_eq_some_iff :
    db.messageById id = .ok (some m) ↔ m ∈ db.stored ∧ m.id = id := by
  rw [mem_stored, messageById]
  constructor
  · intro h
    cases hfind : db.messages.find? id with
    | none => simp [hfind] at h
    | some row =>
      obtain ⟨hrow, hid⟩ := MessageTable.mem_of_find?_eq_some hfind
      cases hdecode : row.decode with
      | error cause => simp [hfind, hdecode] at h
      | ok m' =>
        simp only [hfind, hdecode, Except.ok.injEq, Option.some.injEq] at h
        subst h
        exact ⟨⟨row, hrow, hdecode⟩, (MessageRow.id_of_decode hdecode).trans hid⟩
  · rintro ⟨⟨row, hrow, hdecode⟩, rfl⟩
    rw [MessageRow.id_of_decode hdecode, MessageTable.find?_eq_some_of_mem hrow]
    simp only [hdecode]

/-- A viewer gets a message that is stored and granted, and no other. -/
theorem get_eq_ok_iff :
    db.get viewer id = .ok m ↔ m ∈ db.stored ∧ m.id = id ∧ db.grants viewer m = true := by
  rw [get_eq, ← and_assoc, ← messageById_eq_some_iff]
  rcases db.messageById id with cause | _ | m'
  · simp
  · simp
  · cases hgrants : db.grants viewer m' with
    | false =>
      simp only [hgrants, Bool.false_eq_true, if_false, reduceCtorEq, Except.ok.injEq,
        Option.some.injEq, false_iff, not_and]
      rintro rfl
      simp [hgrants]
    | true =>
      simp only [hgrants, if_true, Except.ok.injEq, Option.some.injEq, iff_self_and]
      rintro rfl
      exact hgrants

/-- Where all rows can be read, a message that is not gotten is not visible, whether it is there or
not. -/
theorem get_eq_notVisible_iff (hdecodes : db.Decodes) :
    db.get viewer id = .error (.error .notVisible) ↔ ∀ m, db.get viewer id ≠ .ok m := by
  constructor
  · intro h m
    rw [h]
    exact nofun
  · intro h
    rw [get_eq] at h ⊢
    unfold messageById at h ⊢
    cases hfind : db.messages.find? id with
    | none => rfl
    | some row =>
      obtain ⟨m, hm⟩ := hdecodes row (MessageTable.mem_of_find?_eq_some hfind).1
      simp only [hfind, hm] at h ⊢
      cases hgrants : db.grants viewer m with
      | false => rfl
      | true => simp [hgrants] at h

end Database

end WhisperChat
