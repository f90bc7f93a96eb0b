import WhisperChat.Proofs.Commit
import WhisperChat.Proofs.Reference

/-!
# What is read back of a message

The message that is announced is put together in memory, and what is read later is decoded from the
row that was written of it.  The two are the same (`Database.Announces`): the message is found under
its identifier, it comes first in a window that goes back over it and last in one that goes on up to
it, and all other windows stay as they were.  Only an instant that no text can say is settled on the
way (`Database.Writes`).  A row that was written by other means may spell its texts differently;
written anew from the message that it decodes to, it decodes to that message again.
-/

namespace WhisperChat

open Work

namespace MessageTable

variable {t : MessageTable} {row : MessageRow} {channel : ChannelId} {bound : Option MessageId}
  {start : MessageId} {limit : Nat}

/-- A row under the next identifier comes first on the way back. -/
theorem window_insert_before (h : t.nextId? = some row.id) (hchannel : row.channel = some channel)
    (hcovers : (Scan.before bound).covers row.id = true) :
    (t.insert row).window channel (.before bound) (limit + 1) =
      row :: t.window channel (.before bound) limit := by
  have hwalk : (t.insert row).walk channel (.before bound) =
      row :: t.walk channel (.before bound) := by
    simp [walk, rows_insert h, hchannel, hcovers]
  rw [window, hwalk, List.take_succ_cons, window]

theorem walk_insert_atOrAfter (h : t.nextId? = some row.id) (hchannel : row.channel = some channel)
    (hcovers : (Scan.atOrAfter start).covers row.id = true) :
    (t.insert row).walk channel (.atOrAfter start) =
      t.walk channel (.atOrAfter start) ++ [row] := by
  simp [walk, rows_insert h, hchannel, hcovers]

/-- On the way forth it comes last, where the window has room for it. -/
theorem window_insert_atOrAfter (h : t.nextId? = some row.id)
    (hchannel : row.channel = some channel)
    (hcovers : (Scan.atOrAfter start).covers row.id = true)
    (hroom : (t.walk channel (.atOrAfter start)).length < limit) :
    (t.insert row).window channel (.atOrAfter start) limit =
      t.window channel (.atOrAfter start) limit ++ [row] := by
  have hlength : (t.walk channel (.atOrAfter start) ++ [row]).length ≤ limit := by
    rw [List.length_append, List.length_singleton]
    exact hroom
  rw [window, walk_insert_atOrAfter h hchannel hcovers, List.take_of_length_le hlength, window,
    List.take_of_length_le hroom.le]

/-- A window that does not take the row in is as it was. -/
theorem window_insert_of_notMem {scan : Scan} (h : t.nextId? = some row.id)
    (hnot : row ∉ (t.insert row).window channel scan limit) :
    (t.insert row).window channel scan limit = t.window channel scan limit := by
  by_cases hpassed : row.channel = some channel ∧ scan.covers row.id = true
  · obtain ⟨hchannel, hcovers⟩ := hpassed
    cases scan with
    | before bound =>
      cases limit with
      | zero => rw [window, window, List.take_zero, List.take_zero]
      | succ limit =>
        rw [window_insert_before h hchannel hcovers] at hnot
        exact absurd List.mem_cons_self hnot
    | atOrAfter start =>
      rcases Nat.lt_or_ge (t.walk channel (.atOrAfter start)).length limit with hroom | hfull
      · rw [window_insert_atOrAfter h hchannel hcovers hroom] at hnot
        exact absurd (List.mem_append_right _ (List.mem_singleton_self row)) hnot
      · rw [window, walk_insert_atOrAfter h hchannel hcovers, List.take_append_of_le_length hfull,
          window]
  · have hnone : ([row].filter fun r ↦ r.channel = some channel && scan.covers r.id) = [] := by
      simpa using hpassed
    have hwalk : (t.insert row).walk channel scan = t.walk channel scan := by
      simp only [walk, rows_insert h, List.filter_append, hnone, List.append_nil]
    rw [window, window, hwalk]

end MessageTable

namespace MessageRow

variable {row : MessageRow} {m : Message}

/-- Written anew, a row keeps all but its two texts. -/
theorem ofDraft_of_decode (h : row.decode = .ok m) :
    ofDraft m.id m.toDraft =
      { row with sentAt := m.sentAt.storedText, whisper := m.whisper.map Descriptor.text } := by
  obtain ⟨whisper, sentAt, -, -, rfl⟩ := decode_eq_ok_iff.1 h
  rfl

/-- Written anew, a row decodes to what it decoded to before, however its texts were spelled. -/
theorem decode_ofDraft_of_decode (h : row.decode = .ok m) :
    (ofDraft m.id m.toDraft).decode = row.decode := by
  rw [decode_ofMessage, Message.settled_of_isRegular (isRegular_of_decode h), h]

end MessageRow

namespace Database

variable {db db' : Database} {draft : Draft} {audience : IdentSet .user} {m : Message}

/-- The second database has one more message, and what is read of it is the message itself. -/
structure Announces (db : Database) (m : Message) (db' : Database) : Prop where
  new : db.messageById m.id = .ok none
  byId : db'.messageById m.id = .ok (some m)
  newest : ∀ channel bound limit, m.channel = some channel →
    (Scan.before bound).covers m.id = true →
      db'.channelWindow channel (.before bound) (limit + 1) =
        (db.channelWindow channel (.before bound) limit).map (m :: ·)
  last : ∀ channel start limit, m.channel = some channel →
    (Scan.atOrAfter start).covers m.id = true →
    (db.messages.walk channel (.atOrAfter start)).length < limit →
      db'.channelWindow channel (.atOrAfter start) limit =
        (db.channelWindow channel (.atOrAfter start) limit).map (· ++ [m])
  elsewhere : ∀ channel scan limit,
    (∀ row ∈ db'.messages.window channel scan limit, row.id ≠ m.id) →
      db'.channelWindow channel scan limit = db.channelWindow channel scan limit
  /-- A page has the identifiers of the rows of its window, and nothing but the message itself under
  its identifier. -/
  covering : db.Decodes → ∀ channel scan limit,
    ∃ page, db'.channelWindow channel scan limit = .ok page ∧
      page.map Message.id = (db'.messages.window channel scan limit).map MessageRow.id ∧
      ∀ other ∈ page, other.id = m.id → other = m

/-- The second database has one more message, which is the draft's.  What is read of it is the
message, settled; so it is the message itself just when a text can say the instant of the draft. -/
structure Writes (db : Database) (draft : Draft) (m : Message) (db' : Database) : Prop where
  toDraft : m.toDraft = draft
  announces_settled : db.Announces m.settled db'
  announces_iff : db.Announces m db' ↔ draft.sentAt.IsRegular

/-- The messages of the rows of a window, one of which is put before the others. -/
theorem mapM_decode_cons {row : MessageRow} (hrow : row.decode = .ok m) (rows : List MessageRow) :
    (row :: rows).mapM MessageRow.decode = (rows.mapM MessageRow.decode).map (m :: ·) := by
  rw [List.mapM_cons, hrow]
  rfl

/-- The messages of the rows of a window, one of which is put after the others. -/
theorem mapM_decode_concat {row : MessageRow} (hrow : row.decode = .ok m) (rows : List MessageRow) :
    (rows ++ [row]).mapM MessageRow.decode = (rows.mapM MessageRow.decode).map (· ++ [m]) := by
  rw [List.mapM_append, mapM_decode_cons hrow]
  rfl

/-- Decoded rows keep their identifiers, in their order. -/
theorem map_id_of_forall₂_decode {rows : List MessageRow} {messages : List Message}
    (h : List.Forall₂ (fun row m ↦ row.decode = .ok m) rows messages) :
    messages.map Message.id = rows.map MessageRow.id := by
  induction h with
  | nil => rfl
  | cons hm _ ih => rw [List.map_cons, List.map_cons, MessageRow.id_of_decode hm, ih]

/-- All rows can still be read once a draft has been written. -/
theorem decodes_withMessage {id : MessageId} (hdecodes : db.Decodes)
    (h : db.messages.nextId? = some id) (draft : Draft) (audience : IdentSet .user) :
    (db.withMessage id draft audience).Decodes := by
  rw [Decodes, rows_withMessage h, List.forall_mem_append]
  exact ⟨hdecodes, List.forall_mem_singleton.2 ⟨_, MessageRow.decode_ofDraft id draft⟩⟩

/-- A draft that is written under the next identifier is read back settled. -/
theorem announces_withMessage {id : MessageId} (h : db.messages.nextId? = some id) (draft : Draft)
    (audience : IdentSet .user) :
    db.Announces (Message.settled { draft with id }) (db.withMessage id draft audience) := by
  have hrow : (MessageRow.ofDraft id draft).decode = .ok (Message.settled { draft with id }) :=
    MessageRow.decode_ofDraft id draft
  have hstored : Message.settled { draft with id } ∈ (db.withMessage id draft audience).stored := by
    rw [mem_stored, rows_withMessage h]
    exact ⟨_, List.mem_append_right _ (List.mem_singleton_self _), hrow⟩
  constructor
  case new =>
    change db.messageById id = .ok none
    rw [messageById, MessageTable.find?_nextId h]
  case byId => exact messageById_eq_some_iff.2 ⟨hstored, rfl⟩
  case newest =>
    intro channel bound limit hchannel hcovers
    rw [channelWindow, withMessage, MessageTable.window_insert_before h hchannel hcovers,
      mapM_decode_cons hrow, channelWindow]
    cases (db.messages.window channel (.before bound) limit).mapM MessageRow.decode <;> rfl
  case last =>
    intro channel start limit hchannel hcovers hroom
    rw [channelWindow, withMessage, MessageTable.window_insert_atOrAfter h hchannel hcovers hroom,
      mapM_decode_concat hrow, channelWindow]
    cases (db.messages.window channel (.atOrAfter start) limit).mapM MessageRow.decode <;> rfl
  case elsewhere =>
    intro channel scan limit hnot
    rw [channelWindow, channelWindow, withMessage,
      MessageTable.window_insert_of_notMem h fun hmem ↦ hnot _ hmem rfl]
  case covering =>
    intro hdecodes channel scan limit
    have hafter := decodes_withMessage hdecodes h draft audience
    refine ⟨_, channelWindow_eq hafter limit, ?_, ?_⟩
    · exact map_id_of_forall₂_decode (List.forall₂_take limit (forall₂_walk hafter channel scan))
    · intro other hother hid
      have hold := messageById_eq_some_iff.2
        ⟨(mem_walked.1 (List.mem_of_mem_take hother)).1, hid⟩
      have hnew := messageById_eq_some_iff.2 ⟨hstored, rfl⟩
      exact Option.some.inj (Except.ok.inj (hold.symm.trans hnew))

/-- When the greatest identifier has been given out, a message is refused and nothing changes. -/
theorem insertMessage_of_nextId?_eq_none (hclosed : db.closed = [])
    (h : db.messages.nextId? = none) (draft : Draft) (audience : IdentSet .user) :
    db.insertMessage draft audience = (.error .full, db) := by
  simp only [insertMessage, checkOpen_of_closed hclosed, h]
  rfl

theorem writes_of_insertMessage (h : db.insertMessage draft audience = (.ok m, db')) :
    db.Writes draft m db' := by
  obtain ⟨id, hnext, rfl, rfl⟩ := insertMessage_ok h
  have hsettled := announces_withMessage hnext draft audience
  refine ⟨rfl, hsettled, ?_, ?_⟩
  · intro h
    have hread := hsettled.byId.symm.trans h.byId
    exact Message.settled_eq_self_iff.1 (Option.some.inj (Except.ok.inj hread))
  · intro hregular
    rw [Message.settled_of_isRegular hregular] at hsettled
    exact hsettled

end Database

/-- A draft is written while identifiers are left and everybody it is for is there, and whenever it
is written it is read back as it was returned, unless it was sent in a leap second that does not
follow the last second of a minute.  What a send has announced is always read back, and a row that
can be read is read as the same message after it has been written anew. -/
theorem insertion_announces :
    (∀ (db : Database) (draft : Draft) (audience : IdentSet .user), db.closed = [] →
      db.userExists draft.sender = true →
      (∀ channel, draft.channel = some channel → db.channelExists channel = true) →
      (∀ user ∈ audience, db.userExists user = true) →
        (db.messages.nextId? = none ∧ db.insertMessage draft audience = (.error .full, db)) ∨
          ∃ m db', db.insertMessage draft audience = (.ok m, db') ∧ db.Writes draft m db') ∧
      (∀ (db db' : Database) (draft : Draft) (audience : IdentSet .user) (m : Message),
        db.insertMessage draft audience = (.ok m, db') → db.Writes draft m db') ∧
      (∀ (service : Http.Service) (now : ClockReading) (sender : UserId) (request : SendRequest)
          (sent : Sent),
        (service.shared.atomic [] (send now sender request)).answer = .ok sent →
          service.shared.contents.Announces sent.message
              (service.shared.atomic [] (send now sender request)).shared.contents ∧
            (service.perform now (.send sender request)).2.dispatcher =
              (service.dispatcher.fanOut sent.audience.toList (.messageCreated sent.message)).2) ∧
      ∀ (row : MessageRow) (m : Message), row.decode = .ok m →
        MessageRow.ofDraft m.id m.toDraft =
            { row with sentAt := m.sentAt.storedText, whisper := m.whisper.map Descriptor.text } ∧
          (MessageRow.ofDraft m.id m.toDraft).decode = row.decode := by
  refine ⟨?_, ?_, ?_, ?_⟩
  · intro db draft audience hclosed hsender hchannel haudience
    cases hnext : db.messages.nextId? with
    | none =>
      exact .inl ⟨rfl, Database.insertMessage_of_nextId?_eq_none hclosed hnext draft audience⟩
    | some id =>
      have hinsert := Database.insertMessage_eq_ok hclosed hnext hsender hchannel haudience
      exact .inr ⟨_, _, hinsert, Database.writes_of_insertMessage hinsert⟩
  · intro db db' draft audience m
    exact Database.writes_of_insertMessage
  · intro service now sender request sent hsent
    have hsends := sends_of_yields (SharedDatabase.atomic_of_ok hsent).2.1
    refine ⟨?_, dispatcher_perform_send hsent⟩
    have hannounces :=
      Database.announces_withMessage hsends.nextId sent.message.toDraft sent.audience
    rw [hsends.database]
    rwa [Message.settled_of_isRegular hsends.isRegular] at hannounces
  · intro row m hdecode
    exact ⟨MessageRow.ofDraft_of_decode hdecode, MessageRow.decode_ofDraft_of_decode hdecode⟩

/-- User 1 and channel 1, where nothing has been sent. -/
def silentDatabase : Database where
  users := [(.small 1, "ada")]
  channels := [(.small 1, "news")]

/-- A message that was sent in a leap second after noon is returned as it was given, and read as one
that was sent a second later. -/
theorem insertMessage_noonMessage :
    silentDatabase.userExists noonMessage.sender = true ∧
      (∀ channel, noonMessage.channel = some channel →
        silentDatabase.channelExists channel = true) ∧
      ∃ db', silentDatabase.insertMessage noonMessage.toDraft (.ofList [noonMessage.sender]) =
          (.ok noonMessage, db') ∧
        db'.messageById noonMessage.id = .ok (some noonMessage.settled) ∧
        noonMessage.settled ≠ noonMessage := by
  obtain ⟨db', hinsert⟩ : ∃ db', silentDatabase.insertMessage noonMessage.toDraft
      (.ofList [noonMessage.sender]) = (.ok noonMessage, db') :=
    ⟨_, Prod.ext (by decide) rfl⟩
  have hwrites := Database.writes_of_insertMessage hinsert
  exact ⟨by decide, by decide, db', hinsert, hwrites.announces_settled.byId, by decide⟩

end WhisperChat
