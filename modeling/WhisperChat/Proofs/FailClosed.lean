import WhisperChat.Proofs.Run

/-!
# Reading fails closed

Whatever the texts in the rows, and whichever methods of the store fail, a question is answered as
it would be if no method failed, or not at all.  Every message that a viewer is given comes from a
row that is open to the viewer by what stands in the row itself: a descriptor that cannot be read
opens its message to nobody (`reads_fail_closed`).
-/

namespace WhisperChat

open Work

/-! ## Open rows -/

/-- Whether a row is open to a viewer by its own text and the rows of the other tables.  A row with
a descriptor is open only if the descriptor can be read. -/
def MessageRow.IsOpenTo (row : MessageRow) (viewer : UserId) (db : Database) : Prop :=
  match row.whisper, row.channel with
  | none, some channel => (channel, viewer) ∈ db.subscriptions
  | none, none => (row.id, viewer) ∈ db.visibility
  | some text, _ => ∃ d, Descriptor.parse? text = some d ∧
      ((row.id, viewer) ∈ db.visibility ∨ ∃ group ∈ d.groups, (group, viewer) ∈ db.members)

namespace MessageRow

variable {row : MessageRow} {m : Message}

/-- A message is a whisper just when its row has a descriptor, which then can be read. -/
theorem whisper_of_decode (h : row.decode = .ok m) :
    match row.whisper with
    | none => m.whisper = none
    | some text => ∃ d, Descriptor.parse? text = some d ∧ m.whisper = some d := by
  obtain ⟨whisper, sentAt, hdescriptor, -, rfl⟩ := decode_eq_ok_iff.1 h
  cases hw : row.whisper with
  | none =>
    simp only [descriptor, hw, Except.ok.injEq] at hdescriptor
    exact hdescriptor.symm
  | some text =>
    cases hparse : Descriptor.parse? text with
    | none => simp [descriptor, hw, hparse] at hdescriptor
    | some d =>
      simp only [descriptor, hw, hparse, Except.ok.injEq] at hdescriptor
      exact ⟨d, hparse, hdescriptor.symm⟩

/-- What the tables grant is what the row is open to. -/
theorem isOpenTo_iff (h : row.decode = .ok m) (viewer : UserId) (db : Database) :
    row.IsOpenTo viewer db ↔ db.grants viewer m = true := by
  have hwhisper := whisper_of_decode h
  have hchannel := channel_of_decode h
  have hid := id_of_decode h
  unfold IsOpenTo
  cases hw : row.whisper with
  | none =>
    rw [hw] at hwhisper
    cases hc : row.channel with
    | none =>
      rw [Database.grants_direct hwhisper (hchannel.trans hc), hid, Database.hasVisibilityRow_iff]
    | some channel =>
      rw [Database.grants_ordinary hwhisper (hchannel.trans hc), Database.isSubscribed,
        List.contains_iff_mem]
  | some text =>
    rw [hw] at hwhisper
    obtain ⟨d, hparse, hd⟩ := hwhisper
    rw [Database.grants_whisper_iff hd, hid, Database.hasVisibilityRow_iff]
    simp [hparse]

end MessageRow

namespace Database

variable {db : Database} {viewer : UserId} {channel : ChannelId} {m : Message}

/-- What a viewer gets is kept in a row that is open to the viewer. -/
theorem get_eq_ok_iff_exists_row {id : MessageId} :
    db.get viewer id = .ok m ↔
      ∃ row ∈ db.messages.rows, row.id = id ∧ row.decode = .ok m ∧ row.IsOpenTo viewer db := by
  rw [get_eq_ok_iff, mem_stored]
  constructor
  · rintro ⟨⟨row, hrow, hdecode⟩, rfl, hgrants⟩
    exact ⟨row, hrow, (MessageRow.id_of_decode hdecode).symm, hdecode,
      (MessageRow.isOpenTo_iff hdecode viewer db).2 hgrants⟩
  · rintro ⟨row, hrow, rfl, hdecode, hopen⟩
    exact ⟨⟨row, hrow, hdecode⟩, MessageRow.id_of_decode hdecode,
      (MessageRow.isOpenTo_iff hdecode viewer db).1 hopen⟩

/-- A row whose descriptor cannot be read is gotten by nobody. -/
theorem get_ne_ok_of_parse?_eq_none {row : MessageRow} (hrow : row ∈ db.messages.rows)
    {text : String} (htext : row.whisper = some text) (hparse : Descriptor.parse? text = none)
    (m : Message) : db.get viewer row.id ≠ .ok m := by
  intro hm
  obtain ⟨r, hr, hid, -, hopen⟩ := get_eq_ok_iff_exists_row.1 hm
  have hsame : r = row := Option.some.inj <| by
    rw [← MessageTable.find?_eq_some_of_mem hr, ← MessageTable.find?_eq_some_of_mem hrow, hid]
  rw [hsame] at hopen
  unfold MessageRow.IsOpenTo at hopen
  rw [htext] at hopen
  obtain ⟨d, hd, -⟩ := hopen
  rw [hparse] at hd
  cases hd

/-! ## Pages hold nothing else -/

theorem mem_of_mapM_decode {rows : List MessageRow} {messages : List Message}
    (h : rows.mapM MessageRow.decode = .ok messages) (hm : m ∈ messages) :
    ∃ row ∈ rows, row.decode = .ok m := by
  induction rows generalizing messages with
  | nil =>
    cases h
    cases hm
  | cons row rows ih =>
    rw [List.mapM_cons] at h
    simp only [bind_eq_ok_iff, pure_eq_ok_iff] at h
    obtain ⟨first, hfirst, rest, hrest, rfl⟩ := h
    rcases List.mem_cons.1 hm with rfl | hm
    · exact ⟨row, by simp, hfirst⟩
    · obtain ⟨r, hr, hdecode⟩ := ih hrest hm
      exact ⟨r, by simp [hr], hdecode⟩

/-- A window that can be read holds stored messages of its channel. -/
theorem mem_of_channelWindow {scan : Scan} {limit : Nat} {batch : List Message}
    (h : db.channelWindow channel scan limit = .ok batch) (hm : m ∈ batch) :
    m ∈ db.stored ∧ m.channel = some channel := by
  unfold channelWindow at h
  split at h
  case h_1 messages hmessages =>
    cases h
    obtain ⟨row, hrow, hdecode⟩ := mem_of_mapM_decode hmessages hm
    have hwalk : row ∈ db.messages.walk channel scan := List.mem_of_mem_take hrow
    have hpassed : row ∈ db.messages.rows ∧ row.channel = some channel := by
      unfold MessageTable.walk at hwalk
      cases scan <;> simp_all
    exact ⟨mem_stored.2 ⟨row, hpassed.1, hdecode⟩,
      (MessageRow.channel_of_decode hdecode).trans hpassed.2⟩
  case h_2 => cases h

end Database

namespace Page

variable {db db' : Database} {viewer : UserId} {channel : ChannelId} {m : Message}

/-- A walk finds nothing but messages of the viewer's history, though rows on its way may be
corrupt. -/
theorem mem_history_of_yields_walk {want rounds : Nat} {scan : Scan} {found page : List Message}
    (hfound : ∀ m ∈ found, m ∈ db.history viewer channel)
    (h : (walk (db.contextOf viewer channel) want rounds scan found).Yields [] db page db') :
    ∀ m ∈ page, m ∈ db.history viewer channel := by
  induction rounds generalizing scan found with
  | zero =>
    obtain ⟨rfl, -⟩ := yields_pure_iff.1 h
    exact hfound
  | succ rounds ih =>
    unfold walk at h
    split at h
    · obtain ⟨rfl, -⟩ := yields_pure_iff.1 h
      exact hfound
    obtain ⟨batch, db₁, hbatch, h⟩ := yields_bind_iff.1 h
    obtain ⟨-, hanswer⟩ := yields_ask_iff.1 hbatch
    obtain ⟨hwindow, hkeep⟩ := Prod.mk.inj hanswer
    subst hkeep
    split at h
    · obtain ⟨rfl, -⟩ := yields_pure_iff.1 h
      exact hfound
    obtain ⟨visible, db₁, hvisible, h⟩ := yields_bind_iff.1 h
    obtain ⟨hseen, hkeep⟩ := (yields_filterVisible batch).unique hvisible
    subst hseen hkeep
    -- What a batch adds has been filtered by what the tables grant.
    have hmore : ∀ m ∈ found ++ (batch.filter fun m ↦ db.grants viewer m &&
        (m.needsRow || m.channel = some channel)).take (want - found.length),
        m ∈ db.history viewer channel := by
      intro m hm
      rcases List.mem_append.1 hm with hold | hnew
      · exact hfound m hold
      · obtain ⟨hin, hseen⟩ := List.mem_filter.1 (List.mem_of_mem_take hnew)
        obtain ⟨hstored, hchannel⟩ := Database.mem_of_channelWindow hwindow hin
        rw [Bool.and_eq_true] at hseen
        exact Database.mem_history.2
          ⟨hchannel, Database.get_eq_ok_iff.2 ⟨hstored, rfl, hseen.1⟩⟩
    split at h
    · obtain ⟨rfl, -⟩ := yields_pure_iff.1 h
      exact hmore
    split at h
    · exact absurd h not_yields_fail
    · exact ih hmore h

theorem mem_history_of_yields_side {scan : Option Scan} {want : Nat} {page : List Message}
    (h : (side (db.contextOf viewer channel) scan want).Yields [] db page db') :
    ∀ m ∈ page, m ∈ db.history viewer channel := by
  unfold side scanVisible at h
  split at h
  · obtain ⟨rfl, -⟩ := yields_pure_iff.1 h
    simp
  · split at h
    · exact absurd h not_yields_fail
    · exact mem_history_of_yields_walk (by simp) h

end Page

/-- A page holds nothing but what the viewer gets one by one. -/
theorem mem_history_of_mem_page {db : Database} {viewer : UserId} {channel : ChannelId} {w : Window}
    {page : List Message} (h : db.page viewer channel w = .ok page) :
    ∀ m ∈ page, m ∈ db.history viewer channel := by
  have hyields : (listMessages viewer channel w).Yields [] db page
      ((listMessages viewer channel w).run [] db).database := ⟨h, rfl⟩
  obtain ⟨context, db₁, hload, hsides⟩ := yields_bind_iff.1 hyields
  obtain ⟨hcontext, hkeep⟩ := (yields_load db viewer channel).unique hload
  subst hcontext hkeep
  obtain ⟨before, db₁, hbefore, hsides⟩ := yields_bind_iff.1 hsides
  obtain ⟨after, db₂, hafter, hsides⟩ := yields_bind_iff.1 hsides
  obtain ⟨rfl, -⟩ := yields_pure_iff.1 hsides
  have hkeep : db = db₁ := by
    rw [← hbefore.2]
    exact ((Page.within_side _ _ _).questions.database_eq [] db).symm
  subst hkeep
  intro m hm
  rcases List.mem_append.1 hm with hm | hm
  · exact Page.mem_history_of_yields_side hbefore m (List.mem_reverse.1 hm)
  · exact Page.mem_history_of_yields_side hafter m hm

/-! ## Failing methods -/

namespace SharedDatabase

variable {α : Type}

/-- Whatever methods fail, reading has the answer that it would have without, or fails because one
of them was called. -/
theorem answer_read_or_faulty (s : SharedDatabase) (faults : List Method) (w : Work α) :
    (s.read faults w).answer = (s.read [] w).answer ∨
      ∃ method ∈ faults,
        (s.read faults w).answer = .error (.error (.store (.faulty method))) := by
  cases hpoisoned : s.poisoned with
  | true =>
    left
    rw [answer_read_of_poisoned hpoisoned, answer_read_of_poisoned hpoisoned]
  | false =>
    rw [answer_read hpoisoned, answer_read hpoisoned]
    exact answer_run_or_faulty faults w s.contents

/-- What is answered although methods fail is what the database answers by itself. -/
theorem run_of_answer_read {s : SharedDatabase} {faults : List Method} {w : Work α} {a : α}
    (h : (s.read faults w).answer = .ok a) : (w.run [] s.contents).answer = .ok a := by
  cases hpoisoned : s.poisoned with
  | true =>
    rw [answer_read_of_poisoned hpoisoned] at h
    cases h
  | false =>
    rw [answer_read hpoisoned] at h
    have hyields : w.Yields faults s.contents a (w.run faults s.contents).database := ⟨h, rfl⟩
    exact hyields.of_faults.1

end SharedDatabase

/-- In every state of the database, whatever stands in the texts of its rows, and whichever methods
of the store fail, a viewer who asks for a message or for a page has the answer of a store that
works, or learns that a method has failed.  What is handed out comes from a row that is open to the
viewer by what stands in it, so that a row whose descriptor cannot be read is never handed out. -/
theorem reads_fail_closed (s : SharedDatabase) (faults : List Method) (viewer : UserId) :
    (∀ id,
        (s.read faults (getMessage viewer id)).answer =
            (s.read [] (getMessage viewer id)).answer ∨
          ∃ method ∈ faults, (s.read faults (getMessage viewer id)).answer =
            .error (.error (.store (.faulty method)))) ∧
      (∀ channel w,
        (s.read faults (listMessages viewer channel w)).answer =
            (s.read [] (listMessages viewer channel w)).answer ∨
          ∃ method ∈ faults, (s.read faults (listMessages viewer channel w)).answer =
            .error (.error (.store (.faulty method)))) ∧
      (∀ id m, (s.read faults (getMessage viewer id)).answer = .ok m →
        ∃ row ∈ s.contents.messages.rows,
          row.id = id ∧ row.decode = .ok m ∧ row.IsOpenTo viewer s.contents) ∧
      (∀ channel w page, (s.read faults (listMessages viewer channel w)).answer = .ok page →
        ∀ m ∈ page, ∃ row ∈ s.contents.messages.rows,
          row.channel = some channel ∧ row.decode = .ok m ∧ row.IsOpenTo viewer s.contents) ∧
      ∀ row ∈ s.contents.messages.rows, ∀ text, row.whisper = some text →
        Descriptor.parse? text = none →
          (∀ m, (s.read faults (getMessage viewer row.id)).answer ≠ .ok m) ∧
          ∀ channel w page, (s.read faults (listMessages viewer channel w)).answer = .ok page →
            ∀ m ∈ page, m.id ≠ row.id := by
  have hget : ∀ id m, (s.read faults (getMessage viewer id)).answer = .ok m →
      s.contents.get viewer id = .ok m := fun id m h ↦ SharedDatabase.run_of_answer_read h
  have hpage : ∀ channel w page, (s.read faults (listMessages viewer channel w)).answer = .ok page →
      ∀ m ∈ page, m.channel = some channel ∧ s.contents.get viewer m.id = .ok m := by
    intro channel w page h m hm
    exact Database.mem_history.1
      (mem_history_of_mem_page (SharedDatabase.run_of_answer_read h) m hm)
  refine ⟨fun id ↦ s.answer_read_or_faulty faults _,
    fun channel w ↦ s.answer_read_or_faulty faults _, ?_, ?_, ?_⟩
  · intro id m h
    exact Database.get_eq_ok_iff_exists_row.1 (hget id m h)
  · intro channel w page h m hm
    obtain ⟨hchannel, hgotten⟩ := hpage channel w page h m hm
    obtain ⟨row, hrow, -, hdecode, hopen⟩ := Database.get_eq_ok_iff_exists_row.1 hgotten
    exact ⟨row, hrow, (MessageRow.channel_of_decode hdecode).symm.trans hchannel, hdecode, hopen⟩
  · intro row hrow text htext hparse
    have hclosed : ∀ m, s.contents.get viewer row.id ≠ .ok m :=
      Database.get_ne_ok_of_parse?_eq_none hrow htext hparse
    refine ⟨fun m h ↦ hclosed m (hget row.id m h), ?_⟩
    intro channel w page h m hm hid
    have hgotten := (hpage channel w page h m hm).2
    rw [hid] at hgotten
    exact hclosed m hgotten

end WhisperChat
