import WhisperChat.Proofs.Page

/-!
# What a viewer reads

A page is a segment of the viewer's history of the channel, and both are made of what the viewer
gets message by message.  So whatever is hidden from a viewer has no influence on what the viewer
reads, be it one message or a page around a message that is hidden itself.
-/

namespace WhisperChat

/-- Whether the anchor lies after the identifier. -/
def Anchor.liesAfter (a : Anchor) (id : MessageId) : Bool :=
  match a with
  | .oldest => false
  | .newest => true
  | .message bound => id < bound

namespace Window

/-- The last of a history before the anchor and the first from there on, as many as the window asks
for. -/
def segment (w : Window) (history : List Message) : List Message :=
  (history.filter fun m ↦ w.anchor.liesAfter m.id).rtake w.before ++
    (history.filter fun m ↦ !w.anchor.liesAfter m.id).take w.after

variable {w : Window} {history : List Message}

theorem filter_beforeScan (hbefore : w.before ≠ 0)
    (hrange : w.anchor = .newest → ∀ m ∈ history, m.id.val < 0x7fffffffffffffff) :
    (history.filter fun m ↦ w.beforeScan.any fun scan ↦ scan.covers m.id) =
      history.filter fun m ↦ w.anchor.liesAfter m.id := by
  apply List.filter_congr
  intro m hm
  rw [beforeScan, if_neg hbefore]
  cases hanchor : w.anchor with
  | oldest => rfl
  | newest => exact decide_eq_true (hrange hanchor m hm)
  | message id => rfl

theorem filter_afterScan (hafter : w.after ≠ 0) (hrange : ∀ m ∈ history, 0 ≤ m.id.val) :
    (history.filter fun m ↦ w.afterScan.any fun scan ↦ scan.covers m.id) =
      history.filter fun m ↦ !w.anchor.liesAfter m.id := by
  apply List.filter_congr
  intro m hm
  rw [afterScan, if_neg hafter]
  cases w.anchor with
  | oldest => exact decide_eq_true (hrange m hm)
  | newest => rfl
  | message id =>
    rw [Bool.eq_iff_iff]
    simp [Scan.covers, Anchor.liesAfter, Ident.le_def, Ident.lt_def]

theorem reached_eq_segment
    (hrange : ∀ m ∈ history, 0 ≤ m.id.val ∧ m.id.val < 0x7fffffffffffffff) :
    w.reached history = w.segment history := by
  have hbefore :
      (history.filter fun m ↦ w.beforeScan.any fun scan ↦ scan.covers m.id).rtake w.before =
        (history.filter fun m ↦ w.anchor.liesAfter m.id).rtake w.before := by
    by_cases hzero : w.before = 0
    · rw [hzero, List.rtake_zero, List.rtake_zero]
    · rw [filter_beforeScan hzero fun _ m hm ↦ (hrange m hm).2]
  have hafter :
      (history.filter fun m ↦ w.afterScan.any fun scan ↦ scan.covers m.id).take w.after =
        (history.filter fun m ↦ !w.anchor.liesAfter m.id).take w.after := by
    by_cases hzero : w.after = 0
    · rw [hzero, List.take_zero, List.take_zero]
    · rw [filter_afterScan hzero fun m hm ↦ (hrange m hm).1]
  calc
    w.reached history =
        (history.filter fun m ↦ w.beforeScan.any fun scan ↦ scan.covers m.id).rtake w.before ++
          (history.filter fun m ↦ w.afterScan.any fun scan ↦ scan.covers m.id).take w.after := rfl
    _ = w.segment history := by rw [hbefore, hafter, segment]

theorem liesAfter_lt {a : Anchor} {id id' : MessageId} (h : a.liesAfter id = true)
    (h' : a.liesAfter id' = false) : id < id' := by
  cases a with
  | oldest => cases h
  | newest => cases h'
  | message bound =>
    simp only [Anchor.liesAfter, decide_eq_true_eq, decide_eq_false_iff_not, Ident.lt_def] at h h' ⊢
    omega

theorem rtake_sublist {α : Type} (l : List α) (n : Nat) : (l.rtake n).Sublist l :=
  List.drop_sublist _ l

theorem length_rtake {α : Type} (l : List α) (n : Nat) : (l.rtake n).length = min n l.length := by
  rw [List.rtake, List.length_drop]
  omega

theorem pairwise_segment (h : history.Pairwise fun a b ↦ a.id < b.id) :
    (w.segment history).Pairwise fun a b ↦ a.id < b.id := by
  rw [segment, List.pairwise_append]
  refine ⟨(h.filter _).sublist (rtake_sublist _ _),
    (h.filter _).sublist (List.take_sublist _ _), ?_⟩
  intro m hm m' hm'
  have hbefore := (List.mem_filter.1 ((rtake_sublist _ _).mem hm)).2
  have hafter := (List.mem_filter.1 (List.mem_of_mem_take hm')).2
  exact liesAfter_lt hbefore (by simpa using hafter)

theorem mem_of_mem_segment {m : Message} (h : m ∈ w.segment history) : m ∈ history := by
  rcases List.mem_append.1 h with h | h
  · exact (List.mem_filter.1 ((rtake_sublist _ _).mem h)).1
  · exact (List.mem_filter.1 (List.mem_of_mem_take h)).1

theorem length_segment :
    (w.segment history).length =
      min w.before (history.countP fun m ↦ w.anchor.liesAfter m.id) +
        min w.after (history.countP fun m ↦ !w.anchor.liesAfter m.id) := by
  calc
    (w.segment history).length =
        min w.before (history.filter fun m ↦ w.anchor.liesAfter m.id).length +
          min w.after (history.filter fun m ↦ !w.anchor.liesAfter m.id).length := by
      rw [segment, List.length_append, length_rtake, List.length_take]
    _ = min w.before (history.countP fun m ↦ w.anchor.liesAfter m.id) +
          min w.after (history.countP fun m ↦ !w.anchor.liesAfter m.id) := by
      rw [List.countP_eq_length_filter, List.countP_eq_length_filter]

end Window

/-- Where all rows can be read and identifiers are positive and below the greatest, a page is the
segment of the viewer's history around the anchor, unless a side asks for more than memory can be
set aside for. -/
theorem page_eq_segment {db : Database} (hdecodes : db.Decodes)
    (hrange : ∀ row ∈ db.messages.rows, 1 ≤ row.id.val ∧ row.id.val < 0x7fffffffffffffff)
    (viewer : UserId) (channel : ChannelId) (w : Window) :
    ((db.history viewer channel).Pairwise fun a b ↦ a.id < b.id) ∧
      (∀ m, m ∈ db.history viewer channel ↔
        m.channel = some channel ∧ db.get viewer m.id = .ok m) ∧
      db.page viewer channel w =
        (if w.Exceeds then .error .outOfMemory else .ok (w.segment (db.history viewer channel))) ∧
      ((w.segment (db.history viewer channel)).Pairwise fun a b ↦ a.id < b.id) ∧
      (∀ m ∈ w.segment (db.history viewer channel), m.channel = some channel) ∧
      (w.segment (db.history viewer channel)).length =
        min w.before ((db.history viewer channel).countP fun m ↦ w.anchor.liesAfter m.id) +
          min w.after ((db.history viewer channel).countP fun m ↦ !w.anchor.liesAfter m.id) := by
  have hhistory : ∀ m ∈ db.history viewer channel,
      0 ≤ m.id.val ∧ m.id.val < 0x7fffffffffffffff := by
    intro m hm
    obtain ⟨hstored, -, -⟩ := Database.get_eq_ok_iff.1 (Database.mem_history.1 hm).2
    obtain ⟨row, hrow, hdecode⟩ := Database.mem_stored.1 hstored
    have hid := hrange row hrow
    rw [MessageRow.id_of_decode hdecode]
    omega
  refine ⟨Database.pairwise_history, fun m ↦ Database.mem_history, ?_,
    Window.pairwise_segment Database.pairwise_history, ?_, Window.length_segment⟩
  · have hends : ¬ db.Overflows viewer channel w :=
      Database.not_overflows_of_lt fun row hrow ↦ (hrange row hrow).2
    rw [page_eq_reached hdecodes, if_neg hends, Window.reached_eq_segment hhistory]
  · intro m hm
    exact (Database.mem_history.1 (Window.mem_of_mem_segment hm)).1

def sampleMessage (id : MessageId) (content : String) (whisper : Option Descriptor) : Message where
  id
  sender := .small 1
  channel := some (.small 1)
  topic := some "news"
  content
  sentAt := ClockReading.epoch.toInstant
  whisper

@[simp]
theorem isRegular_sampleMessage (id : MessageId) (content : String) (whisper : Option Descriptor) :
    (sampleMessage id content whisper).sentAt.IsRegular := ClockReading.epoch.isRegular

/-- Users 1 and 2, who both read channel 1, with the given messages and index. -/
def sampleDatabase (messages : List Message) (h : messages.Pairwise fun a b ↦ a.id < b.id)
    (visibility : List (MessageId × UserId)) : Database where
  users := [(.small 1, "ada"), (.small 2, "bob")]
  channels := [(.small 1, "hall")]
  subscriptions := [(.small 1, .small 1),
    (.small 1, .small 2)]
  messages := ⟨messages.map fun m ↦ .ofDraft m.id m.toDraft, by rw [List.pairwise_map]; exact h⟩
  visibility

/-- Between two messages to the channel, user 1 has whispered to himself. -/
def whispered : Database :=
  sampleDatabase
    [sampleMessage (.small 1) "one" none,
      sampleMessage (.small 2) "two"
        (some ⟨.ofList [.small 1], .empty⟩),
      sampleMessage (.small 3) "three" none]
    (by decide) [(.small 2, .small 1)]

theorem history_whispered :
    whispered.history (.small 2) (.small 1) =
      [sampleMessage (.small 1) "one" none,
        sampleMessage (.small 3) "three" none] := by
  rw [← Database.filter_stored, Database.stored_eq rfl (by simp)]
  decide

/-- The page of the last two messages, for the user who does not see the whisper. -/
theorem page_eq_segment_whispered :
    whispered.Decodes ∧
      (∀ row ∈ whispered.messages.rows, 1 ≤ row.id.val ∧ row.id.val < 0x7fffffffffffffff) ∧
      whispered.page (.small 2) (.small 1) ⟨.newest, 2, 0⟩ =
        .ok [sampleMessage (.small 1) "one" none,
          sampleMessage (.small 3) "three" none] := by
  have hdecodes : whispered.Decodes := Database.decodes_of_eq rfl
  have hrange : ∀ row ∈ whispered.messages.rows,
      1 ≤ row.id.val ∧ row.id.val < 0x7fffffffffffffff := by decide
  refine ⟨hdecodes, hrange, ?_⟩
  obtain ⟨-, -, hpage, -⟩ := page_eq_segment hdecodes hrange (.small 2)
    (.small 1) ⟨.newest, 2, 0⟩
  rw [hpage, history_whispered]
  decide

/-! ## Hidden messages -/

theorem history_eq_of_get_iff {db₁ db₂ : Database} {viewer : UserId}
    (hsame : ∀ id m, db₁.get viewer id = .ok m ↔ db₂.get viewer id = .ok m)
    (channel : ChannelId) : db₁.history viewer channel = db₂.history viewer channel := by
  apply Database.eq_of_mem_iff Database.pairwise_history Database.pairwise_history
  intro m
  rw [Database.mem_history, Database.mem_history, hsame m.id m]

theorem get_eq_of_get_iff {db₁ db₂ : Database} (h₁ : db₁.Decodes) (h₂ : db₂.Decodes)
    {viewer : UserId} (hsame : ∀ id m, db₁.get viewer id = .ok m ↔ db₂.get viewer id = .ok m)
    (id : MessageId) : db₁.get viewer id = db₂.get viewer id := by
  by_cases hvisible : ∃ m, db₁.get viewer id = .ok m
  · obtain ⟨m, hm⟩ := hvisible
    rw [hm, (hsame id m).1 hm]
  · have hhidden : ∀ m, db₁.get viewer id ≠ .ok m := fun m hm ↦ hvisible ⟨m, hm⟩
    have hhidden' : ∀ m, db₂.get viewer id ≠ .ok m := fun m hm ↦ hhidden m ((hsame id m).2 hm)
    rw [(Database.get_eq_notVisible_iff h₁).2 hhidden,
      (Database.get_eq_notVisible_iff h₂).2 hhidden']

/-- Where a viewer gets the same messages, the viewer reads the same: hidden messages, whatever they
are and wherever they lie, change neither the answer for any identifier nor any page, unless it is
one that breaks down because the greatest identifier has been given out. -/
theorem reads_eq_of_get_iff {db₁ db₂ : Database} (h₁ : db₁.Decodes) (h₂ : db₂.Decodes)
    {viewer : UserId} (hsame : ∀ id m, db₁.get viewer id = .ok m ↔ db₂.get viewer id = .ok m) :
    (∀ id, db₁.get viewer id = db₂.get viewer id) ∧
      (∀ id, (∀ m, db₁.get viewer id ≠ .ok m) →
        db₁.get viewer id = .error (.error .notVisible)) ∧
      (∀ channel w, ¬ db₁.Overflows viewer channel w → ¬ db₂.Overflows viewer channel w →
        db₁.page viewer channel w = db₂.page viewer channel w) ∧
      ((∀ row ∈ db₁.messages.rows ++ db₂.messages.rows, row.id.val < 0x7fffffffffffffff) →
        ∀ channel w, db₁.page viewer channel w = db₂.page viewer channel w) := by
  have hpage : ∀ channel w, ¬ db₁.Overflows viewer channel w → ¬ db₂.Overflows viewer channel w →
      db₁.page viewer channel w = db₂.page viewer channel w := by
    intro channel w hends₁ hends₂
    rw [page_eq_reached h₁, page_eq_reached h₂, if_neg hends₁, if_neg hends₂,
      history_eq_of_get_iff hsame channel]
  refine ⟨get_eq_of_get_iff h₁ h₂ hsame, fun id ↦ (Database.get_eq_notVisible_iff h₁).2, hpage, ?_⟩
  intro hrange channel w
  rw [List.forall_mem_append] at hrange
  exact hpage channel w (Database.not_overflows_of_lt hrange.1)
    (Database.not_overflows_of_lt hrange.2)

def unwhispered : Database :=
  sampleDatabase
    [sampleMessage (.small 1) "one" none,
      sampleMessage (.small 3) "three" none]
    (by decide) []

theorem get_whispered_iff (id : MessageId) (m : Message) :
    whispered.get (.small 2) id = .ok m ↔
      unwhispered.get (.small 2) id = .ok m := by
  have hgranted : whispered.stored.filter (whispered.grants (.small 2)) =
      unwhispered.stored.filter (unwhispered.grants (.small 2)) := by
    rw [Database.stored_eq rfl (by simp), Database.stored_eq rfl (by simp)]
    decide
  have hmem := congrArg (m ∈ ·) hgranted
  simp only [List.mem_filter, eq_iff_iff] at hmem
  rw [Database.get_eq_ok_iff, Database.get_eq_ok_iff, and_left_comm, hmem, and_left_comm]

/-- User 2 asks for the hidden whisper, and for a page around it. -/
theorem reads_eq_of_get_iff_whispered :
    whispered.Decodes ∧ unwhispered.Decodes ∧
      (∀ id m, whispered.get (.small 2) id = .ok m ↔
        unwhispered.get (.small 2) id = .ok m) ∧
      whispered.get (.small 2) (.small 2) =
        unwhispered.get (.small 2) (.small 2) ∧
      whispered.page (.small 2) (.small 1)
          ⟨.message (.small 2), 1, 1⟩ =
        unwhispered.page (.small 2) (.small 1)
          ⟨.message (.small 2), 1, 1⟩ := by
  have h₁ : whispered.Decodes := Database.decodes_of_eq rfl
  have h₂ : unwhispered.Decodes := Database.decodes_of_eq rfl
  have hrange : ∀ row ∈ whispered.messages.rows ++ unwhispered.messages.rows,
      row.id.val < 0x7fffffffffffffff := by decide
  obtain ⟨hget, -, -, hpage⟩ := reads_eq_of_get_iff h₁ h₂ get_whispered_iff
  exact ⟨h₁, h₂, get_whispered_iff, hget _, hpage hrange _ _⟩

end WhisperChat
