import WhisperChat.Proofs.Commit
import WhisperChat.Proofs.Reading
import WhisperChat.Proofs.Visibility

/-!
# Going back page by page

A reader starts with the last page of a channel and asks on for the page before the first message of
the one just read.  Between any two pages others use the database.  What was there at the first page
stays as it was for the reader, whose groups and subscription stay the same, and what others send
comes after it (`Run.Recorded.exists_history_append`), so that the pages cut the history of the
first moment to pieces, from its end to its beginning.
-/

namespace WhisperChat

/-! ## Lists in pieces -/

section Pieces

variable {α : Type}

theorem rdrop_append_rtake (l : List α) (n : Nat) : l.rdrop n ++ l.rtake n = l :=
  List.take_append_drop _ l

theorem length_rdrop (l : List α) (n : Nat) : (l.rdrop n).length = l.length - n := by
  rw [List.rdrop, List.length_take]
  omega

/-- A list is its pieces of `n` members, counted from its end, up to what `k` pieces leave over. -/
theorem rdrop_append_flatten_pieces (l : List α) (n k : Nat) :
    l.rdrop (k * n) ++
        ((List.range k).map fun i ↦ (l.rdrop (i * n)).rtake n).reverse.flatten = l := by
  induction k with
  | zero => simp
  | succ k ih =>
    rw [List.range_succ, List.map_append, List.map_singleton, List.reverse_append,
      List.reverse_singleton, List.singleton_append, List.flatten_cons, ← List.append_assoc,
      Nat.succ_mul, ← List.rdrop_add, rdrop_append_rtake, ih]

/-- A list is cut into full pieces and a shorter one. -/
theorem exists_pieces (l : List α) {n : Nat} (hn : 1 ≤ n) :
    ∃ (full : List (List α)) (last : List α), full.length = l.length / n ∧
      (∀ k piece, (full ++ [last])[k]? = some piece →
        k ≤ l.length / n ∧ piece = (l.rdrop (k * n)).rtake n) ∧
      (∀ piece ∈ full, piece.length = n) ∧ last.length < n ∧ last ++ full.reverse.flatten = l := by
  -- What the full pieces leave over is less than a piece, and so is the last one.
  have hrest : (l.rdrop (l.length / n * n)).length < n := by
    rw [length_rdrop]
    exact Nat.sub_lt_left_of_lt_add (Nat.div_mul_le_self _ _) (Nat.lt_div_mul_add hn)
  have hlast : (l.rdrop (l.length / n * n)).rtake n = l.rdrop (l.length / n * n) := by
    rw [List.rtake, Nat.sub_eq_zero_of_le (Nat.le_of_lt hrest), List.drop_zero]
  have hall : ((List.range (l.length / n)).map fun i ↦ (l.rdrop (i * n)).rtake n) ++
        [l.rdrop (l.length / n * n)] =
      (List.range (l.length / n + 1)).map fun i ↦ (l.rdrop (i * n)).rtake n := by
    rw [List.range_succ, List.map_append, List.map_singleton, hlast]
  refine ⟨(List.range (l.length / n)).map fun i ↦ (l.rdrop (i * n)).rtake n,
    l.rdrop (l.length / n * n), by simp, ?_, ?_, hrest, rdrop_append_flatten_pieces _ _ _⟩
  · intro k piece hk
    rw [hall, List.getElem?_map, Option.map_eq_some_iff] at hk
    obtain ⟨i, hi, rfl⟩ := hk
    obtain ⟨hlt, rfl⟩ := List.getElem?_eq_some_iff.1 hi
    rw [List.length_range] at hlt
    rw [List.getElem_range]
    exact ⟨Nat.le_of_lt_succ hlt, rfl⟩
  · intro piece hmem
    obtain ⟨i, hi, rfl⟩ := List.mem_map.1 hmem
    have hfull : (i + 1) * n ≤ l.length := Nat.mul_le_of_le_div _ _ _ (List.mem_range.1 hi)
    rw [Nat.succ_mul] at hfull
    rw [Window.length_rtake, length_rdrop]
    omega

/-- In an ascending list the members before a given one are those that are less. -/
theorem filter_lt_eq_of_append {l front back : List Message} {m : Message}
    (h : l.Pairwise fun a b ↦ a.id < b.id) (hsplit : l = front ++ m :: back) :
    (l.filter fun a ↦ decide (a.id < m.id)) = front := by
  rw [hsplit, List.pairwise_append, List.pairwise_cons] at h
  obtain ⟨-, ⟨hback, -⟩, hfront⟩ := h
  have hall : (front.filter fun a ↦ decide (a.id < m.id)) = front :=
    List.filter_eq_self.2 fun a ha ↦ decide_eq_true (hfront a ha m List.mem_cons_self)
  have hnone : ((m :: back).filter fun a ↦ decide (a.id < m.id)) = [] := by
    rw [List.filter_eq_nil_iff]
    intro a ha
    rw [decide_eq_true_eq]
    rcases List.mem_cons.1 ha with rfl | ha
    · exact Ident.lt_irrefl _
    · exact Ident.lt_asymm (hback a ha)
  rw [hsplit, List.filter_append, hall, hnone, List.append_nil]

end Pieces

/-! ## What stays as it was -/

/-- Whether a viewer has the same groups and the same subscription in two databases. -/
structure Database.SameReach (viewer : UserId) (channel : ChannelId) (db db' : Database) :
    Prop where
  groups : db'.groupsOf viewer = db.groupsOf viewer
  subscribed : db'.isSubscribed channel viewer = db.isSubscribed channel viewer

/-- A message of a channel is open to the same viewers while their groups and subscriptions last. -/
theorem Sent.isOpenTo_iff_of_sameReach {s : Sent} {viewer : UserId} {channel : ChannelId}
    {db db' : Database} (h : db.SameReach viewer channel db')
    (hchannel : s.message.channel = some channel) :
    s.IsOpenTo viewer db' ↔ s.IsOpenTo viewer db := by
  unfold IsOpenTo
  rw [hchannel]
  cases s.message.whisper with
  | none => simp only [h.subscribed]
  | some d => simp only [← Database.mem_groupsOf, h.groups]

namespace Run

variable {r r' : Run} {viewer : UserId} {channel : ChannelId}

/-- A viewer's history is made of what was sent. -/
theorem Recorded.history_eq (h : r.Recorded) (viewer : UserId) (channel : ChannelId) :
    r.shared.contents.history viewer channel =
      (r.sent.map Sent.message).filter fun m ↦
        r.shared.contents.grants viewer m && m.channel = some channel := by
  rw [← Database.filter_stored, h.stored_eq]

/-- More sends only add to the history of a viewer who can reach the same. -/
theorem Recorded.exists_history_append (h : r.Recorded) (h' : r'.Recorded) {more : List Sent}
    (hsent : r'.sent = r.sent ++ more)
    (hreach : r.shared.contents.SameReach viewer channel r'.shared.contents) :
    ∃ later, r'.shared.contents.history viewer channel =
      r.shared.contents.history viewer channel ++ later := by
  refine ⟨(more.map Sent.message).filter fun m ↦
    r'.shared.contents.grants viewer m && m.channel = some channel, ?_⟩
  rw [h.history_eq, h'.history_eq, hsent, List.map_append, List.filter_append]
  congr 1
  apply List.filter_congr
  intro m hm
  obtain ⟨s, hs, rfl⟩ := List.mem_map.1 hm
  have hs' : s ∈ r'.sent := by
    rw [hsent]
    exact List.mem_append_left _ hs
  rw [Bool.eq_iff_iff, Bool.and_eq_true, Bool.and_eq_true, decide_eq_true_eq]
  refine and_congr_left fun hchannel ↦ ?_
  rw [grants_iff h hs, grants_iff h' hs', Sent.isOpenTo_iff_of_sameReach hreach hchannel]

end Run

/-! ## The pages of a reader -/

structure Reader where
  viewer : UserId
  channel : ChannelId
  size : Nat

/-- The moment at which a reader asks for a page, and the anchor that it is to lie before. -/
structure Turn where
  run : Run
  anchor : Anchor

namespace Reader

variable {reader : Reader}

def window (reader : Reader) (anchor : Anchor) : Window := ⟨anchor, reader.size, 0⟩

def page (reader : Reader) (t : Turn) : Except Failure (List Message) :=
  t.run.page reader.viewer reader.channel (reader.window t.anchor)

/-- The next turn of a reader: the page is fetched, others use the database, and the first message
of the page is the new anchor. -/
def next (reader : Reader) (others : List Action) (t : Turn) : Turn where
  run :=
    (.list reader.viewer reader.channel (reader.window t.anchor) :: others).foldl Run.step t.run
  anchor :=
    match reader.page t with
    | .ok (m :: _) => .message m.id
    | _ => t.anchor

/-- The turns of a reader who starts at the end of the channel, with what others do in between. -/
def turn (reader : Reader) (start : Run) (others : Nat → List Action) : Nat → Turn
  | 0 => ⟨start, .newest⟩
  | k + 1 => reader.next (others k) (reader.turn start others k)

/-- A reader who asks for no more than memory can be set aside for does not break down. -/
theorem not_breaks_down (hcapacity : reader.size ≤ Page.capacity) (db : Database)
    (anchor : Anchor) : ¬ ((reader.window anchor).Exceeds ∨
      db.Overflows reader.viewer reader.channel (reader.window anchor)) := by
  have hnone : (reader.window anchor).afterScan = none := if_pos rfl
  rw [not_or]
  refine ⟨?_, Database.not_overflows_of_afterScan hnone⟩
  simp only [Window.Exceeds, window]
  omega

/-- What a reader gets of a history in which the anchor lies after the messages that are left. -/
theorem page_eq {t : Turn} (hrecorded : t.run.Recorded) (hpoisoned : t.run.shared.poisoned = false)
    (hsize : reader.size ≠ 0) (hcapacity : reader.size ≤ Page.capacity)
    (hrange : t.anchor = .newest → ∀ m ∈ t.run.shared.contents.history reader.viewer reader.channel,
      m.id.val < 0x7fffffffffffffff) :
    reader.page t = .ok (((t.run.shared.contents.history reader.viewer reader.channel).filter
      fun m ↦ t.anchor.liesAfter m.id).rtake reader.size) := by
  obtain ⟨hfits, hends⟩ :=
    not_or.1 (reader.not_breaks_down hcapacity t.run.shared.contents t.anchor)
  have hpage : reader.page t =
      t.run.shared.contents.page reader.viewer reader.channel (reader.window t.anchor) :=
    SharedDatabase.answer_read hpoisoned
  rw [hpage, page_eq_reached hrecorded.decodes, if_neg hfits, if_neg hends, Window.reached,
    Window.filter_beforeScan hsize hrange]
  simp [window]

/-- The reader is at a turn at which the history of the start has `k` pages less. -/
structure IsAt (reader : Reader) (start : Run) (k : Nat) (t : Turn) : Prop where
  recorded : t.run.Recorded
  unpoisoned : t.run.shared.poisoned = false
  sent : ∃ later, t.run.sent = start.sent ++ later
  anchor : k = 0 ∧ t.anchor = .newest ∧ t.run = start ∨
    ∃ m back, t.anchor = .message m.id ∧
      start.shared.contents.history reader.viewer reader.channel =
        (start.shared.contents.history reader.viewer reader.channel).rdrop (k * reader.size) ++
          m :: back

variable {start : Run} {k : Nat} {t : Turn}

/-- The anchor of a turn lies after what is left of the history of the start, and before all
else. -/
theorem IsAt.filter_history (h : reader.IsAt start k t) (hstart : start.Recorded)
    (hreach : start.shared.contents.SameReach reader.viewer reader.channel t.run.shared.contents) :
    (t.run.shared.contents.history reader.viewer reader.channel).filter
        (fun m ↦ t.anchor.liesAfter m.id) =
      (start.shared.contents.history reader.viewer reader.channel).rdrop (k * reader.size) := by
  rcases h.anchor with ⟨rfl, hanchor, hrun⟩ | ⟨m, back, hanchor, hsplit⟩
  · rw [hanchor, hrun, Nat.zero_mul, List.rdrop_zero]
    exact List.filter_eq_self.2 fun _ _ ↦ rfl
  · obtain ⟨more, hmore⟩ := h.sent
    obtain ⟨later, hlater⟩ := hstart.exists_history_append h.recorded hmore hreach
    have hnow : t.run.shared.contents.history reader.viewer reader.channel =
        (start.shared.contents.history reader.viewer reader.channel).rdrop (k * reader.size) ++
          m :: (back ++ later) := by
      rw [← List.cons_append, ← List.append_assoc, ← hsplit, hlater]
    rw [hanchor]
    exact filter_lt_eq_of_append Database.pairwise_history hnow

/-- At each turn the reader gets the last messages of what is left. -/
theorem IsAt.page_eq (h : reader.IsAt start k t) (hstart : start.Recorded)
    (hreach : start.shared.contents.SameReach reader.viewer reader.channel t.run.shared.contents)
    (hsize : reader.size ≠ 0) (hcapacity : reader.size ≤ Page.capacity)
    (hrange : ∀ row ∈ start.shared.contents.messages.rows, row.id.val < 0x7fffffffffffffff) :
    reader.page t =
      .ok (((start.shared.contents.history reader.viewer reader.channel).rdrop
        (k * reader.size)).rtake reader.size) := by
  have hnewest : t.anchor = .newest →
      ∀ m ∈ t.run.shared.contents.history reader.viewer reader.channel,
        m.id.val < 0x7fffffffffffffff := by
    intro hanchor m hm
    rcases h.anchor with ⟨-, -, hrun⟩ | ⟨_, _, hmessage, -⟩
    · rw [hrun] at hm
      obtain ⟨hstored, -, -⟩ := Database.get_eq_ok_iff.1 (Database.mem_history.1 hm).2
      obtain ⟨row, hrow, hdecode⟩ := Database.mem_stored.1 hstored
      rw [MessageRow.id_of_decode hdecode]
      exact hrange row hrow
    · rw [hanchor] at hmessage
      cases hmessage
  rw [Reader.page_eq h.recorded h.unpoisoned hsize hcapacity hnewest,
    h.filter_history hstart hreach]

/-- After a full page the next turn is that with one page less to go. -/
theorem IsAt.next (h : reader.IsAt start k t) {others : List Action}
    (hcapacity : reader.size ≤ Page.capacity)
    (hothers : ¬ (t.run.step
      (.list reader.viewer reader.channel (reader.window t.anchor))).BreaksDown others)
    (hpage : reader.page t =
      .ok (((start.shared.contents.history reader.viewer reader.channel).rdrop
        (k * reader.size)).rtake reader.size))
    (hsize : reader.size ≠ 0)
    (hfull : (k + 1) * reader.size ≤
      (start.shared.contents.history reader.viewer reader.channel).length) :
    reader.IsAt start (k + 1) (reader.next others t) := by
  refine ⟨Run.recorded_foldl h.recorded _, ?_, ?_, .inr ?_⟩
  · rw [← Bool.not_eq_true]
    intro hpoisoned
    rcases (Run.poisoned_foldl_iff h.recorded _).1 hpoisoned with hbefore | hbreaks
    · rw [h.unpoisoned] at hbefore
      cases hbefore
    · rcases Run.breaksDown_cons_iff.1 hbreaks with ⟨viewer, channel, w, hlist, hown⟩ | hother
      · obtain ⟨rfl, rfl, rfl⟩ := Action.list.inj hlist
        exact reader.not_breaks_down hcapacity _ _ hown
      · exact hothers hother
  · obtain ⟨more, hmore⟩ := h.sent
    obtain ⟨later, hlater⟩ := t.run.exists_sent_foldl
      (.list reader.viewer reader.channel (reader.window t.anchor) :: others)
    exact ⟨more ++ later, by rw [Reader.next, hlater, hmore, List.append_assoc]⟩
  · generalize hhistory : start.shared.contents.history reader.viewer reader.channel = history
      at hpage hfull ⊢
    have hsplit : history = history.rdrop ((k + 1) * reader.size) ++
        ((history.rdrop (k * reader.size)).rtake reader.size ++
          history.rtake (k * reader.size)) := by
      rw [← List.append_assoc, Nat.succ_mul, ← List.rdrop_add, rdrop_append_rtake,
        rdrop_append_rtake]
    cases hread : (history.rdrop (k * reader.size)).rtake reader.size with
    | nil =>
      have hlength := congrArg List.length hread
      rw [Window.length_rtake, length_rdrop, List.length_nil] at hlength
      rw [Nat.succ_mul] at hfull
      omega
    | cons m rest =>
      refine ⟨m, rest ++ history.rtake (k * reader.size), ?_, ?_⟩
      · rw [Reader.next, hpage, hread]
      · rw [hread] at hsplit
        exact hsplit

/-- As long as there are full pages, the reader goes on, and gets one more after the last. -/
theorem isAt_turn {others : Nat → List Action} (hstart : start.Recorded)
    (hunpoisoned : start.shared.poisoned = false) (hsize : reader.size ≠ 0)
    (hcapacity : reader.size ≤ Page.capacity)
    (hrange : ∀ row ∈ start.shared.contents.messages.rows, row.id.val < 0x7fffffffffffffff)
    (hothers : ∀ k, k * reader.size ≤
        (start.shared.contents.history reader.viewer reader.channel).length →
      ¬ ((reader.turn start others k).run.step (.list reader.viewer reader.channel
        (reader.window (reader.turn start others k).anchor))).BreaksDown (others k))
    (hreach : ∀ k, k * reader.size ≤
        (start.shared.contents.history reader.viewer reader.channel).length →
      start.shared.contents.SameReach reader.viewer reader.channel
        (reader.turn start others k).run.shared.contents)
    (hk : k * reader.size ≤
      (start.shared.contents.history reader.viewer reader.channel).length) :
    reader.IsAt start k (reader.turn start others k) := by
  induction k with
  | zero => exact ⟨hstart, hunpoisoned, ⟨[], (List.append_nil _).symm⟩, .inl ⟨rfl, rfl, rfl⟩⟩
  | succ k ih =>
    have hbefore : k * reader.size ≤
        (start.shared.contents.history reader.viewer reader.channel).length := by
      rw [Nat.succ_mul] at hk
      omega
    have hat := ih hbefore
    have hpage := hat.page_eq hstart (hreach k hbefore) hsize hcapacity hrange
    exact hat.next hcapacity (hothers k hbefore) hpage hsize hk

/-- What was sent after the start is not in the history of the start. -/
theorem IsAt.notMem_history (h : reader.IsAt start k t) (hstart : start.Recorded) {s : Sent}
    (hs : s ∈ t.run.sent) (hnew : s ∉ start.sent) :
    s.message ∉ start.shared.contents.history reader.viewer reader.channel := by
  rw [hstart.history_eq]
  intro hmem
  -- The message would have been sent before the start, and so would the send.
  obtain ⟨s', hs', hmessage⟩ := List.mem_map.1 (List.mem_filter.1 hmem).1
  obtain ⟨later, hlater⟩ := h.sent
  have hs'' : s' ∈ t.run.sent := by
    rw [hlater]
    exact List.mem_append_left _ hs'
  have heq := h.recorded.eq_of_id_eq hs'' hs (congrArg Message.id hmessage)
  exact hnew (heq ▸ hs')

/-- A reader goes back from the end of a channel, in any reachable state and with a size for which
memory can be set aside.  Whatever others do between the pages, as long as no page of theirs breaks
down and the groups and the subscription of the reader stay the same, there come full pages and then
a shorter one, which make up what the reader could see at the first page; nothing that was sent
later is among them. -/
theorem pages_make_up_history {actions : List Action} {others : Nat → List Action}
    {reader : Reader} (hsize : 1 ≤ reader.size)
    (hunpoisoned : (Run.of actions).shared.poisoned = false)
    (hrange : ∀ row ∈ (Run.of actions).shared.contents.messages.rows,
      row.id.val < 0x7fffffffffffffff)
    (hothers : ∀ k, k * reader.size ≤
        ((Run.of actions).shared.contents.history reader.viewer reader.channel).length →
      ¬ ((reader.turn (Run.of actions) others k).run.step (.list reader.viewer reader.channel
        (reader.window (reader.turn (Run.of actions) others k).anchor))).BreaksDown (others k))
    (hreach : ∀ k, k * reader.size ≤
        ((Run.of actions).shared.contents.history reader.viewer reader.channel).length →
      (Run.of actions).shared.contents.SameReach reader.viewer reader.channel
        (reader.turn (Run.of actions) others k).run.shared.contents) :
    let history := (Run.of actions).shared.contents.history reader.viewer reader.channel
    let turn := reader.turn (Run.of actions) others
    (Page.capacity < reader.size → reader.page (turn 0) = .error .outOfMemory) ∧
      (reader.size ≤ Page.capacity → ∃ (full : List (List Message)) (last : List Message),
        (∀ k page, (full ++ [last])[k]? = some page → reader.page (turn k) = .ok page) ∧
        (∀ page ∈ full, page.length = reader.size) ∧ last.length < reader.size ∧
        last ++ full.reverse.flatten = history ∧
        ∀ k ≤ full.length, ∀ s ∈ (turn k).run.sent, s ∉ (Run.of actions).sent →
          s.message ∉ history) ∧
      (history.Pairwise fun a b ↦ a.id < b.id) ∧
      ∀ m, m ∈ history ↔
        m.channel = some reader.channel ∧ (Run.of actions).get reader.viewer m.id = .ok m := by
  intro history turn
  have hstart := Run.recorded_of actions
  refine ⟨?_, ?_, Database.pairwise_history, ?_⟩
  · intro hcapacity
    have hpage : reader.page (turn 0) = (Run.of actions).shared.contents.page reader.viewer
        reader.channel (reader.window .newest) := SharedDatabase.answer_read hunpoisoned
    rw [hpage, page_eq_reached hstart.decodes, if_pos]
    exact .inl ⟨nofun, hcapacity⟩
  · intro hcapacity
    have hne : reader.size ≠ 0 := Nat.ne_of_gt hsize
    have hat : ∀ k, k ≤ history.length / reader.size →
        reader.IsAt (Run.of actions) k (turn k) := fun k hk ↦
      isAt_turn hstart hunpoisoned hne hcapacity hrange hothers hreach
        (Nat.mul_le_of_le_div _ _ _ hk)
    obtain ⟨full, last, hlength, hpieces, hfull, hlast, hflatten⟩ := exists_pieces history hsize
    refine ⟨full, last, ?_, hfull, hlast, hflatten, ?_⟩
    · intro k page hpage
      obtain ⟨hk, rfl⟩ := hpieces k page hpage
      exact (hat k hk).page_eq hstart (hreach k (Nat.mul_le_of_le_div _ _ _ hk)) hne hcapacity
        hrange
    · intro k hk s hs hnew
      exact (hat k (hlength ▸ hk)).notMem_history hstart hs hnew
  · intro m
    have hget : (Run.of actions).get reader.viewer m.id =
        (Run.of actions).shared.contents.get reader.viewer m.id :=
      SharedDatabase.answer_read hunpoisoned
    rw [Database.mem_history, hget]

end Reader

/-- The sample with a message to the channel and a whisper to user 3 and the group. -/
def talkActions : List Action :=
  sampleActions ++
    [.send [] .epoch (.small 1) { sampleRequest with whisperUsers := [], whisperGroups := [] },
      .send [] .epoch (.small 1) sampleRequest]

/-- User 1 goes on whispering to user 2, and the rest changes around user 2. -/
def otherActions : Nat → List Action
  | 0 => [.send [] .epoch (.small 1) { sampleRequest with whisperUsers := [.small 2] },
      .createGroup "night" [.small 3], .send [] .epoch (.small 3) sampleRequest]
  | 1 => [.deleteGroup (.small 2), .unsubscribe (.small 1) (.small 1)]
  | _ => []

/-- User 2, who reads a message at a time. -/
def sampleReader : Reader := ⟨.small 2, .small 1, 1⟩

/-- User 2 gets the two messages of the start on a page each, and then an empty page. -/
theorem pages_make_up_history_talk :
    ∃ full : List (List Message), full.length = 2 ∧ (∀ page ∈ full, page.length = 1) ∧
      (∀ k page, (full ++ [[]])[k]? = some page →
        sampleReader.page (sampleReader.turn (Run.of talkActions) otherActions k) = .ok page) ∧
      full.reverse.flatten =
        (Run.of talkActions).shared.contents.history (.small 2) (.small 1) := by
  have hunpoisoned : (Run.of talkActions).shared.poisoned = false := by decide +kernel
  have hrange : ∀ row ∈ (Run.of talkActions).shared.contents.messages.rows,
      row.id.val < 0x7fffffffffffffff := by decide +kernel
  have hothers : ∀ (r : Run) k, ¬ r.BreaksDown (otherActions k) := by
    intro r k
    apply Run.not_breaksDown
    intro viewer channel w hmem
    match k with
    | 0 => simp [otherActions] at hmem
    | 1 => simp [otherActions] at hmem
    | k + 2 => simp [otherActions] at hmem
  have hlength :
      ((Run.of talkActions).shared.contents.history (.small 2) (.small 1)).length = 2 := by
    decide +kernel
  have hreach : ∀ k, k * sampleReader.size ≤ ((Run.of talkActions).shared.contents.history
        sampleReader.viewer sampleReader.channel).length →
      (Run.of talkActions).shared.contents.SameReach sampleReader.viewer sampleReader.channel
        (sampleReader.turn (Run.of talkActions) otherActions k).run.shared.contents := by
    intro k hk
    change k * 1 ≤ ((Run.of talkActions).shared.contents.history (.small 2) (.small 1)).length at hk
    rw [hlength, Nat.mul_one] at hk
    match k, hk with
    | 0, _ => exact ⟨by decide +kernel, by decide +kernel⟩
    | 1, _ => exact ⟨by decide +kernel, by decide +kernel⟩
    | 2, _ => exact ⟨by decide +kernel, by decide +kernel⟩
  have hsize : 1 ≤ sampleReader.size := Nat.le_refl 1
  obtain ⟨-, hpages, -⟩ :=
    Reader.pages_make_up_history hsize hunpoisoned hrange (fun k _ ↦ hothers _ k) hreach
  obtain ⟨full, last, hturns, hfull, hlast, hflatten, -⟩ := hpages (by decide)
  obtain rfl : last = [] := List.eq_nil_of_length_eq_zero (Nat.lt_one_iff.1 hlast)
  refine ⟨full, ?_, hfull, hturns, hflatten⟩
  have htotal : full.reverse.flatten.length = 2 := by
    rw [← hlength]
    exact congrArg List.length hflatten
  have hones : full.map List.length = List.replicate full.length 1 :=
    List.map_eq_replicate_iff.2 hfull
  rw [List.length_flatten, List.map_reverse, List.sum_reverse, hones, List.sum_replicate_nat,
    Nat.mul_one] at htotal
  exact htotal

end WhisperChat
