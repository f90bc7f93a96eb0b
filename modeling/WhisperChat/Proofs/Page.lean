import Mathlib.Data.List.DropRight
import Mathlib.Data.List.Sort
import WhisperChat.Page
import WhisperChat.Proofs.Walk

/-!
# What a page holds

The messages of a channel that a viewer gets one by one make up the viewer's history of the channel.
A page is a part of it on either side of the anchor (`page_eq_reached`), whatever hidden messages
lie between and however the batches fall.  A count for which no memory can be set aside breaks the
request down instead, and so does a walk that would have to count on from the greatest identifier.
-/

namespace WhisperChat

open Work

/-! ## Settling a batch -/

def Database.contextOf (db : Database) (viewer : UserId) (channel : ChannelId) : ViewerContext where
  viewer
  channel
  groups := db.groupsOf viewer
  subscribed := db.isSubscribed channel viewer

theorem yields_load (db : Database) (viewer : UserId) (channel : ChannelId) :
    (ViewerContext.load viewer channel).Yields [] db (db.contextOf viewer channel) db := by
  simp [ViewerContext.load, yields_ask_iff, Call.answer, Database.contextOf]

variable {db : Database} {viewer : UserId} {channel : ChannelId}

/-- The context and the index rows of a batch settle what the tables grant, for the messages of the
channel and for those whose visibility does not rest on a subscription. -/
theorem sees_contextOf {rows : IdentSet .message} {m : Message}
    (hrows : m.needsRow = true → (m.id ∈ rows ↔ db.hasVisibilityRow m.id viewer = true)) :
    (db.contextOf viewer channel).sees rows m =
      (db.grants viewer m && (m.needsRow || m.channel = some channel)) := by
  unfold ViewerContext.sees isVisible ViewerContext.access Database.contextOf Id.run
  rcases hw : m.whisper with _ | d
  · rcases hc : m.channel with _ | c
    · have hneeds : m.needsRow = true := by simp [Message.needsRow, hc]
      rw [Database.grants_direct hw hc, hneeds, Bool.true_or, Bool.and_true, Bool.eq_iff_iff,
        ← hrows hneeds]
      simp
    · have hneeds : m.needsRow = false := by simp [Message.needsRow, hw, hc]
      rw [Database.grants_ordinary hw hc, hneeds, Bool.false_or]
      by_cases heq : c = channel
      · simp [heq]
      · simp [heq]
  · have hneeds : m.needsRow = true := by simp [Message.needsRow, hw]
    have hrow : decide (m.id ∈ rows) = db.hasVisibilityRow m.id viewer := by
      rw [Bool.eq_iff_iff, decide_eq_true_eq]
      exact hrows hneeds
    rw [Database.grants_whisper hw, hneeds, Bool.true_or, Bool.and_true]
    simp only [decide_true, Bool.true_and, hrow]
    rcases hvisible : db.hasVisibilityRow m.id viewer with _ | _
    · rcases hempty : d.groups.isEmpty with _ | _
      · rfl
      · rw [IdentSet.meets_eq_false_of_isEmpty hempty]
        rfl
    · rfl

/-- One question about the index settles a whole list of messages. -/
theorem yields_filterVisible (candidates : List Message) :
    (filterVisible (db.contextOf viewer channel) candidates).Yields [] db
      (candidates.filter fun m ↦ db.grants viewer m && (m.needsRow || m.channel = some channel))
      db := by
  unfold filterVisible
  split
  case h_1 hnone =>
    rw [List.map_eq_nil_iff, List.filter_eq_nil_iff] at hnone
    simp only [yields_pure_iff, and_true]
    apply List.filter_congr
    intro m hm
    apply sees_contextOf
    intro hneeds
    exact absurd hneeds (hnone m hm)
  case h_2 =>
    simp only [yields_bind_iff, yields_ask_iff, Call.answer, yields_pure_iff]
    refine ⟨_, db, ⟨List.not_mem_nil, rfl⟩, ?_, rfl⟩
    apply List.filter_congr
    intro m hm
    apply sees_contextOf
    intro hneeds
    have hasked : m.id ∈ (candidates.filter Message.needsRow).map Message.id :=
      List.mem_map_of_mem (List.mem_filter.2 ⟨hm, hneeds⟩)
    rw [Database.visibilityRowsAmong, IdentSet.mem_ofList, List.mem_filter]
    exact and_iff_right hasked

theorem within_filterVisible {failures : Failure → Prop} (context : ViewerContext)
    (candidates : List Message) :
    Within (·.isFor context.viewer = true) failures (filterVisible context candidates) := by
  unfold filterVisible
  split
  · exact within_pure _
  · refine Within.bind (within_ask (decide_eq_true rfl)) ?_
    exact fun _ ↦ within_pure _

/-! ## Walking batch by batch -/

theorem yields_channelWindow (hdecodes : db.Decodes) (channel : ChannelId) (scan : Scan)
    (limit : Nat) :
    (ask (.channelWindow channel scan limit)).Yields [] db
      ((db.walked channel scan).take limit) db := by
  simp [yields_ask_iff, Call.answer, Database.channelWindow_eq hdecodes]

/-- In a batch of the channel, those the viewer sees are those that the tables grant. -/
theorem yields_filterVisible_walked {scan : Scan} (n : Nat) :
    (filterVisible (db.contextOf viewer channel) ((db.walked channel scan).take n)).Yields [] db
      (((db.walked channel scan).take n).filter (db.grants viewer)) db := by
  have hgranted : ((db.walked channel scan).take n).filter (db.grants viewer) =
      ((db.walked channel scan).take n).filter
        fun m ↦ db.grants viewer m && (m.needsRow || m.channel = some channel) := by
    apply List.filter_congr
    intro m hm
    have hchannel := (Database.mem_walked.1 (List.mem_of_mem_take hm)).2.1
    simp [hchannel]
  rw [hgranted]
  exact yields_filterVisible _

namespace Page

/-- Taking what is still wanted from a first and then from a second part. -/
theorem append_take_append {α : Type} (found first second : List α) (want : Nat) :
    found ++ first.take (want - found.length) ++
        second.take (want - (found ++ first.take (want - found.length)).length) =
      found ++ (first ++ second).take (want - found.length) := by
  have hstill : want - (found ++ first.take (want - found.length)).length =
      want - found.length - first.length := by
    rw [List.length_append, List.length_take]
    omega
  calc
    found ++ first.take (want - found.length) ++
          second.take (want - (found ++ first.take (want - found.length)).length) =
        found ++ (first.take (want - found.length) ++
          second.take (want - found.length - first.length)) := by rw [hstill, List.append_assoc]
    _ = found ++ (first ++ second).take (want - found.length) := by rw [List.take_append]

/-- Whether a walk that comes past the messages of `way`, in this order, fetches a full batch that
ends with the greatest identifier: they make up full batches, and fewer than are wanted of those
before the last batch are seen. -/
def Overflows (sees : Message → Bool) (way : List Message) (want : Nat) : Prop :=
  way.getLast?.map Message.id = some (.greatest .message) ∧ batchSize ∣ way.length ∧
    (way.rdrop batchSize).countP sees < want

instance (sees : Message → Bool) (way : List Message) (want : Nat) :
    Decidable (Overflows sees way want) := inferInstanceAs (Decidable (_ ∧ _ ∧ _))

section Overflows

variable {sees sees' : Message → Bool} {way : List Message} {want : Nat} {last : Message}

theorem not_overflows_of_lt (h : ∀ m ∈ way, m.id.val < 0x7fffffffffffffff) :
    ¬ Overflows sees way want := by
  rintro ⟨hgreatest, -⟩
  obtain ⟨m, hlast, hid⟩ := Option.map_eq_some_iff.1 hgreatest
  have hlt := h m (List.mem_of_getLast? hlast)
  rw [hid] at hlt
  exact absurd hlt (by decide)

theorem not_overflows_of_length_lt (h : way.length < batchSize) : ¬ Overflows sees way want := by
  rintro ⟨hgreatest, hfull, -⟩
  have hnil : way = [] := List.eq_nil_of_length_eq_zero (Nat.eq_zero_of_dvd_of_lt hfull h)
  simp [hnil] at hgreatest

theorem overflows_congr (h : ∀ m ∈ way, sees m = sees' m) :
    Overflows sees way want ↔ Overflows sees' way want := by
  have hcount : (way.rdrop batchSize).countP sees = (way.rdrop batchSize).countP sees' :=
    List.countP_congr fun m hm ↦ by rw [h m (List.mem_of_mem_take hm)]
  rw [Overflows, Overflows, hcount]

theorem countP_rdrop (sees : Message → Bool) {n : Nat} (h : n + n ≤ way.length) :
    (way.rdrop n).countP sees =
      (way.take n).countP sees + ((way.drop n).rdrop n).countP sees := by
  have hlength : way.length - n = n + ((way.drop n).length - n) := by
    rw [List.length_drop]
    omega
  rw [List.rdrop, hlength, List.take_add, List.countP_append, List.rdrop]

/-- After a full batch that ends with the greatest identifier the walk cannot go on. -/
theorem overflows_of_last (hlast : (way.take batchSize).getLast? = some last)
    (hgreatest : last.id = .greatest .message) (hlength : way.length = batchSize)
    (hwant : want ≠ 0) : Overflows sees way want := by
  rw [List.take_of_length_le hlength.le] at hlast
  refine ⟨by rw [hlast, Option.map_some, hgreatest], hlength ▸ Nat.dvd_refl _, ?_⟩
  rw [List.rdrop, hlength, Nat.sub_self, List.take_zero]
  exact Nat.pos_of_ne_zero hwant

/-- After any other full batch it rests with what the batch has left over. -/
theorem overflows_iff_drop (sees : Message → Bool) (want : Nat)
    (hlast : (way.take batchSize).getLast? = some last) (hbelow : last.id ≠ .greatest .message)
    (hfull : batchSize ≤ way.length) :
    Overflows sees way want ↔
      Overflows sees (way.drop batchSize) (want - (way.take batchSize).countP sees) := by
  rcases Nat.eq_or_lt_of_le hfull with hlength | hmore
  · -- The batch is all there is, and it ends lower.
    rw [List.take_of_length_le hlength.ge] at hlast
    rw [List.drop_of_length_le hlength.ge]
    refine iff_of_false ?_ (not_overflows_of_length_lt (by decide))
    rintro ⟨hgreatest, -⟩
    rw [hlast, Option.map_some, Option.some_inj] at hgreatest
    exact hbelow hgreatest
  · have hend : (way.drop batchSize).getLast? = way.getLast? := by
      rw [List.getLast?_drop, if_neg (Nat.not_le.2 hmore)]
    have hwhole : batchSize ∣ (way.drop batchSize).length ↔ batchSize ∣ way.length := by
      rw [List.length_drop]
      exact (Nat.dvd_sub_iff_left hfull (Nat.dvd_refl _))
    rw [Overflows, Overflows, hend, hwhole]
    refine and_congr_right fun _ ↦ and_congr_right fun hdvd ↦ ?_
    have htwice : batchSize + batchSize ≤ way.length := by
      simp only [batchSize] at hdvd hmore ⊢
      omega
    rw [countP_rdrop sees htwice]
    omega

end Overflows

theorem within_walk (context : ViewerContext) (want rounds : Nat) (scan : Scan)
    (found : List Message) :
    Within (·.isFor context.viewer = true) (· = .overflow)
      (walk context want rounds scan found) := by
  induction rounds generalizing scan found with
  | zero => exact within_pure _
  | succ rounds ih =>
    unfold walk
    split
    · exact within_pure _
    refine Within.bind (within_ask rfl) ?_
    intro batch
    split
    · exact within_pure _
    apply (within_filterVisible _ _).bind
    intro visible
    split
    · exact within_pure _
    split
    · exact .fail rfl
    · exact ih _ _

/-- A walk with rounds enough brings the first messages of all that lie on the way and are granted,
after those that it has found before, unless it cannot count on. -/
theorem answer_walk (hdecodes : db.Decodes) (viewer : UserId) (want : Nat) {rounds : Nat}
    {scan : Scan} (found : List Message) (hrounds : (db.walked channel scan).length < rounds) :
    ((walk (db.contextOf viewer channel) want rounds scan found).run [] db).answer =
      if Overflows (db.grants viewer) (db.walked channel scan) (want - found.length) then
        .error .overflow
      else
        .ok (found ++ ((db.walked channel scan).filter (db.grants viewer)).take
          (want - found.length)) := by
  -- A round takes a batch off the walk, and what the batch leaves over is the walk that follows.
  induction rounds generalizing scan found with
  | zero => omega
  | succ rounds ih =>
    unfold walk
    by_cases henough : want ≤ found.length
    · have hnone : want - found.length = 0 := Nat.sub_eq_zero_of_le henough
      have hfits : ¬ Overflows (db.grants viewer) (db.walked channel scan) 0 :=
        fun h ↦ Nat.not_lt_zero _ h.2.2
      rw [if_pos henough, hnone, if_neg hfits, List.take_zero, List.append_nil]
      rfl
    have hwindow : (ask (.channelWindow (db.contextOf viewer channel).channel scan
        batchSize)).Yields [] db ((db.walked channel scan).take batchSize) db :=
      yields_channelWindow hdecodes channel scan batchSize
    rw [if_neg henough, answer_bind_of_yields hwindow]
    cases hlast : ((db.walked channel scan).take batchSize).getLast? with
    | none =>
      have hempty : db.walked channel scan = [] := by
        rw [List.getLast?_eq_none_iff, List.take_eq_nil_iff] at hlast
        exact hlast.resolve_left (by decide)
      have hfits : ¬ Overflows (db.grants viewer) [] (want - found.length) :=
        not_overflows_of_length_lt (by decide)
      simp only [hempty, if_neg hfits, List.filter_nil, List.take_nil, List.append_nil]
      rfl
    | some last =>
      simp only
      rw [answer_bind_of_yields (yields_filterVisible_walked batchSize)]
      split
      case isTrue hshort =>
        -- A short batch is all there is.
        have hless : (db.walked channel scan).length < batchSize := by
          rw [List.length_take] at hshort
          omega
        rw [List.take_of_length_le hless.le, if_neg (not_overflows_of_length_lt hless)]
        rfl
      case isFalse hfull =>
        have hbatch : batchSize ≤ (db.walked channel scan).length := by
          rw [List.length_take] at hfull
          omega
        have hcovers := (Database.mem_walked.1
          (List.mem_of_mem_take (List.mem_of_getLast? hlast))).2.2
        have hcontinue := Database.walked_continueAfter hlast
        cases hnext : scan.continueAfter last.id with
        | none =>
          simp only [hnext] at hcontinue
          have hlength : (db.walked channel scan).length = batchSize :=
            Nat.le_antisymm (List.drop_eq_nil_iff.1 hcontinue) hbatch
          rw [if_pos (overflows_of_last hlast (Scan.eq_greatest_of_continueAfter_eq_none hnext)
            hlength (by omega))]
          rfl
        | some next =>
          simp only [hnext] at hcontinue
          have hrest : (db.walked channel next).length < rounds := by
            rw [hcontinue, List.length_drop]
            have hpositive : 0 < batchSize := by decide
            omega
          have hsplit : ((db.walked channel scan).take batchSize).filter (db.grants viewer) ++
              ((db.walked channel scan).drop batchSize).filter (db.grants viewer) =
                (db.walked channel scan).filter (db.grants viewer) := by
            rw [← List.filter_append, List.take_append_drop]
          have hstill : want - (found ++ (((db.walked channel scan).take batchSize).filter
              (db.grants viewer)).take (want - found.length)).length =
                want - found.length -
                  ((db.walked channel scan).take batchSize).countP (db.grants viewer) := by
            rw [List.length_append, List.length_take, List.countP_eq_length_filter]
            omega
          have hoverflows := overflows_iff_drop (db.grants viewer) (want - found.length) hlast
            (Scan.ne_greatest_of_continueAfter hcovers hnext) hbatch
          simp only
          rw [ih _ hrest, hcontinue, append_take_append, hsplit, hstill,
            if_congr hoverflows.symm rfl rfl]

end Page

/-! ## Reading alone -/

namespace Page

theorem within_side (context : ViewerContext) (scan : Option Scan) (want : Nat) :
    Within (·.isFor context.viewer = true) (fun _ ↦ True) (side context scan want) := by
  unfold side scanVisible
  split
  · exact within_pure _
  · split
    · exact .fail trivial
    · exact (within_walk _ _ _ _ _).mono (fun _ ↦ id) fun _ _ ↦ trivial

end Page

theorem within_load {failures : Failure → Prop} (viewer : UserId) (channel : ChannelId) :
    Within (·.isQuestion = true) failures (ViewerContext.load viewer channel) := by
  refine Within.bind (within_ask rfl) fun _ ↦ ?_
  refine Within.bind (within_ask rfl) ?_
  exact fun _ ↦ within_pure _

/-- A viewer who asks for a page asks about nobody else. -/
theorem within_isFor_listMessages (viewer : UserId) (channel : ChannelId) (w : Window) :
    Within (·.isFor viewer = true) (fun _ ↦ True) (listMessages viewer channel w) := by
  unfold listMessages ViewerContext.load
  simp only [bind_assoc, pure_bind]
  refine Within.bind (within_ask (decide_eq_true rfl)) fun groups ↦ ?_
  refine Within.bind (within_ask (decide_eq_true rfl)) fun subscribed ↦ ?_
  apply (Page.within_side ⟨viewer, channel, groups, subscribed⟩ _ _).bind
  intro _
  exact (Page.within_side ⟨viewer, channel, groups, subscribed⟩ _ _).bind fun _ ↦ within_pure _

theorem within_listMessages (viewer : UserId) (channel : ChannelId) (w : Window) :
    Within (·.isQuestion = true) (fun _ ↦ True) (listMessages viewer channel w) :=
  (within_isFor_listMessages viewer channel w).questions

/-! ## The viewer's history -/

namespace Database

/-- The messages of a channel that the viewer gets one by one, in ascending order. -/
def history (db : Database) (viewer : UserId) (channel : ChannelId) : List Message :=
  (db.messages.rows.filterMap fun row ↦ (db.get viewer row.id).toOption).filter fun m ↦
    m.channel = some channel

theorem mem_history {m : Message} :
    m ∈ db.history viewer channel ↔ m.channel = some channel ∧ db.get viewer m.id = .ok m := by
  simp only [history, List.mem_filter, List.mem_filterMap, toOption_eq_some_iff,
    decide_eq_true_eq, get_eq_ok_iff]
  constructor
  · rintro ⟨⟨row, -, hm, -, hgrants⟩, hchannel⟩
    exact ⟨hchannel, hm, trivial, hgrants⟩
  · rintro ⟨hchannel, hm, -, hgrants⟩
    obtain ⟨row, hrow, hdecode⟩ := mem_stored.1 hm
    exact ⟨⟨row, hrow, hm, MessageRow.id_of_decode hdecode, hgrants⟩, hchannel⟩

theorem pairwise_history : (db.history viewer channel).Pairwise fun a b ↦ a.id < b.id := by
  apply List.Pairwise.filter
  refine List.Pairwise.filterMap _ ?_ db.messages.ascending
  intro row row' hlt m hm m' hm'
  rw [toOption_eq_some_iff, get_eq_ok_iff] at hm hm'
  rw [hm.2.1, hm'.2.1]
  exact hlt

/-- An ascending list of messages is settled by its members. -/
theorem eq_of_mem_iff {l l' : List Message} (h : l.Pairwise fun a b ↦ a.id < b.id)
    (h' : l'.Pairwise fun a b ↦ a.id < b.id) (hmem : ∀ m, m ∈ l ↔ m ∈ l') : l = l' := by
  have : Std.Irrefl fun a b : Message ↦ a.id < b.id := ⟨fun m ↦ Ident.lt_irrefl m.id⟩
  have : Std.Antisymm fun a b : Message ↦ a.id < b.id :=
    ⟨fun _ _ hlt hgt ↦ absurd hgt (Ident.lt_asymm hlt)⟩
  exact List.Pairwise.eq_of_mem_iff h h' hmem

theorem filter_stored :
    (db.stored.filter fun m ↦ db.grants viewer m && m.channel = some channel) =
      db.history viewer channel := by
  apply eq_of_mem_iff (db.pairwise_stored.filter _) pairwise_history
  intro m
  rw [mem_history, get_eq_ok_iff]
  simp only [List.mem_filter, Bool.and_eq_true, decide_eq_true_eq, true_and]
  tauto

theorem filter_walked (scan : Scan) :
    (db.walked channel scan).filter (db.grants viewer) =
      scan.order ((db.history viewer channel).filter fun m ↦ scan.covers m.id) := by
  have hboth : (db.stored.filter fun m ↦ m.channel = some channel && scan.covers m.id).filter
      (db.grants viewer) = (db.history viewer channel).filter fun m ↦ scan.covers m.id := by
    rw [← filter_stored, List.filter_filter, List.filter_filter]
    apply List.filter_congr
    intro m _
    rw [Bool.eq_iff_iff]
    simp only [Bool.and_eq_true]
    tauto
  calc
    (db.walked channel scan).filter (db.grants viewer) =
        scan.order ((db.stored.filter fun m ↦ m.channel = some channel && scan.covers m.id).filter
          (db.grants viewer)) := by rw [walked, ← Scan.order_filter]
    _ = scan.order ((db.history viewer channel).filter fun m ↦ scan.covers m.id) := by rw [hboth]

end Database

/-! ## Pages -/

namespace Page

/-- A side of which no more is wanted than memory can be set aside for is walked. -/
theorem answer_side (hdecodes : db.Decodes) (viewer : UserId) (channel : ChannelId) (scan : Scan)
    {want : Nat} (hwant : ¬ capacity < want) :
    ((side (db.contextOf viewer channel) (some scan) want).run [] db).answer =
      if Overflows (· ∈ db.history viewer channel) (db.walked channel scan) want then
        .error .overflow
      else
        .ok ((scan.order ((db.history viewer channel).filter fun m ↦ scan.covers m.id)).take
          want) := by
  have hrounds : (db.walked channel scan).length < scan.width + 1 :=
    Nat.lt_succ_of_le Database.length_walked_le
  have hwalk := answer_walk hdecodes viewer want [] hrounds
  have hsees : ∀ m ∈ db.walked channel scan,
      db.grants viewer m = decide (m ∈ db.history viewer channel) := by
    intro m hm
    obtain ⟨hstored, hchannel, -⟩ := Database.mem_walked.1 hm
    rw [Bool.eq_iff_iff, decide_eq_true_eq, Database.mem_history, Database.get_eq_ok_iff]
    simp [hstored, hchannel]
  rw [Database.filter_walked] at hwalk
  simpa [side, scanVisible, hwant, overflows_congr hsees] using hwalk

theorem answer_side_of_lt (context : ViewerContext) (scan : Scan) {want : Nat}
    (hwant : capacity < want) :
    ((side context (some scan) want).run [] db).answer = .error .outOfMemory := by
  simp [side, scanVisible, hwant, run]

end Page

namespace Window

/-- Whether a side of the page is walked and asks for more than memory can be set aside for. -/
def Exceeds (w : Window) : Prop :=
  w.anchor ≠ .oldest ∧ Page.capacity < w.before ∨ w.anchor ≠ .newest ∧ Page.capacity < w.after

instance (w : Window) : Decidable w.Exceeds := inferInstanceAs (Decidable (_ ∨ _))

/-- The part of a history that the two walks of a window bring. -/
def reached (w : Window) (history : List Message) : List Message :=
  (history.filter fun m ↦ w.beforeScan.any fun scan ↦ scan.covers m.id).rtake w.before ++
    (history.filter fun m ↦ w.afterScan.any fun scan ↦ scan.covers m.id).take w.after

theorem exceeds_before {w : Window} {scan : Scan} (hscan : w.beforeScan = some scan)
    (hwant : Page.capacity < w.before) : w.Exceeds := by
  left
  refine ⟨?_, hwant⟩
  intro hanchor
  simp [beforeScan, hanchor] at hscan

theorem exceeds_after {w : Window} {scan : Scan} (hscan : w.afterScan = some scan)
    (hwant : Page.capacity < w.after) : w.Exceeds := by
  right
  refine ⟨?_, hwant⟩
  intro hanchor
  simp [afterScan, hanchor] at hscan

theorem exists_scan_of_exceeds {w : Window} (h : w.Exceeds) :
    (∃ scan, w.beforeScan = some scan ∧ Page.capacity < w.before) ∨
      ∃ scan, w.afterScan = some scan ∧ Page.capacity < w.after := by
  rcases h with ⟨hanchor, hwant⟩ | ⟨hanchor, hwant⟩
  · have hsome : w.before ≠ 0 := by omega
    left
    unfold beforeScan
    rw [if_neg hsome]
    cases hw : w.anchor with
    | oldest => exact absurd hw hanchor
    | newest => exact ⟨_, rfl, hwant⟩
    | message id => exact ⟨_, rfl, hwant⟩
  · have hsome : w.after ≠ 0 := by omega
    right
    unfold afterScan
    rw [if_neg hsome]
    cases hw : w.anchor with
    | oldest => exact ⟨_, rfl, hwant⟩
    | newest => exact absurd hw hanchor
    | message id => exact ⟨_, rfl, hwant⟩

/-- The walk before the anchor is a walk backwards, which stays below the greatest identifier. -/
theorem exists_bound {w : Window} {scan : Scan} (h : w.beforeScan = some scan) :
    ∃ bound, scan = .before bound := by
  unfold beforeScan at h
  split at h
  · cases h
  · cases hw : w.anchor <;> rw [hw] at h <;> cases h <;> exact ⟨_, rfl⟩

theorem order_beforeScan {α : Type} {w : Window} {scan : Scan} (h : w.beforeScan = some scan)
    (l : List α) : scan.order l = l.reverse := by
  obtain ⟨bound, rfl⟩ := exists_bound h
  rfl

theorem order_afterScan {α : Type} {w : Window} {scan : Scan} (h : w.afterScan = some scan)
    (l : List α) : scan.order l = l := by
  unfold afterScan at h
  split at h
  · cases h
  · cases hw : w.anchor <;> rw [hw] at h <;> cases h <;> rfl

end Window

namespace Database

def page (db : Database) (viewer : UserId) (channel : ChannelId) (w : Window) :
    Except Failure (List Message) :=
  ((listMessages viewer channel w).run [] db).answer

/-- Whether the walk through what lies after the anchor comes to the end of the identifiers with a
full batch, while it still wants messages. -/
def Overflows (db : Database) (viewer : UserId) (channel : ChannelId) (w : Window) : Prop :=
  ∃ scan ∈ w.afterScan,
    Page.Overflows (· ∈ db.history viewer channel) (db.walked channel scan) w.after

instance (db : Database) (viewer : UserId) (channel : ChannelId) (w : Window) :
    Decidable (db.Overflows viewer channel w) := inferInstanceAs (Decidable (∃ _ ∈ _, _))

variable {w : Window}

/-- The walk after the anchor can only come to the end of the identifiers where the greatest one has
been given out in the channel. -/
theorem Overflows.exists_greatest (h : db.Overflows viewer channel w) :
    ∃ m ∈ db.stored, m.channel = some channel ∧ m.id = .greatest .message := by
  obtain ⟨scan, -, hgreatest, -⟩ := h
  obtain ⟨m, hlast, hid⟩ := Option.map_eq_some_iff.1 hgreatest
  obtain ⟨hstored, hchannel, -⟩ := mem_walked.1 (List.mem_of_getLast? hlast)
  exact ⟨m, hstored, hchannel, hid⟩

theorem not_overflows_of_lt (hrange : ∀ row ∈ db.messages.rows, row.id.val < 0x7fffffffffffffff) :
    ¬ db.Overflows viewer channel w := by
  intro h
  obtain ⟨m, hstored, -, hid⟩ := h.exists_greatest
  obtain ⟨row, hrow, hdecode⟩ := mem_stored.1 hstored
  have hlt := hrange row hrow
  rw [← MessageRow.id_of_decode hdecode, hid] at hlt
  exact absurd hlt (by decide)

theorem not_overflows_of_afterScan (h : w.afterScan = none) : ¬ db.Overflows viewer channel w := by
  rintro ⟨scan, hscan, -⟩
  rw [h] at hscan
  cases hscan

end Database

namespace Page

theorem yields_of_answer {context : ViewerContext} {scan : Option Scan} {want : Nat}
    {found : List Message} (h : ((side context scan want).run [] db).answer = .ok found) :
    (side context scan want).Yields [] db found db :=
  ⟨h, (within_side context scan want).questions.database_eq [] db⟩

theorem yields_before (hdecodes : db.Decodes) (viewer : UserId) (channel : ChannelId) {w : Window}
    (hw : ∀ scan, w.beforeScan = some scan → ¬ capacity < w.before) :
    ∃ found, (side (db.contextOf viewer channel) w.beforeScan w.before).Yields [] db found db ∧
      found.reverse = ((db.history viewer channel).filter fun m ↦
        w.beforeScan.any fun scan ↦ scan.covers m.id).rtake w.before := by
  cases hscan : w.beforeScan with
  | none => exact ⟨[], by simp [side], by simp⟩
  | some scan =>
    obtain ⟨bound, rfl⟩ := Window.exists_bound hscan
    have hbelow : ∀ m ∈ db.walked channel (.before bound), m.id.val < 0x7fffffffffffffff :=
      fun m hm ↦ Scan.lt_of_covers_before (Database.mem_walked.1 hm).2.2
    have hanswer := answer_side hdecodes viewer channel (.before bound) (hw _ hscan)
    rw [if_neg (not_overflows_of_lt hbelow)] at hanswer
    refine ⟨_, yields_of_answer hanswer, ?_⟩
    rw [List.rtake_eq_reverse_take_reverse]
    rfl

theorem answer_after (hdecodes : db.Decodes) (viewer : UserId) (channel : ChannelId) {w : Window}
    (hw : ∀ scan, w.afterScan = some scan → ¬ capacity < w.after) :
    ((side (db.contextOf viewer channel) w.afterScan w.after).run [] db).answer =
      if db.Overflows viewer channel w then .error .overflow
      else .ok (((db.history viewer channel).filter fun m ↦
        w.afterScan.any fun scan ↦ scan.covers m.id).take w.after) := by
  cases hscan : w.afterScan with
  | none =>
    rw [if_neg (Database.not_overflows_of_afterScan hscan)]
    simp [side, run, pure]
  | some scan =>
    have hoverflows : db.Overflows viewer channel w ↔
        Overflows (· ∈ db.history viewer channel) (db.walked channel scan) w.after := by
      simp [Database.Overflows, hscan]
    rw [answer_side hdecodes viewer channel scan (hw scan hscan), Window.order_afterScan hscan,
      if_congr hoverflows rfl rfl]
    rfl

end Page

/-- Where all rows can be read, a page is settled by the viewer's history. -/
theorem page_eq_reached (hdecodes : db.Decodes) (viewer : UserId) (channel : ChannelId)
    (w : Window) :
    db.page viewer channel w =
      if w.Exceeds then .error .outOfMemory
      else if db.Overflows viewer channel w then .error .overflow
      else .ok (w.reached (db.history viewer channel)) := by
  unfold Database.page listMessages
  rw [answer_bind_of_yields (yields_load db viewer channel)]
  by_cases hbefore : ∃ scan, w.beforeScan = some scan ∧ Page.capacity < w.before
  · obtain ⟨scan, hscan, hwant⟩ := hbefore
    rw [if_pos (Window.exceeds_before hscan hwant), hscan]
    exact answer_bind_of_error (Page.answer_side_of_lt _ scan hwant)
  have hfits : ∀ scan, w.beforeScan = some scan → ¬ Page.capacity < w.before :=
    fun scan hscan hwant ↦ hbefore ⟨scan, hscan, hwant⟩
  obtain ⟨found, hfound, hreverse⟩ := Page.yields_before hdecodes viewer channel hfits
  rw [answer_bind_of_yields hfound]
  by_cases hafter : ∃ scan, w.afterScan = some scan ∧ Page.capacity < w.after
  · obtain ⟨scan, hscan, hwant⟩ := hafter
    rw [if_pos (Window.exceeds_after hscan hwant), hscan]
    exact answer_bind_of_error (Page.answer_side_of_lt _ scan hwant)
  have hw : ¬ w.Exceeds := fun h ↦ (Window.exists_scan_of_exceeds h).elim hbefore hafter
  have hanswer := Page.answer_after hdecodes viewer channel
    fun scan hscan hwant ↦ hafter ⟨scan, hscan, hwant⟩
  rw [if_neg hw]
  by_cases hoverflows : db.Overflows viewer channel w
  · rw [if_pos hoverflows] at hanswer ⊢
    exact answer_bind_of_error hanswer
  · rw [if_neg hoverflows] at hanswer ⊢
    rw [answer_bind_of_yields (Page.yields_of_answer hanswer), hreverse]
    rfl

/-- A page breaks down just where a side asks for too much, or its walk cannot count on. -/
theorem page_breaks_down_iff (hdecodes : db.Decodes) (viewer : UserId) (channel : ChannelId)
    (w : Window) :
    (∃ failure, db.page viewer channel w = .error failure ∧ failure.isBreakdown = true) ↔
      w.Exceeds ∨ db.Overflows viewer channel w := by
  rw [page_eq_reached hdecodes]
  split
  case isTrue hexceeds => simp [hexceeds, Failure.isBreakdown]
  case isFalse hfits =>
    split
    case isTrue hoverflows => simp [hoverflows, Failure.isBreakdown]
    case isFalse hends => simp [hfits, hends]

end WhisperChat
