import WhisperChat.Proofs.Filter
import WhisperChat.Proofs.Reading

/-!
# What a page asks of the store

What the viewer can reach is asked first and once.  Then each side is walked in rounds, of which
each fetches a batch and asks at most one question about it, so that a side takes no more rounds
than there are batches to fetch (`calls_listMessages`).  A side whose count no memory can be set
aside for is not begun.
-/

namespace WhisperChat

open Work

namespace Work

variable {α β : Type} {db : Database}

/-! ## Calls on the way -/

/-- The work ends well, leaves the database as it is, and makes the calls on its way. -/
def Makes (w : Work α) (db : Database) (a : α) (calls : List Call) : Prop :=
  w.run [] db = ⟨.ok a, db, calls⟩

theorem makes_pure (a : α) : (pure a : Work α).Makes db a [] := rfl

theorem Yields.makes {w : Work α} {a : α} (h : w.Yields [] db a db) :
    w.Makes db a (w.run [] db).trace := by
  obtain ⟨hanswer, hdatabase⟩ := h
  unfold Makes
  rcases hrun : w.run [] db with ⟨answer, database, trace⟩
  simp_all

theorem Makes.yields {w : Work α} {a : α} {calls : List Call} (h : w.Makes db a calls) :
    w.Yields [] db a db := by
  rw [Yields, h]
  exact ⟨rfl, rfl⟩

theorem trace_bind_of_makes {w : Work α} {a : α} {calls : List Call} (h : w.Makes db a calls)
    (f : α → Work β) : ((w >>= f).run [] db).trace = calls ++ ((f a).run [] db).trace := by
  rw [run_bind, h]
  rfl

theorem trace_bind_of_error {w : Work α} {e : Failure} (h : (w.run [] db).answer = .error e)
    (f : α → Work β) : ((w >>= f).run [] db).trace = (w.run [] db).trace := by
  simp [run_bind, Outcome.andThen, h]

theorem Makes.bind {w : Work α} {f : α → Work β} {a : α} {b : β} {calls calls' : List Call}
    (hw : w.Makes db a calls) (hf : (f a).Makes db b calls') :
    (w >>= f).Makes db b (calls ++ calls') := by
  rw [Makes, run_bind, hw]
  simp [Outcome.andThen, show (f a).run [] db = _ from hf]

/-- A question that is answered is the first of the calls. -/
theorem Yields.makes_ask_bind {c : Call} {f : c.Result → Work β} {a : c.Result} {b : β}
    {calls : List Call} (h : (ask c).Yields [] db a db) (hf : (f a).Makes db b calls) :
    (ask c >>= f).Makes db b (c :: calls) := by
  have htrace : ((ask c).run [] db).trace = [c] := trace_ask_bind_pure id
  have hask : (ask c).Makes db a [c] := htrace ▸ h.makes
  exact hask.bind hf

end Work

namespace Scan

/-- The walk goes on right past the identifier, in its direction. -/
def GoesOn (last : MessageId) : Scan → Scan → Prop
  | before _, next => next = before (some last)
  | atOrAfter _, next => ∃ start, next = atOrAfter start ∧ start.val = last.val + 1

theorem exists_continueAfter (scan : Scan) {last : MessageId}
    (hlast : last.val < 0x7fffffffffffffff) :
    ∃ next, scan.continueAfter last = some next ∧ GoesOn last scan next := by
  cases scan with
  | before _ => exact ⟨_, rfl, rfl⟩
  | atOrAfter _ =>
    have hlow := last.le_val
    have hnext : last.next? = some ⟨last.val + 1, by omega, by omega⟩ :=
      Ident.ofInt?_eq_some_iff.2 rfl
    exact ⟨_, congrArg (Option.map atOrAfter) hnext, _, rfl, rfl⟩

end Scan

namespace Page

/-! ## Rounds -/

/-- One round of a walk: where it goes on from, and the batch that it fetches. -/
structure Round where
  scan : Scan
  batch : List Message

/-- What a round asks: for the batch, and for the index rows of the whispers in it, if there are. -/
def Round.calls (viewer : UserId) (channel : ChannelId) (r : Round) : List Call :=
  .channelWindow channel r.scan batchSize ::
    if r.batch.any Message.isWhisper then
      [.visibilityRowsAmong viewer ((r.batch.filter Message.isWhisper).map Message.id)]
    else []

/-- The rounds in which a walk through the messages of a side, in their order, comes to the messages
that are wanted of those that are seen. -/
structure Rounds (sees : Message → Bool) (want : Nat) (scan : Scan) (side : List Message)
    (rounds : List Round) : Prop where
  begins : rounds.head?.map Round.scan = some scan
  batch : ∀ i r, rounds[i]? = some r → r.batch = (side.drop (i * batchSize)).take batchSize
  moves : ∀ i r next, rounds[i]? = some r → rounds[i + 1]? = some next →
    ∃ last, r.batch.getLast? = some last ∧ r.scan.GoesOn last.id next.scan
  fetched : rounds.flatMap Round.batch = side.take (rounds.length * batchSize)
  goes_on_iff : ∀ i r, rounds[i]? = some r → (i + 1 < rounds.length ↔
    r.batch.length = batchSize ∧ (side.take ((i + 1) * batchSize)).countP sees < want)
  length_le : rounds.length ≤ side.length / batchSize + 1

variable {sees : Message → Bool} {want : Nat} {scan next : Scan} {side : List Message}
  {rounds : List Round}

/-- A walk ends with a batch that is short, or that has what is still wanted. -/
theorem rounds_singleton (scan : Scan)
    (h : side.length < batchSize ∨ want ≤ (side.take batchSize).countP sees) :
    Rounds sees want scan side [⟨scan, side.take batchSize⟩] where
  begins := rfl
  batch i r hr := by
    obtain ⟨rfl, rfl⟩ : i = 0 ∧ _ = r := by simpa [List.getElem?_singleton] using hr
    simp
  moves i r next _ hnext := by simp at hnext
  fetched := by simp
  goes_on_iff i r hr := by
    obtain ⟨rfl, rfl⟩ : i = 0 ∧ _ = r := by simpa [List.getElem?_singleton] using hr
    simp only [List.length_singleton, Nat.lt_irrefl, false_iff, not_and, List.length_take,
      Nat.zero_add, Nat.one_mul]
    omega
  length_le := by simp

/-- After a full batch that has less than is wanted, the walk goes on through what is left. -/
theorem Rounds.cons {last : Message} (hlast : (side.take batchSize).getLast? = some last)
    (hnext : scan.GoesOn last.id next) (hfull : batchSize ≤ side.length)
    (hcount : (side.take batchSize).countP sees < want)
    (h : Rounds sees (want - (side.take batchSize).countP sees) next (side.drop batchSize) rounds) :
    Rounds sees want scan side (⟨scan, side.take batchSize⟩ :: rounds) where
  begins := rfl
  batch
    | 0, r, hr => by
      obtain rfl : _ = r := by simpa using hr
      simp
    | i + 1, r, hr => by
      rw [h.batch i r hr, List.drop_drop, Nat.succ_mul, Nat.add_comm]
  moves
    | 0, r, r', hr, hr' => by
      obtain rfl : _ = r := by simpa using hr
      have hbegins := h.begins
      rw [List.head?_eq_getElem?, show rounds[0]? = some r' from hr'] at hbegins
      cases hbegins
      exact ⟨last, hlast, hnext⟩
    | i + 1, r, r', hr, hr' => h.moves i r r' hr hr'
  fetched := by
    rw [List.flatMap_cons, h.fetched, List.length_cons, Nat.succ_mul, Nat.add_comm, List.take_add]
  goes_on_iff
    | 0, r, hr => by
      obtain rfl : _ = r := by simpa using hr
      have hmore : rounds ≠ [] := by
        rintro rfl
        cases h.begins
      have hpos := List.length_pos_iff.2 hmore
      refine iff_of_true (Nat.succ_lt_succ hpos) ⟨List.length_take_of_le hfull, ?_⟩
      rwa [Nat.zero_add, Nat.one_mul]
    | i + 1, r, hr => by
      have hcut : side.take ((i + 1 + 1) * batchSize) =
          side.take batchSize ++ (side.drop batchSize).take ((i + 1) * batchSize) := by
        rw [Nat.succ_mul, Nat.add_comm, List.take_add]
      rw [List.length_cons, Nat.add_lt_add_iff_right, h.goes_on_iff i r hr, hcut,
        List.countP_append]
      omega
  length_le := by
    have hle := h.length_le
    rw [List.length_drop] at hle
    simp only [List.length_cons, batchSize] at hle hfull ⊢
    omega

end Page

/-! ## Walks -/

section Walks

variable {db : Database} {viewer : UserId} {channel : ChannelId}

/-- In a batch of the channel, only whispers depend on the index. -/
theorem makes_filterVisible_walked {scan : Scan} (n : Nat) :
    (filterVisible (db.contextOf viewer channel) ((db.walked channel scan).take n)).Makes db
      (((db.walked channel scan).take n).filter (db.grants viewer))
      (if ((db.walked channel scan).take n).any Message.isWhisper then
        [.visibilityRowsAmong viewer
          ((((db.walked channel scan).take n).filter Message.isWhisper).map Message.id)]
      else []) := by
  have hneeds : ∀ m ∈ (db.walked channel scan).take n, m.needsRow = m.isWhisper := by
    intro m hm
    have hchannel := (Database.mem_walked.1 (List.mem_of_mem_take hm)).2.1
    simp [Message.needsRow, Message.isWhisper, hchannel]
  have hany : ((db.walked channel scan).take n).any Message.needsRow =
      ((db.walked channel scan).take n).any Message.isWhisper := by
    rw [Bool.eq_iff_iff, List.any_eq_true, List.any_eq_true]
    exact exists_congr fun m ↦ and_congr_right fun hm ↦ by rw [hneeds m hm]
  have hyields : (filterVisible (db.contextOf viewer channel)
      ((db.walked channel scan).take n)).Yields [] db
        (((db.walked channel scan).take n).filter (db.grants viewer)) db :=
    yields_filterVisible_walked n
  have hmakes := hyields.makes
  rw [trace_filterVisible, List.filter_congr hneeds, hany] at hmakes
  exact hmakes

namespace Page

theorem walk_of_le {context : ViewerContext} {want rounds : Nat} {scan : Scan}
    {found : List Message} (h : want ≤ found.length) :
    walk context want rounds scan found = pure found := by
  cases rounds with
  | zero => rfl
  | succ rounds => rw [walk, if_pos h]

/-- A round fetches a batch and asks about the whispers in it.  It is the last one when the batch is
short or has what is still wanted. -/
theorem exists_makes_last_round (hdecodes : db.Decodes)
    (hrange : ∀ m ∈ db.stored, m.id.val < 0x7fffffffffffffff) (fuel : Nat) {want : Nat}
    {scan : Scan} {found : List Message} (hwant : found.length < want)
    (hends : (db.walked channel scan).length < batchSize ∨
      want - found.length ≤ ((db.walked channel scan).take batchSize).countP (db.grants viewer)) :
    ∃ page, (walk (db.contextOf viewer channel) want (fuel + 1) scan found).Makes db page
      (Round.calls viewer channel ⟨scan, (db.walked channel scan).take batchSize⟩) := by
  unfold walk
  rw [if_neg (Nat.not_le.2 hwant)]
  have hwindow := yields_channelWindow hdecodes channel scan batchSize
  cases hlast : ((db.walked channel scan).take batchSize).getLast? with
  | none =>
    refine ⟨found, hwindow.makes_ask_bind ?_⟩
    rw [List.getLast?_eq_none_iff] at hlast
    simp only [hlast]
    exact makes_pure found
  | some last =>
    refine ⟨found ++ (((db.walked channel scan).take batchSize).filter (db.grants viewer)).take
      (want - found.length), hwindow.makes_ask_bind ?_⟩
    simp only [hlast]
    rw [← List.append_nil (ite _ _ _)]
    refine (makes_filterVisible_walked batchSize).bind ?_
    split
    case isTrue => exact makes_pure _
    case isFalse hfull =>
      rw [List.length_take] at hfull
      have henough : want ≤ (found ++ (((db.walked channel scan).take batchSize).filter
          (db.grants viewer)).take (want - found.length)).length := by
        rw [List.length_append, List.length_take, ← List.countP_eq_length_filter]
        omega
      have hstored := (Database.mem_walked.1 (List.mem_of_mem_take (List.mem_of_getLast? hlast))).1
      obtain ⟨next, hnext, -⟩ := scan.exists_continueAfter (hrange last hstored)
      simp only [hnext, walk_of_le henough]
      exact makes_pure _

/-- After a full batch that has less than is wanted, the walk goes on with what has been found. -/
theorem makes_round (hdecodes : db.Decodes) {want fuel : Nat} {scan next : Scan}
    {found page : List Message} {last : Message} {calls : List Call} (hwant : found.length < want)
    (hfull : batchSize ≤ (db.walked channel scan).length)
    (hlast : ((db.walked channel scan).take batchSize).getLast? = some last)
    (hnext : scan.continueAfter last.id = some next)
    (hrest : (walk (db.contextOf viewer channel) want fuel next
      (found ++ (((db.walked channel scan).take batchSize).filter (db.grants viewer)).take
        (want - found.length))).Makes db page calls) :
    (walk (db.contextOf viewer channel) want (fuel + 1) scan found).Makes db page
      (Round.calls viewer channel ⟨scan, (db.walked channel scan).take batchSize⟩ ++ calls) := by
  unfold walk
  rw [if_neg (Nat.not_le.2 hwant)]
  refine (yields_channelWindow hdecodes channel scan batchSize).makes_ask_bind ?_
  simp only [hlast]
  refine (makes_filterVisible_walked batchSize).bind ?_
  rw [if_neg (by rw [List.length_take_of_le hfull]; exact Nat.lt_irrefl _)]
  simp only [hnext]
  exact hrest

/-- A walk with rounds enough that still wants messages makes the calls of its rounds. -/
theorem makes_walk (hdecodes : db.Decodes)
    (hrange : ∀ m ∈ db.stored, m.id.val < 0x7fffffffffffffff) (viewer : UserId) {want fuel : Nat}
    {scan : Scan} (found : List Message) (hwant : found.length < want)
    (hfuel : (db.walked channel scan).length < fuel) :
    ∃ page rounds, (walk (db.contextOf viewer channel) want fuel scan found).Makes db page
        (rounds.flatMap (Round.calls viewer channel)) ∧
      Rounds (db.grants viewer) (want - found.length) scan (db.walked channel scan) rounds := by
  -- A round takes a batch off the walk, and what the batch leaves over is the walk that follows.
  induction fuel generalizing scan found with
  | zero => omega
  | succ fuel ih =>
    by_cases hends : (db.walked channel scan).length < batchSize ∨
        want - found.length ≤ ((db.walked channel scan).take batchSize).countP (db.grants viewer)
    · obtain ⟨page, hmakes⟩ := exists_makes_last_round hdecodes hrange fuel hwant hends
      exact ⟨page, _, by rwa [List.flatMap_singleton], rounds_singleton scan hends⟩
    · rw [not_or, Nat.not_lt, Nat.not_le] at hends
      obtain ⟨hfull, hcount⟩ := hends
      have hpos : 0 < batchSize := by decide
      have hbatch : (db.walked channel scan).take batchSize ≠ [] :=
        List.ne_nil_of_length_pos (by rwa [List.length_take_of_le hfull])
      obtain ⟨last, hlast⟩ := Option.ne_none_iff_exists'.1 (mt List.getLast?_eq_none_iff.1 hbatch)
      have hstored := (Database.mem_walked.1 (List.mem_of_mem_take (List.mem_of_getLast? hlast))).1
      obtain ⟨next, hnext, hgoes⟩ := scan.exists_continueAfter (hrange last hstored)
      have hcontinue := Database.walked_continueAfter hlast
      simp only [hnext] at hcontinue
      have hlength : (found ++ (((db.walked channel scan).take batchSize).filter
          (db.grants viewer)).take (want - found.length)).length = found.length +
            ((db.walked channel scan).take batchSize).countP (db.grants viewer) := by
        rw [List.length_append, List.length_take, ← List.countP_eq_length_filter]
        omega
      have hless : (db.walked channel next).length < fuel := by
        rw [hcontinue, List.length_drop]
        omega
      obtain ⟨page, rounds, hmakes, hrounds⟩ := ih _ (by rw [hlength]; omega) hless
      rw [hlength, hcontinue, ← Nat.sub_sub] at hrounds
      refine ⟨page, _, ?_, hrounds.cons hlast hgoes hfull hcount⟩
      rw [List.flatMap_cons]
      exact makes_round hdecodes hwant hfull hlast hnext hmakes

/-- The rounds of a side, none where it is not walked. -/
def SideRounds (db : Database) (viewer : UserId) (want : Nat) (scan : Option Scan)
    (side : List Message) (rounds : List Round) : Prop :=
  match scan with
  | none => rounds = []
  | some scan => Rounds (db.grants viewer) want scan side rounds

theorem makes_side (hdecodes : db.Decodes)
    (hrange : ∀ m ∈ db.stored, m.id.val < 0x7fffffffffffffff) (viewer : UserId)
    (channel : ChannelId) (scan : Option Scan) (want : Nat) {history : List Message}
    (hwalked : ∀ s, scan = some s → 0 < want ∧ ¬ capacity < want ∧ db.walked channel s = history) :
    ∃ page rounds, (side (db.contextOf viewer channel) scan want).Makes db page
        (rounds.flatMap (Round.calls viewer channel)) ∧
      SideRounds db viewer want scan history rounds := by
  cases scan with
  | none => exact ⟨[], [], makes_pure [], rfl⟩
  | some scan =>
    obtain ⟨hwant, hfits, hhistory⟩ := hwalked scan rfl
    have hfuel : (db.walked channel scan).length < scan.width + 1 :=
      Nat.lt_succ_of_le Database.length_walked_le
    obtain ⟨page, rounds, hmakes, hrounds⟩ := makes_walk hdecodes hrange viewer [] hwant hfuel
    rw [hhistory] at hrounds
    refine ⟨page, rounds, ?_, hrounds⟩
    rw [side, scanVisible, if_neg hfits]
    exact hmakes

theorem SideRounds.eq_nil_iff {want : Nat} {scan : Option Scan} {history : List Message}
    {rounds : List Round} (h : SideRounds db viewer want scan history rounds) :
    rounds = [] ↔ scan = none := by
  cases scan with
  | none => exact iff_of_true h rfl
  | some scan =>
    refine iff_of_false ?_ nofun
    rintro rfl
    cases Rounds.begins h

theorem SideRounds.sublist {want : Nat} {scan : Option Scan} {history : List Message}
    {rounds : List Round} (h : SideRounds db viewer want scan history rounds) :
    (rounds.flatMap Round.batch).Sublist history := by
  cases scan with
  | none =>
    obtain rfl : rounds = [] := h
    exact List.nil_sublist _
  | some scan =>
    rw [Rounds.fetched h]
    exact List.take_sublist _ _

end Page

end Walks

/-! ## Sides -/

def Database.messagesOf (db : Database) (channel : ChannelId) : List Message :=
  db.stored.filter fun m ↦ m.channel = some channel

namespace Window

/-- What lies before the anchor, newest first. -/
def beforeSide (w : Window) (messages : List Message) : List Message :=
  (messages.filter fun m ↦ w.anchor.liesAfter m.id).reverse

/-- What lies from the anchor on, oldest first. -/
def afterSide (w : Window) (messages : List Message) : List Message :=
  messages.filter fun m ↦ !w.anchor.liesAfter m.id

variable {w : Window} {scan : Scan} {db : Database} {channel : ChannelId}

theorem beforeScan_eq_none_iff : w.beforeScan = none ↔ w.before = 0 ∨ w.anchor = .oldest := by
  unfold beforeScan
  split
  case isTrue hzero => simp [hzero]
  case isFalse hsome => cases w.anchor <;> simp [hsome]

theorem afterScan_eq_none_iff : w.afterScan = none ↔ w.after = 0 ∨ w.anchor = .newest := by
  unfold afterScan
  split
  case isTrue hzero => simp [hzero]
  case isFalse hsome => cases w.anchor <;> simp [hsome]

theorem before_ne_zero (h : w.beforeScan = some scan) : w.before ≠ 0 := by
  intro hzero
  rw [beforeScan_eq_none_iff.2 (.inl hzero)] at h
  cases h

theorem after_ne_zero (h : w.afterScan = some scan) : w.after ≠ 0 := by
  intro hzero
  rw [afterScan_eq_none_iff.2 (.inl hzero)] at h
  cases h

theorem walked_eq (db : Database) (channel : ChannelId) (scan : Scan) :
    db.walked channel scan =
      scan.order ((db.messagesOf channel).filter fun m ↦ scan.covers m.id) := by
  rw [Database.messagesOf, List.filter_filter, Database.walked]
  congr 1
  exact List.filter_congr fun m _ ↦ Bool.and_comm _ _

theorem walked_beforeScan (h : w.beforeScan = some scan)
    (hrange : ∀ m ∈ db.stored, m.id.val < 0x7fffffffffffffff) :
    db.walked channel scan = w.beforeSide (db.messagesOf channel) := by
  have hfilter : ((db.messagesOf channel).filter fun m ↦
      w.beforeScan.any fun scan ↦ scan.covers m.id) =
        (db.messagesOf channel).filter fun m ↦ w.anchor.liesAfter m.id :=
    filter_beforeScan (before_ne_zero h) fun _ m hm ↦ hrange m (List.mem_filter.1 hm).1
  simp only [h, Option.any_some] at hfilter
  rw [walked_eq, hfilter, order_beforeScan h, beforeSide]

theorem walked_afterScan (h : w.afterScan = some scan) (hrange : ∀ m ∈ db.stored, 0 ≤ m.id.val) :
    db.walked channel scan = w.afterSide (db.messagesOf channel) := by
  have hfilter : ((db.messagesOf channel).filter fun m ↦
      w.afterScan.any fun scan ↦ scan.covers m.id) =
        (db.messagesOf channel).filter fun m ↦ !w.anchor.liesAfter m.id :=
    filter_afterScan (after_ne_zero h) fun m hm ↦ hrange m (List.mem_filter.1 hm).1
  simp only [h, Option.any_some] at hfilter
  rw [walked_eq, hfilter, order_afterScan h, afterSide]

/-- No message lies on both sides. -/
theorem nodup_sides (w : Window) (db : Database) (channel : ChannelId) :
    (w.beforeSide (db.messagesOf channel) ++ w.afterSide (db.messagesOf channel)).Nodup := by
  have hperm : (w.beforeSide (db.messagesOf channel) ++ w.afterSide (db.messagesOf channel)).Perm
      (db.messagesOf channel) :=
    ((List.reverse_perm _).append_right _).trans (List.filter_append_perm _ _)
  have hascending : (db.messagesOf channel).Pairwise fun a b ↦ a.id < b.id :=
    db.pairwise_stored.filter _
  refine hperm.nodup_iff.2 (hascending.imp ?_)
  rintro a _ hlt rfl
  exact Ident.lt_irrefl _ hlt

end Window

/-! ## Pages -/

theorem makes_load (db : Database) (viewer : UserId) (channel : ChannelId) :
    (ViewerContext.load viewer channel).Makes db (db.contextOf viewer channel)
      [.currentUserGroups viewer, .isChannelSubscriber channel viewer] := rfl

namespace Page

variable {db : Database}

/-! ### One side -/

/-- Where a side breaks down, nothing is asked for it nor after it. -/
theorem trace_side_of_exceeds (context : ViewerContext) (scan : Scan) {want : Nat}
    (hwant : capacity < want) {β : Type} (f : List Message → Work β) :
    ((side context (some scan) want >>= f).run [] db).trace = [] := by
  rw [trace_bind_of_error (answer_side_of_lt context scan hwant), side, scanVisible, if_pos hwant]
  rfl

theorem ite_capacity_eq {scan : Option Scan} {want : Nat}
    (h : ∀ s, scan = some s → ¬ capacity < want) :
    (if capacity < want then none else scan) = scan := by
  split
  case isTrue hwant => exact (Option.eq_none_iff_forall_ne_some.2 fun s hs ↦ h s hs hwant).symm
  case isFalse => rfl

/-- The side before the anchor, unless it breaks down. -/
theorem makes_before (hdecodes : db.Decodes)
    (hless : ∀ m ∈ db.stored, m.id.val < 0x7fffffffffffffff) (viewer : UserId)
    (channel : ChannelId) {w : Window}
    (hfits : ∀ scan, w.beforeScan = some scan → ¬ capacity < w.before) :
    ∃ page rounds, (side (db.contextOf viewer channel) w.beforeScan w.before).Makes db page
        (rounds.flatMap (Round.calls viewer channel)) ∧
      SideRounds db viewer w.before w.beforeScan (w.beforeSide (db.messagesOf channel)) rounds :=
  makes_side hdecodes hless viewer channel w.beforeScan w.before fun scan hscan ↦
    ⟨Nat.pos_of_ne_zero (Window.before_ne_zero hscan), hfits scan hscan,
      Window.walked_beforeScan hscan hless⟩

/-- The side from the anchor on, unless it breaks down. -/
theorem makes_after (hdecodes : db.Decodes)
    (hrange : ∀ m ∈ db.stored, 0 ≤ m.id.val ∧ m.id.val < 0x7fffffffffffffff) (viewer : UserId)
    (channel : ChannelId) {w : Window}
    (hfits : ∀ scan, w.afterScan = some scan → ¬ capacity < w.after) :
    ∃ page rounds, (side (db.contextOf viewer channel) w.afterScan w.after).Makes db page
        (rounds.flatMap (Round.calls viewer channel)) ∧
      SideRounds db viewer w.after w.afterScan (w.afterSide (db.messagesOf channel)) rounds :=
  makes_side hdecodes (fun m hm ↦ (hrange m hm).2) viewer channel w.afterScan w.after
    fun scan hscan ↦ ⟨Nat.pos_of_ne_zero (Window.after_ne_zero hscan), hfits scan hscan,
      Window.walked_afterScan hscan fun m hm ↦ (hrange m hm).1⟩

/-! ### Both sides -/

variable {viewer : UserId} {channel : ChannelId} {w : Window}

/-- A page whose first side breaks down has only asked what the viewer can reach. -/
theorem trace_listMessages_of_before {scan : Scan} (hscan : w.beforeScan = some scan)
    (hwant : capacity < w.before) :
    ((listMessages viewer channel w).run [] db).trace =
      [.currentUserGroups viewer, .isChannelSubscriber channel viewer] := by
  unfold listMessages
  rw [trace_bind_of_makes (makes_load db viewer channel), hscan, trace_side_of_exceeds _ scan hwant,
    List.append_nil]

/-- A page whose second side breaks down has made the rounds of the first. -/
theorem trace_listMessages_of_after {page : List Message} {calls : List Call}
    (hmakes : (side (db.contextOf viewer channel) w.beforeScan w.before).Makes db page calls)
    {scan : Scan} (hscan : w.afterScan = some scan) (hwant : capacity < w.after) :
    ((listMessages viewer channel w).run [] db).trace =
      .currentUserGroups viewer :: .isChannelSubscriber channel viewer :: calls := by
  unfold listMessages
  rw [trace_bind_of_makes (makes_load db viewer channel), trace_bind_of_makes hmakes, hscan,
    trace_side_of_exceeds _ scan hwant, List.append_nil]
  rfl

theorem trace_listMessages_of_makes {page page' : List Message} {calls calls' : List Call}
    (hmakes : (side (db.contextOf viewer channel) w.beforeScan w.before).Makes db page calls)
    (hmakes' : (side (db.contextOf viewer channel) w.afterScan w.after).Makes db page' calls') :
    ((listMessages viewer channel w).run [] db).trace =
      .currentUserGroups viewer :: .isChannelSubscriber channel viewer :: (calls ++ calls') := by
  unfold listMessages
  rw [trace_bind_of_makes (makes_load db viewer channel), trace_bind_of_makes hmakes,
    trace_bind_of_makes hmakes']
  simp [run, pure]

end Page

open Page in
/-- A page asks once for what the viewer can reach, and then round by round for the messages on the
two sides of the anchor.  A side is walked when something is wanted of it and there is such a side;
only a count that no memory can be set aside for ends the list before its side is walked. -/
theorem calls_listMessages {db : Database} (hdecodes : db.Decodes)
    (hrange : ∀ row ∈ db.messages.rows, 1 ≤ row.id.val ∧ row.id.val < 0x7fffffffffffffff)
    (viewer : UserId) (channel : ChannelId) (w : Window) :
    ∃ before after : List Round,
      ((listMessages viewer channel w).run [] db).trace =
        .currentUserGroups viewer :: .isChannelSubscriber channel viewer ::
          (before ++ after).flatMap (Round.calls viewer channel) ∧
      (before = [] ↔ w.before = 0 ∨ w.anchor = .oldest ∨ capacity < w.before) ∧
      (after = [] ↔ w.after = 0 ∨ w.anchor = .newest ∨ w.Exceeds) ∧
      SideRounds db viewer w.before (if capacity < w.before then none else w.beforeScan)
        (w.beforeSide (db.messagesOf channel)) before ∧
      SideRounds db viewer w.after (if w.Exceeds then none else w.afterScan)
        (w.afterSide (db.messagesOf channel)) after ∧
      ((before ++ after).flatMap Round.batch).Nodup := by
  have hids : ∀ m ∈ db.stored, 0 ≤ m.id.val ∧ m.id.val < 0x7fffffffffffffff := by
    intro m hm
    obtain ⟨row, hrow, hdecode⟩ := Database.mem_stored.1 hm
    have hid := hrange row hrow
    rw [MessageRow.id_of_decode hdecode]
    omega
  -- The rounds of the two sides, as far as the list gets.
  obtain ⟨before, after, htrace, hbefore, hafter⟩ : ∃ before after : List Round,
      ((listMessages viewer channel w).run [] db).trace =
        .currentUserGroups viewer :: .isChannelSubscriber channel viewer ::
          (before ++ after).flatMap (Round.calls viewer channel) ∧
      SideRounds db viewer w.before (if capacity < w.before then none else w.beforeScan)
        (w.beforeSide (db.messagesOf channel)) before ∧
      SideRounds db viewer w.after (if w.Exceeds then none else w.afterScan)
        (w.afterSide (db.messagesOf channel)) after := by
    by_cases hfirst : ∃ scan, w.beforeScan = some scan ∧ capacity < w.before
    · obtain ⟨scan, hscan, hwant⟩ := hfirst
      rw [if_pos hwant, if_pos (Window.exceeds_before hscan hwant)]
      exact ⟨[], [], trace_listMessages_of_before hscan hwant, rfl, rfl⟩
    have hfits : ∀ scan, w.beforeScan = some scan → ¬ capacity < w.before :=
      fun scan hscan hwant ↦ hfirst ⟨scan, hscan, hwant⟩
    obtain ⟨_, before, hmakes, hbefore⟩ :=
      makes_before hdecodes (fun m hm ↦ (hids m hm).2) viewer channel hfits
    rw [ite_capacity_eq hfits]
    by_cases hsecond : ∃ scan, w.afterScan = some scan ∧ capacity < w.after
    · obtain ⟨scan, hscan, hwant⟩ := hsecond
      rw [if_pos (Window.exceeds_after hscan hwant)]
      refine ⟨before, [], ?_, hbefore, rfl⟩
      rw [List.append_nil, trace_listMessages_of_after hmakes hscan hwant]
    have hfits' : ∀ scan, w.afterScan = some scan → ¬ capacity < w.after :=
      fun scan hscan hwant ↦ hsecond ⟨scan, hscan, hwant⟩
    obtain ⟨_, after, hmakes', hafter⟩ := makes_after hdecodes hids viewer channel hfits'
    rw [if_neg fun hexceeds ↦ (Window.exists_scan_of_exceeds hexceeds).elim hfirst hsecond]
    refine ⟨before, after, ?_, hbefore, hafter⟩
    rw [List.flatMap_append, trace_listMessages_of_makes hmakes hmakes']
  refine ⟨before, after, htrace, ?_, ?_, hbefore, hafter, ?_⟩
  · rw [hbefore.eq_nil_iff, ← or_assoc, ← Window.beforeScan_eq_none_iff]
    split <;> simp [*]
  · rw [hafter.eq_nil_iff, ← or_assoc, ← Window.afterScan_eq_none_iff]
    split <;> simp [*]
  · rw [List.flatMap_append]
    exact (w.nodup_sides db channel).sublist (hbefore.sublist.append hafter.sublist)

open Page in
/-- The newest messages of a short channel take one round. -/
theorem calls_listMessages_whispered :
    whispered.Decodes ∧
      (∀ row ∈ whispered.messages.rows, 1 ≤ row.id.val ∧ row.id.val < 0x7fffffffffffffff) ∧
      ∃ round : Round,
        ((listMessages (.small 2) (.small 1) ⟨.newest, 2, 5⟩).run [] whispered).trace =
          .currentUserGroups (.small 2) :: .isChannelSubscriber (.small 1) (.small 2) ::
            round.calls (.small 2) (.small 1) ∧
        round.batch.map Message.id = [.small 3, .small 2, .small 1] := by
  have hdecodes : whispered.Decodes := Database.decodes_of_eq rfl
  have hrange : ∀ row ∈ whispered.messages.rows,
      1 ≤ row.id.val ∧ row.id.val < 0x7fffffffffffffff := by decide
  refine ⟨hdecodes, hrange, ?_⟩
  obtain ⟨before, after, htrace, hbegun, hnone, hbefore, -⟩ :=
    calls_listMessages hdecodes hrange (.small 2) (.small 1) ⟨.newest, 2, 5⟩
  obtain rfl : after = [] := hnone.2 (.inr (.inl rfl))
  have hrounds : Rounds (whispered.grants (.small 2)) 2 (.before none)
    (Window.beforeSide ⟨.newest, 2, 5⟩ (whispered.messagesOf (.small 1))) before := hbefore
  have hside :
      (Window.beforeSide ⟨.newest, 2, 5⟩ (whispered.messagesOf (.small 1))).map Message.id =
        [.small 3, .small 2, .small 1] := by
    rw [Database.messagesOf, Database.stored_eq rfl (by simp)]
    decide
  have hlength :
      (Window.beforeSide ⟨.newest, 2, 5⟩ (whispered.messagesOf (.small 1))).length = 3 := by
    simpa using congrArg List.length hside
  have hone : before.length = 1 := by
    have hle := hrounds.length_le
    have hpos : 0 < before.length := List.length_pos_iff.2 (mt hbegun.1 (by decide))
    rw [hlength] at hle
    exact Nat.le_antisymm hle hpos
  obtain ⟨round, rfl⟩ := List.length_eq_one_iff.1 hone
  refine ⟨round, by rw [htrace, List.append_nil, List.flatMap_singleton], ?_⟩
  rw [hrounds.batch 0 round rfl, Nat.zero_mul, List.drop_zero, List.take_of_length_le, hside]
  rw [hlength]
  decide

end WhisperChat
