import Mathlib.Data.List.Forall2
import WhisperChat.Proofs.Access

/-!
# Walks through a channel

A walk brings the stored messages of a channel that lie past its bound, in its direction.  After the
last message of a batch the walk that is continued brings what the batch has left over
(`walked_continueAfter`), so that walking batch by batch loses nothing and repeats nothing.
-/

namespace WhisperChat

namespace Scan

/-- The list in the direction of the walk. -/
def order {α : Type} : Scan → List α → List α
  | before _, l => l.reverse
  | atOrAfter _, l => l

/-- Whether the walk comes past the first identifier earlier than past the second. -/
def precedes (scan : Scan) (a b : MessageId) : Bool :=
  match scan with
  | before _ => b < a
  | atOrAfter _ => a < b

theorem precedes_irrefl (scan : Scan) (a : MessageId) : scan.precedes a a = false := by
  cases scan <;> simpa [precedes] using Ident.lt_irrefl a

theorem precedes_asymm {scan : Scan} {a b : MessageId} (h : scan.precedes a b = true) :
    scan.precedes b a = false := by
  cases scan <;> simpa [precedes] using Ident.lt_asymm (by simpa [precedes] using h)

theorem order_filter {α : Type} (scan : Scan) (p : α → Bool) (l : List α) :
    scan.order (l.filter p) = (scan.order l).filter p := by
  cases scan with
  | before _ => exact List.filter_reverse.symm
  | atOrAfter _ => rfl

theorem mem_order {α : Type} {scan : Scan} {a : α} {l : List α} : a ∈ scan.order l ↔ a ∈ l := by
  cases scan <;> simp [order]

theorem length_order {α : Type} (scan : Scan) (l : List α) : (scan.order l).length = l.length := by
  cases scan <;> simp [order]

/-- A walk is continued in its direction, past all that comes after the last identifier. -/
theorem covers_continueAfter {scan next : Scan} {last : MessageId} (hlast : scan.covers last = true)
    (h : scan.continueAfter last = some next) (id : MessageId) :
    next.covers id = true ↔ scan.covers id = true ∧ scan.precedes last id = true := by
  cases scan with
  | before bound =>
    cases h
    simp only [covers, precedes, upperBound, Option.getD_some, Ident.lt_def,
      decide_eq_true_eq] at hlast ⊢
    omega
  | atOrAfter bound =>
    simp only [continueAfter, Ident.next?, Option.map_eq_some_iff, Ident.ofInt?_eq_some_iff] at h
    obtain ⟨start, hstart, rfl⟩ := h
    simp only [covers, precedes, Ident.le_def, Ident.lt_def, decide_eq_true_eq] at hlast ⊢
    omega

theorem order_continueAfter {α : Type} {scan next : Scan} {last : MessageId}
    (h : scan.continueAfter last = some next) (l : List α) : next.order l = scan.order l := by
  cases scan with
  | before bound =>
    cases h
    rfl
  | atOrAfter bound =>
    obtain ⟨start, -, rfl⟩ := Option.map_eq_some_iff.1 h
    rfl

/-- Only from the greatest identifier a walk cannot be continued. -/
theorem eq_greatest_of_continueAfter_eq_none {scan : Scan} {last : MessageId}
    (h : scan.continueAfter last = none) : last = .greatest .message := by
  cases scan with
  | before bound => cases h
  | atOrAfter bound =>
    have hnext : Ident.next? last = none := by simpa [continueAfter] using h
    simp only [Ident.next?, Ident.ofInt?, dite_eq_right_iff, reduceCtorEq, imp_false] at hnext
    have hlow := last.le_val
    have hhigh := last.val_lt
    apply Ident.ext
    simp only [Ident.greatest]
    omega

theorem precedes_greatest (scan : Scan) {last : MessageId}
    (h : scan.continueAfter last = none) (id : MessageId) : scan.precedes last id = false := by
  cases scan with
  | before bound => cases h
  | atOrAfter bound =>
    rw [eq_greatest_of_continueAfter_eq_none h]
    exact decide_eq_false (Int.not_lt.2 (Int.le_of_lt_add_one id.val_lt))

/-- A walk backwards stays below the greatest identifier. -/
theorem lt_of_covers_before {bound : Option MessageId} {id : MessageId}
    (h : (before bound).covers id = true) : id.val < 0x7fffffffffffffff := by
  have hbound := (upperBound bound).val_lt
  simp only [covers, Ident.lt_def, decide_eq_true_eq] at h
  omega

/-- No walk goes on from the greatest identifier. -/
theorem ne_greatest_of_continueAfter {scan next : Scan} {last : MessageId}
    (hlast : scan.covers last = true) (h : scan.continueAfter last = some next) :
    last ≠ .greatest .message := by
  rintro rfl
  cases scan with
  | before bound => exact absurd (lt_of_covers_before hlast) (by decide)
  | atOrAfter bound => cases h

/-- The identifiers on the way of a walk are a range. -/
theorem exists_range (scan : Scan) :
    ∃ low high : Int, (high - low).toNat = scan.width ∧
      ∀ id, scan.covers id = true → low ≤ id.val ∧ id.val < high := by
  cases scan with
  | before bound =>
    refine ⟨-0x8000000000000000, (upperBound bound).val, by rw [width, Int.sub_neg], ?_⟩
    intro id hid
    exact ⟨id.le_val, by simpa [covers, Ident.lt_def] using hid⟩
  | atOrAfter bound =>
    refine ⟨bound.val, 0x8000000000000000, rfl, ?_⟩
    intro id hid
    exact ⟨by simpa [covers, Ident.le_def] using hid, id.val_lt⟩

end Scan

/-- What lies after the last of the first `n` members of an ordered list. -/
theorem filter_eq_drop {α : Type} {r : α → α → Bool} (hirrefl : ∀ a, r a a = false)
    (hasymm : ∀ a b, r a b = true → r b a = false) {l : List α} {n : Nat} {last : α}
    (h : l.Pairwise fun a b ↦ r a b = true) (hlast : (l.take n).getLast? = some last) :
    l.filter (r last) = l.drop n := by
  obtain ⟨front, hfront⟩ := List.getLast?_eq_some_iff.1 hlast
  have hsplit : l = front ++ [last] ++ l.drop n := by
    rw [← hfront, List.take_append_drop]
  rw [hsplit, List.pairwise_append, List.pairwise_append] at h
  -- None of the first members lies after their last one, and all the others do.
  obtain ⟨⟨-, -, hbefore⟩, -, hafter⟩ := h
  have hnone : (front ++ [last]).filter (r last) = [] := by
    rw [List.filter_eq_nil_iff]
    intro a ha
    rcases List.mem_append.1 ha with ha | ha
    · simp [hasymm a last (hbefore a ha last (by simp))]
    · rw [List.mem_singleton.1 ha]
      simp [hirrefl]
  have hall : (l.drop n).filter (r last) = l.drop n := by
    rw [List.filter_eq_self]
    exact fun a ha ↦ hafter last (by simp) a ha
  calc
    l.filter (r last) = (front ++ [last] ++ l.drop n).filter (r last) := by rw [← hsplit]
    _ = (front ++ [last]).filter (r last) ++ (l.drop n).filter (r last) := List.filter_append ..
    _ = l.drop n := by rw [hnone, hall, List.nil_append]

/-- An ascending list of identifiers is no longer than the range that it lies in. -/
theorem length_le_of_pairwise {kind : IdentKind} {ids : List (Ident kind)} {low high : Int}
    (h : ids.Pairwise (· < ·)) (hrange : ∀ id ∈ ids, low ≤ id.val ∧ id.val < high) :
    ids.length ≤ (high - low).toNat := by
  induction ids generalizing low with
  | nil => simp
  | cons id ids ih =>
    rw [List.pairwise_cons] at h
    have hid := hrange id (by simp)
    have hrest : ids.length ≤ (high - (id.val + 1)).toNat := by
      refine ih h.2 fun next hnext ↦ ⟨?_, (hrange next (by simp [hnext])).2⟩
      exact h.1 next hnext
    rw [List.length_cons]
    omega

namespace Database

variable {db : Database} {channel : ChannelId} {scan : Scan} {m : Message}

/-- The stored messages of a channel that a walk comes past, in its order. -/
def walked (db : Database) (channel : ChannelId) (scan : Scan) : List Message :=
  scan.order (db.stored.filter fun m ↦ m.channel = some channel && scan.covers m.id)

theorem mem_walked :
    m ∈ db.walked channel scan ↔
      m ∈ db.stored ∧ m.channel = some channel ∧ scan.covers m.id = true := by
  simp [walked, Scan.mem_order]

theorem pairwise_walked : (db.walked channel scan).Pairwise fun a b ↦ scan.precedes a.id b.id := by
  have hascending := db.pairwise_stored.filter fun m ↦ m.channel = some channel && scan.covers m.id
  cases scan with
  | before bound =>
    simp only [walked, Scan.order, Scan.precedes, decide_eq_true_eq]
    rw [List.pairwise_reverse]
    exact hascending
  | atOrAfter bound =>
    simpa only [walked, Scan.order, Scan.precedes, decide_eq_true_eq] using hascending

/-- A walk is never longer than the number of identifiers on its way. -/
theorem length_walked_le : (db.walked channel scan).length ≤ scan.width := by
  obtain ⟨low, high, hwidth, hrange⟩ := scan.exists_range
  have hascending : ((db.stored.filter fun m ↦
      m.channel = some channel && scan.covers m.id).map Message.id).Pairwise (· < ·) := by
    rw [List.pairwise_map]
    exact db.pairwise_stored.filter _
  rw [walked, Scan.length_order, ← List.length_map Message.id, ← hwidth]
  apply length_le_of_pairwise hascending
  intro id hid
  obtain ⟨m, hm, rfl⟩ := List.mem_map.1 hid
  rw [List.mem_filter, Bool.and_eq_true] at hm
  exact hrange m.id hm.2.2

theorem forall₂_stored (hdecodes : db.Decodes) :
    List.Forall₂ (fun row m ↦ row.decode = .ok m) db.messages.rows db.stored := by
  unfold stored
  unfold Decodes at hdecodes
  generalize db.messages.rows = rows at hdecodes
  induction rows with
  | nil => exact .nil
  | cons row rows ih =>
    obtain ⟨m, hm⟩ := hdecodes row (by simp)
    simp only [List.filterMap_cons, toOption_eq_some_iff.2 hm]
    rw [List.forall₂_cons]
    refine ⟨hm, ih ?_⟩
    intro row' hrow'
    exact hdecodes row' (by simp [hrow'])

theorem forall₂_walk (hdecodes : db.Decodes) (channel : ChannelId) (scan : Scan) :
    List.Forall₂ (fun row m ↦ row.decode = .ok m) (db.messages.walk channel scan)
      (db.walked channel scan) := by
  have hfilter : List.Forall₂ (fun row m ↦ row.decode = .ok m)
      (db.messages.rows.filter fun row ↦ row.channel = some channel && scan.covers row.id)
      (db.stored.filter fun m ↦ m.channel = some channel && scan.covers m.id) := by
    apply List.rel_filter _ (forall₂_stored hdecodes)
    intro row m hm
    simp only [MessageRow.id_of_decode hm, MessageRow.channel_of_decode hm]
  cases scan with
  | before bound => exact List.rel_reverse hfilter
  | atOrAfter bound => exact hfilter

theorem mapM_decode_eq_ok {rows : List MessageRow} {messages : List Message}
    (h : List.Forall₂ (fun row m ↦ row.decode = .ok m) rows messages) :
    rows.mapM MessageRow.decode = .ok messages := by
  induction h with
  | nil => rfl
  | cons hm _ ih =>
    rw [List.mapM_cons, hm, ih]
    rfl

/-- Where all rows can be read, a window brings the first messages of the walk. -/
theorem channelWindow_eq (hdecodes : db.Decodes) (limit : Nat) :
    db.channelWindow channel scan limit = .ok ((db.walked channel scan).take limit) := by
  have hrows := List.forall₂_take limit (forall₂_walk hdecodes channel scan)
  rw [channelWindow, MessageTable.window, mapM_decode_eq_ok hrows]

/-- What a walk brings after the last message of a batch is what the batch has left over. -/
theorem walked_continueAfter {n : Nat} {last : Message}
    (hlast : ((db.walked channel scan).take n).getLast? = some last) :
    match scan.continueAfter last.id with
    | none => (db.walked channel scan).drop n = []
    | some next => db.walked channel next = (db.walked channel scan).drop n := by
  have hmem : last ∈ db.walked channel scan :=
    List.mem_of_mem_take (List.mem_of_getLast? hlast)
  have hdrop : (db.walked channel scan).filter (fun m ↦ scan.precedes last.id m.id) =
      (db.walked channel scan).drop n :=
    filter_eq_drop (fun m ↦ scan.precedes_irrefl m.id) (fun _ _ ↦ Scan.precedes_asymm)
      pairwise_walked hlast
  rw [← hdrop]
  cases hnext : scan.continueAfter last.id with
  | none =>
    rw [List.filter_eq_nil_iff]
    intro m _
    rw [scan.precedes_greatest hnext m.id]
    exact Bool.false_ne_true
  | some next =>
    have hfilter : (db.stored.filter fun m ↦ m.channel = some channel && next.covers m.id) =
        (db.stored.filter fun m ↦ m.channel = some channel && scan.covers m.id).filter
          fun m ↦ scan.precedes last.id m.id := by
      rw [List.filter_filter]
      apply List.filter_congr
      intro m _
      have hcovers := Scan.covers_continueAfter (mem_walked.1 hmem).2.2 hnext m.id
      rw [Bool.eq_iff_iff]
      simp only [Bool.and_eq_true, hcovers]
      tauto
    calc
      db.walked channel next =
          scan.order (db.stored.filter fun m ↦ m.channel = some channel && next.covers m.id) :=
        Scan.order_continueAfter hnext _
      _ = scan.order ((db.stored.filter fun m ↦ m.channel = some channel && scan.covers m.id).filter
          fun m ↦ scan.precedes last.id m.id) := by rw [hfilter]
      _ = (db.walked channel scan).filter fun m ↦ scan.precedes last.id m.id :=
        Scan.order_filter scan _ _

end Database

end WhisperChat
