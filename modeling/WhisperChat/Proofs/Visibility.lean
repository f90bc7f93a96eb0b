import Mathlib.Data.List.Nodup
import WhisperChat.Proofs.Run

/-!
# Who sees what over a run

In every run the table of messages holds the messages that were sent, as they were sent, and the
index holds the audiences they were sent to (`Run.Recorded`).  So what a viewer gets for an
identifier is settled by the send that it came from and by the subscriptions and memberships of the
moment, and nothing but a poisoned lock ever stands in the way.
-/

namespace WhisperChat

namespace Run

def get (r : Run) (viewer : UserId) (id : MessageId) : Except Failure Message :=
  (r.shared.read [] (getMessage viewer id)).answer

def page (r : Run) (viewer : UserId) (channel : ChannelId) (w : Window) :
    Except Failure (List Message) := (r.shared.read [] (listMessages viewer channel w)).answer

/-! ## What the tables record -/

/-- Messages and index are what the sends have returned. -/
structure Recorded (r : Run) : Prop where
  isRegular : ∀ m ∈ r.sent.map Sent.message, m.sentAt.IsRegular
  rows : r.shared.contents.messages.rows =
    (r.sent.map Sent.message).map fun m ↦ .ofDraft m.id m.toDraft
  visibility : ∀ message user, (message, user) ∈ r.shared.contents.visibility ↔
    ∃ s ∈ r.sent, s.message.id = message ∧ user ∈ s.audience

namespace Recorded

variable {r : Run} {s : Sent}

theorem decodes (h : r.Recorded) : r.shared.contents.Decodes := Database.decodes_of_eq h.rows

theorem stored_eq (h : r.Recorded) : r.shared.contents.stored = r.sent.map Sent.message :=
  Database.stored_eq h.rows h.isRegular

theorem indexIsSound (h : r.Recorded) : r.shared.contents.IndexIsSound := by
  rintro ⟨message, user⟩ hrow
  obtain ⟨s, hs, rfl, -⟩ := (h.visibility message user).1 hrow
  rw [MessageTable.contains_iff, h.rows]
  exact ⟨_, List.mem_map_of_mem (List.mem_map_of_mem hs), rfl⟩

theorem nodup_ids (h : r.Recorded) : (r.sent.map fun s ↦ s.message.id).Nodup := by
  have hascending := r.shared.contents.pairwise_stored
  rw [h.stored_eq, List.pairwise_map] at hascending
  rw [List.Nodup, List.pairwise_map]
  refine hascending.imp ?_
  intro a b hlt heq
  exact Ident.lt_irrefl _ (heq ▸ hlt)

/-- No two sends have returned the same identifier. -/
theorem eq_of_id_eq (h : r.Recorded) {t : Sent} (hs : s ∈ r.sent) (ht : t ∈ r.sent)
    (hid : s.message.id = t.message.id) : s = t :=
  List.inj_on_of_nodup_map h.nodup_ids hs ht hid

theorem hasVisibilityRow_iff (h : r.Recorded) (hs : s ∈ r.sent) (user : UserId) :
    r.shared.contents.hasVisibilityRow s.message.id user = true ↔ user ∈ s.audience := by
  rw [Database.hasVisibilityRow_iff, h.visibility]
  constructor
  · rintro ⟨t, ht, hid, huser⟩
    rw [h.eq_of_id_eq hs ht hid.symm]
    exact huser
  · intro huser
    exact ⟨s, hs, rfl, huser⟩

theorem step (h : r.Recorded) (a : Action) : (r.step a).Recorded := by
  rcases a.perform_cases with ⟨hnone, hmessages, hvisibility⟩ |
    ⟨now, sender, request, sent, hsome, hsends⟩
  · have hsent : (r.step a).sent = r.sent := by
      rw [Run.step, hnone, Option.toList_none, List.append_nil]
    constructor
    · rw [hsent]
      exact h.isRegular
    · rw [hsent, ← h.rows]
      exact congrArg MessageTable.rows hmessages
    · intro message user
      rw [hsent, ← h.visibility]
      exact iff_of_eq (congrArg ((message, user) ∈ ·) hvisibility)
  · -- The new message comes last, and its rows after all others.
    have hsent : (r.step a).sent = r.sent ++ [sent] := by
      rw [Run.step, hsome, Option.toList_some]
    constructor
    · rw [hsent, List.map_append, List.forall_mem_append]
      exact ⟨h.isRegular, List.forall_mem_singleton.2 hsends.isRegular⟩
    · rw [hsent, List.map_append, List.map_append, ← h.rows]
      exact hsends.rows_eq
    · intro message user
      have hrow : (message, user) ∈ (r.step a).shared.contents.visibility ↔ _ :=
        hsends.mem_visibility_iff
      rw [hrow, h.visibility, hsent]
      simp only [List.mem_append, List.mem_singleton, or_and_right, exists_or, exists_eq_left]
      rw [eq_comm]

end Recorded

theorem recorded_foldl {r : Run} (h : r.Recorded) (actions : List Action) :
    (actions.foldl Run.step r).Recorded := by
  induction actions generalizing r with
  | nil => exact h
  | cons a actions ih => exact ih (h.step a)

theorem recorded_of (actions : List Action) : (of actions).Recorded := by
  apply recorded_foldl
  constructor
  · exact fun m hm ↦ absurd hm List.not_mem_nil
  · rfl
  · simp

theorem exists_sent_foldl (r : Run) (actions : List Action) :
    ∃ later, (actions.foldl step r).sent = r.sent ++ later := by
  induction actions generalizing r with
  | nil => exact ⟨[], (List.append_nil _).symm⟩
  | cons a actions ih =>
    obtain ⟨later, hlater⟩ := ih (r.step a)
    refine ⟨(a.perform r.shared).1.toList ++ later, ?_⟩
    rw [List.foldl_cons, hlater, step, List.append_assoc]

theorem of_append (earlier later : List Action) :
    of (earlier ++ later) = later.foldl step (of earlier) := List.foldl_append

/-- What a send has returned stays among what has been sent. -/
theorem mem_sent_append {earlier : List Action} {s : Sent} (h : s ∈ (of earlier).sent)
    (later : List Action) : s ∈ (of (earlier ++ later)).sent := by
  obtain ⟨more, hmore⟩ := (of earlier).exists_sent_foldl later
  rw [of_append, hmore]
  exact List.mem_append_left _ h

/-! ## What a viewer gets -/

/-- Whether one of the actions asks for a page that breaks down as the tables then stand. -/
def BreaksDown (r : Run) (actions : List Action) : Prop :=
  ∃ earlier viewer channel w later, actions = earlier ++ .list viewer channel w :: later ∧
    (w.Exceeds ∨ (earlier.foldl step r).shared.contents.Overflows viewer channel w)

theorem breaksDown_cons_iff {r : Run} {a : Action} {actions : List Action} :
    r.BreaksDown (a :: actions) ↔
      (∃ viewer channel w, a = .list viewer channel w ∧
        (w.Exceeds ∨ r.shared.contents.Overflows viewer channel w)) ∨
        (r.step a).BreaksDown actions := by
  constructor
  · rintro ⟨earlier, viewer, channel, w, later, hactions, hbreaks⟩
    rcases List.cons_eq_append_iff.1 hactions with ⟨rfl, hcons⟩ | ⟨earlier, rfl, rfl⟩
    · obtain ⟨rfl, -⟩ := List.cons.inj hcons
      exact .inl ⟨viewer, channel, w, rfl, hbreaks⟩
    · exact .inr ⟨earlier, viewer, channel, w, later, rfl, hbreaks⟩
  · rintro (⟨viewer, channel, w, rfl, hbreaks⟩ | ⟨earlier, viewer, channel, w, later, rfl, hbreaks⟩)
    · exact ⟨[], viewer, channel, w, actions, rfl, hbreaks⟩
    · exact ⟨a :: earlier, viewer, channel, w, later, rfl, hbreaks⟩

theorem not_breaksDown {r : Run} {actions : List Action}
    (h : ∀ viewer channel w, .list viewer channel w ∉ actions) : ¬ r.BreaksDown actions := by
  rintro ⟨earlier, viewer, channel, w, later, rfl, -⟩
  exact h viewer channel w (List.mem_append_right _ List.mem_cons_self)

theorem poisoned_foldl_iff {r : Run} (h : r.Recorded) (actions : List Action) :
    (actions.foldl step r).shared.poisoned = true ↔
      r.shared.poisoned = true ∨ r.BreaksDown actions := by
  induction actions generalizing r with
  | nil => simp [BreaksDown]
  | cons a actions ih =>
    have hstep : (r.step a).shared.poisoned = true ↔ _ := a.poisoned_perform_iff h.decodes
    rw [List.foldl_cons, ih (h.step a), hstep, or_assoc, breaksDown_cons_iff]

/-- The identifiers of a run are no greater than the number of messages that have been sent. -/
theorem id_le_length (actions : List Action) :
    ∀ s ∈ (of actions).sent, s.message.id.val ≤ Int.ofNat (of actions).sent.length := by
  induction actions using List.reverseRecOn with
  | nil => exact fun s hs ↦ absurd hs List.not_mem_nil
  | append_singleton actions a ih =>
    have hrecorded := recorded_of actions
    rw [of_append, List.foldl_cons, List.foldl_nil]
    rcases a.perform_cases with ⟨hnone, -⟩ | ⟨now, sender, request, sent, hsome, hsends⟩
    · rw [step, hnone, Option.toList_none, List.append_nil]
      exact ih
    · rw [step, hsome, Option.toList_some, List.length_append, List.length_singleton]
      have hrows : ∀ row ∈ (of actions).shared.contents.messages.rows,
          row.id.val ≤ Int.ofNat (of actions).sent.length := by
        intro row hrow
        rw [hrecorded.rows, List.map_map] at hrow
        obtain ⟨s, hs, rfl⟩ := List.mem_map.1 hrow
        exact ih s hs
      have hnew := MessageTable.nextId_le hsends.nextId (Int.natCast_nonneg _) hrows
      intro s hs
      rcases List.mem_append.1 hs with hold | hlast
      · exact (ih s hold).trans (Int.ofNat_le.2 (Nat.le_succ _))
      · rw [List.mem_singleton.1 hlast]
        exact hnew

/-- While fewer messages have been sent than there are identifiers, only a page for which no memory
can be set aside breaks down. -/
theorem breaksDown_iff_of_length_lt {actions : List Action}
    (hlength : (of actions).sent.length < 0x7fffffffffffffff) :
    BreaksDown {} actions ↔ ∃ viewer channel w, .list viewer channel w ∈ actions ∧ w.Exceeds := by
  constructor
  · rintro ⟨earlier, viewer, channel, w, later, rfl, hexceeds | hoverflows⟩
    · exact ⟨viewer, channel, w, List.mem_append_right _ List.mem_cons_self, hexceeds⟩
    · obtain ⟨m, hstored, -, hid⟩ := hoverflows.exists_greatest
      have hsent : m ∈ (of earlier).sent.map Sent.message := by
        rw [← (recorded_of earlier).stored_eq]
        exact hstored
      obtain ⟨s, hs, rfl⟩ := List.mem_map.1 hsent
      have hle := id_le_length _ s (mem_sent_append hs (.list viewer channel w :: later))
      rw [hid] at hle
      exact absurd (Int.ofNat_le.1 hle) (Nat.not_le.2 hlength)
  · rintro ⟨viewer, channel, w, hmem, hexceeds⟩
    obtain ⟨earlier, later, rfl⟩ := List.append_of_mem hmem
    exact ⟨earlier, viewer, channel, w, later, rfl, .inl hexceeds⟩

end Run

/-- Whether a message that was sent is open to a viewer as the tables stand: a message to a channel
to those who are subscribed, a direct message to its audience, and a whisper to its audience and to
the members of the groups that it names. -/
def Sent.IsOpenTo (s : Sent) (viewer : UserId) (db : Database) : Prop :=
  match s.message.whisper, s.message.channel with
  | none, some channel => db.isSubscribed channel viewer = true
  | none, none => viewer ∈ s.audience
  | some d, _ => viewer ∈ s.audience ∨ ∃ group ∈ d.groups, (group, viewer) ∈ db.members

namespace Run

variable {r : Run} {s : Sent} {viewer : UserId} {id : MessageId}

theorem grants_iff (h : r.Recorded) (hs : s ∈ r.sent) :
    r.shared.contents.grants viewer s.message = true ↔ s.IsOpenTo viewer r.shared.contents := by
  unfold Sent.IsOpenTo
  rcases hw : s.message.whisper with _ | d
  · rcases hc : s.message.channel with _ | channel
    · rw [Database.grants_direct hw hc, h.hasVisibilityRow_iff hs]
    · rw [Database.grants_ordinary hw hc]
  · rw [Database.grants_whisper_iff hw, h.hasVisibilityRow_iff hs]

theorem get_of_mem (h : r.Recorded) (hpoisoned : r.shared.poisoned = false) (hs : s ∈ r.sent) :
    r.get viewer s.message.id =
      if r.shared.contents.grants viewer s.message then .ok s.message
      else .error (.error .notVisible) := by
  have hstored : s.message ∈ r.shared.contents.stored := by
    rw [h.stored_eq]
    exact List.mem_map_of_mem hs
  calc
    r.get viewer s.message.id = r.shared.contents.get viewer s.message.id :=
      SharedDatabase.answer_read hpoisoned
    _ = if r.shared.contents.grants viewer s.message then .ok s.message
        else .error (.error .notVisible) := by
      rw [Database.get_eq, Database.messageById_eq_some_iff.2 ⟨hstored, rfl⟩]

theorem get_of_not_mem (h : r.Recorded) (hpoisoned : r.shared.poisoned = false)
    (hid : ∀ s ∈ r.sent, s.message.id ≠ id) :
    r.get viewer id = .error (.error .notVisible) := by
  have hnone : ∀ m, r.shared.contents.get viewer id ≠ .ok m := by
    intro m hm
    obtain ⟨hstored, hmid, -⟩ := Database.get_eq_ok_iff.1 hm
    rw [h.stored_eq] at hstored
    obtain ⟨s, hs, rfl⟩ := List.mem_map.1 hstored
    exact hid s hs hmid
  calc
    r.get viewer id = r.shared.contents.get viewer id := SharedDatabase.answer_read hpoisoned
    _ = .error (.error .notVisible) := (Database.get_eq_notVisible_iff h.decodes).2 hnone

theorem poisoned_of_iff (actions : List Action) :
    (of actions).shared.poisoned = true ↔ BreaksDown {} actions := by
  have hstart : ¬ (of []).shared.poisoned = true := Bool.false_ne_true
  have hpoisoned := poisoned_foldl_iff (recorded_of []) actions
  rw [or_iff_right hstart] at hpoisoned
  exact hpoisoned

/-- At every moment after a send a viewer gets its message, as the send returned it, just when it is
open to the viewer, and of all else learns only that it is not visible.  This ends with the first
page that breaks down, from where on no question is answered: one for which no memory can be set
aside, or, when all identifiers have been given out, one whose walk cannot count on. -/
theorem get_of_append (earlier later : List Action) (viewer : UserId) :
    ((of (earlier ++ later)).shared.poisoned = true ↔ BreaksDown {} (earlier ++ later)) ∧
      ((of (earlier ++ later)).sent.length < 0x7fffffffffffffff →
        (BreaksDown {} (earlier ++ later) ↔
          ∃ viewer channel w, .list viewer channel w ∈ earlier ++ later ∧ w.Exceeds)) ∧
      if (of (earlier ++ later)).shared.poisoned then
        ∀ id, (of (earlier ++ later)).get viewer id = .error (.error (.store .poisoned))
      else
        (∀ s ∈ (of earlier).sent,
          (s.IsOpenTo viewer (of (earlier ++ later)).shared.contents →
            (of (earlier ++ later)).get viewer s.message.id = .ok s.message) ∧
          (¬ s.IsOpenTo viewer (of (earlier ++ later)).shared.contents →
            (of (earlier ++ later)).get viewer s.message.id = .error (.error .notVisible))) ∧
        ∀ id, (∀ s ∈ (of (earlier ++ later)).sent, s.message.id ≠ id) →
          (of (earlier ++ later)).get viewer id = .error (.error .notVisible) := by
  have hrecorded := recorded_of (earlier ++ later)
  refine ⟨poisoned_of_iff _, breaksDown_iff_of_length_lt, ?_⟩
  split
  case isTrue hpoisoned =>
    intro id
    exact SharedDatabase.answer_read_of_poisoned hpoisoned
  case isFalse hpoisoned =>
    rw [Bool.not_eq_true] at hpoisoned
    refine ⟨fun s hs ↦ ?_, fun id hid ↦ get_of_not_mem hrecorded hpoisoned hid⟩
    have hsent := mem_sent_append hs later
    rw [get_of_mem hrecorded hpoisoned hsent, ← grants_iff hrecorded hsent]
    constructor
    · intro hopen
      rw [if_pos hopen]
    · intro hclosed
      rw [if_neg hclosed]

end Run

end WhisperChat
