import WhisperChat.Proofs.Page

/-!
# Filtering a list of messages

What a viewer can reach in a channel is asked once, and the index once more for the messages that
depend on it.  That settles each message of the list as asking the store about it alone would, apart
from ordinary messages of other channels, about whose subscribers the context says nothing: these
are left out (`filterVisible_keeps_resolved`).
-/

namespace WhisperChat

open Work

/-- Whether the message goes to all subscribers of a channel other than the given one. -/
def Message.isOrdinaryElsewhere (m : Message) (channel : ChannelId) : Bool :=
  match m.whisper, m.channel with
  | none, some c => c ≠ channel
  | _, _ => false

theorem Message.needsRow_or_eq (m : Message) (channel : ChannelId) :
    (m.needsRow || m.channel = some channel) = !m.isOrdinaryElsewhere channel := by
  unfold needsRow isOrdinaryElsewhere
  cases m.whisper with
  | some d => simp
  | none =>
    cases m.channel with
    | none => simp
    | some c => simp

/-- The index is asked once, about all messages that depend on it, and not at all where there are
none. -/
theorem trace_filterVisible (context : ViewerContext) (candidates : List Message)
    (faults : List Method) (db : Database) :
    ((filterVisible context candidates).run faults db).trace =
      if candidates.any Message.needsRow then
        [.visibilityRowsAmong context.viewer ((candidates.filter Message.needsRow).map Message.id)]
      else [] := by
  unfold filterVisible
  split
  case h_1 hnone =>
    rw [List.map_eq_nil_iff, List.filter_eq_nil_iff, ← List.any_eq_false] at hnone
    simp only [hnone, Bool.false_eq_true, if_false]
    rfl
  case h_2 hsome =>
    rw [List.map_eq_nil_iff, List.filter_eq_nil_iff, ← List.any_eq_false] at hsome
    rw [if_pos (Bool.eq_true_of_not_eq_false hsome), trace_ask_bind_pure]

/-- A list is filtered down to the messages that the resolver grants the viewer one by one, in their
order and with their repeats, without the ordinary messages of other channels. -/
theorem filterVisible_keeps_resolved (db : Database) (viewer : UserId) (channel : ChannelId) :
    ∃ context, (ViewerContext.load viewer channel).Yields [] db context db ∧
      ∃ resolved : Message → Bool,
        (∀ m, (isVisible .live viewer m).Yields [] db (resolved m) db) ∧
        ∀ candidates, (filterVisible context candidates).Yields [] db
          (candidates.filter fun m ↦ resolved m && !m.isOrdinaryElsewhere channel) db := by
  refine ⟨db.contextOf viewer channel, yields_load db viewer channel, db.grants viewer,
    yields_isVisible_live db viewer, fun candidates ↦ ?_⟩
  simp only [← Message.needsRow_or_eq]
  exact yields_filterVisible candidates

end WhisperChat
