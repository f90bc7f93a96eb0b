/-!
# When a computation that may fail succeeds

A computation put together from others succeeds when they do, in their order.  What a success says
is read off with these lemmas, one step at a time.
-/

namespace WhisperChat

variable {ε α β : Type} {e : ε} {a b : α} {x : Except ε α}

theorem bind_eq_ok_iff {f : α → Except ε β} {b : β} :
    x >>= f = .ok b ↔ ∃ a, x = .ok a ∧ f a = .ok b := by
  cases x with
  | error e =>
    constructor
    · intro h
      cases h
    · rintro ⟨_, h, -⟩
      cases h
  | ok a =>
    constructor
    · intro h
      exact ⟨a, rfl, h⟩
    · rintro ⟨_, ⟨⟩, h⟩
      exact h

theorem pure_eq_ok_iff : (pure a : Except ε α) = .ok b ↔ a = b := by
  change Except.ok a = .ok b ↔ _
  rw [Except.ok.injEq]

theorem throw_eq_ok_iff : (throw e : Except ε α) = .ok b ↔ False := by
  constructor
  · intro h
    cases h
  · exact False.elim

theorem ite_eq_ok_iff {p : Prop} [Decidable p] {y : Except ε α} :
    (if p then x else y) = .ok b ↔ p ∧ x = .ok b ∨ ¬ p ∧ y = .ok b := by
  split <;> simp [*]

theorem map_eq_ok_iff {f : α → β} {b : β} : x.map f = .ok b ↔ ∃ a, x = .ok a ∧ f a = b := by
  cases x <;> simp [Except.map]

theorem toOption_eq_some_iff : x.toOption = some a ↔ x = .ok a := by
  cases x <;> simp [Except.toOption]

end WhisperChat
