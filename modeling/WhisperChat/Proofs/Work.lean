import WhisperChat.Store.Work

/-!
# How pieces of work end

A piece of work that ends well has a result and leaves a database; the relation `Work.Yields` says
which.  It is settled by the parts: a sequence yields what its second part yields after the first.
A piece of work whose calls and failures all lie within given bounds keeps them in every run, so
that a work that asks only for reading leaves the database as it was.
-/

namespace WhisperChat

namespace Work

variable {α β : Type} {faults : List Method} {db db' : Database}

/-! ## Sequences -/

/-- Goes on after an outcome: a failure ends it, a result is passed on with the database. -/
def Outcome.andThen (o : Outcome α) (next : α → Database → Outcome β) : Outcome β :=
  match o.answer with
  | .error e => ⟨.error e, o.database, o.trace⟩
  | .ok a => { next a o.database with trace := o.trace ++ (next a o.database).trace }

theorem run_bind (w : Work α) (f : α → Work β) (db : Database) :
    (w >>= f).run faults db = (w.run faults db).andThen fun a db ↦ (f a).run faults db := by
  change (w.bind f).run faults db = _
  induction w generalizing db with
  | done a => simp [bind, run, Outcome.andThen]
  | fail e => simp [bind, run, Outcome.andThen]
  | call c next ih =>
    simp only [bind, run]
    split
    · simp [Outcome.andThen]
    · rcases c.answer db with ⟨_ | a, db₁⟩
      · simp [Outcome.andThen]
      · simp only [ih a db₁, Outcome.andThen]
        split <;> simp

/-! ## Ending well -/

/-- The work ends well: it has the result `a` and leaves the database `db'`. -/
def Yields (w : Work α) (faults : List Method) (db : Database) (a : α) (db' : Database) : Prop :=
  (w.run faults db).answer = .ok a ∧ (w.run faults db).database = db'

@[simp]
theorem yields_pure_iff {a b : α} :
    (pure a : Work α).Yields faults db b db' ↔ a = b ∧ db = db' := by
  change (done a).Yields faults db b db' ↔ _
  simp [Yields, run]

@[simp]
theorem not_yields_fail {e : Failure} {a : α} : ¬ (fail e : Work α).Yields faults db a db' := by
  simp [Yields, run]

@[simp]
theorem not_yields_throw {e : WhisperError} {a : α} :
    ¬ (Work.throw e : Work α).Yields faults db a db' := not_yields_fail

@[simp]
theorem yields_bind_iff {w : Work α} {f : α → Work β} {b : β} :
    (w >>= f).Yields faults db b db' ↔
      ∃ a db₁, w.Yields faults db a db₁ ∧ (f a).Yields faults db₁ b db' := by
  simp only [Yields, run_bind, Outcome.andThen]
  split
  · rename_i e h
    simp [h]
  · rename_i a h
    constructor
    · intro hb
      exact ⟨a, _, ⟨h, rfl⟩, hb⟩
    · rintro ⟨a', _, ⟨ha, rfl⟩, hb⟩
      rw [h, Except.ok.injEq] at ha
      exact ha ▸ hb

-- The type of an answer computes, so that it must not guide the search for this lemma.
theorem yields_ask_iff {c : Call} {a : c.Result} :
    @Yields (no_index c.Result) (no_index (ask c)) faults db (no_index a) db' ↔
      c.method ∉ faults ∧ c.answer db = (.ok a, db') := by
  simp only [Yields, ask, run, List.contains_eq_mem, decide_eq_true_eq]
  split
  · simp [*]
  · rcases c.answer db with ⟨_ | _, _⟩ <;> simp [*]

@[simp]
theorem yields_map_iff {w : Work α} {f : α → β} {b : β} :
    (f <$> w).Yields faults db b db' ↔ ∃ a, w.Yields faults db a db' ∧ f a = b := by
  rw [map_eq_pure_bind, yields_bind_iff]
  simp only [yields_pure_iff]
  constructor
  · rintro ⟨a, _, ha, hf, rfl⟩
    exact ⟨a, ha, hf⟩
  · rintro ⟨a, ha, hf⟩
    exact ⟨a, db', ha, hf, rfl⟩

/-- What ends well although methods fail never calls one of them. -/
theorem Yields.of_faults {w : Work α} {a : α} (h : w.Yields faults db a db') :
    w.Yields [] db a db' := by
  induction w generalizing db with
  | done b => exact h
  | fail e => exact h
  | call c next ih =>
    simp only [Yields, run, List.contains_eq_mem, decide_eq_true_eq, List.not_mem_nil,
      if_false] at h ⊢
    split at h
    · simp at h
    · rcases hanswer : c.answer db with ⟨_ | b, db₁⟩
      · simp [hanswer] at h
      · simp only [hanswer] at h ⊢
        exact ih b h

theorem Yields.unique {w : Work α} {a b : α} {db'' : Database} (h : w.Yields faults db a db')
    (h' : w.Yields faults db b db'') : a = b ∧ db' = db'' :=
  ⟨Except.ok.inj (h.1.symm.trans h'.1), h.2.symm.trans h'.2⟩

/-- Whatever methods fail, a work ends as it would without, or because one of them was called. -/
theorem answer_run_or_faulty (faults : List Method) (w : Work α) (db : Database) :
    (w.run faults db).answer = (w.run [] db).answer ∨
      ∃ method ∈ faults, (w.run faults db).answer = .error (.error (.store (.faulty method))) := by
  induction w generalizing db with
  | done a => exact .inl rfl
  | fail e => exact .inl rfl
  | call c next ih =>
    simp only [run, List.contains_eq_mem, decide_eq_true_eq, List.not_mem_nil, if_false]
    split
    case isTrue hfaulty => exact .inr ⟨c.method, hfaulty, rfl⟩
    case isFalse =>
      rcases c.answer db with ⟨_ | a, db₁⟩
      · exact .inl rfl
      · exact ih a db₁

/-! ## What follows a part -/

theorem answer_bind_of_yields {w : Work α} {f : α → Work β} {a : α}
    (h : w.Yields faults db a db') :
    ((w >>= f).run faults db).answer = ((f a).run faults db').answer := by
  simp [run_bind, Outcome.andThen, h.1, h.2]

theorem answer_bind_of_error {w : Work α} {f : α → Work β} {e : Failure}
    (h : (w.run faults db).answer = .error e) :
    ((w >>= f).run faults db).answer = .error e := by
  simp [run_bind, Outcome.andThen, h]

theorem answer_ask_bind {c : Call} {f : c.Result → Work β} :
    ((ask c >>= f).run [] db).answer =
      match c.answer db with
      | (.error cause, _) => .error (.error (.store cause))
      | (.ok a, db') => ((f a).run [] db').answer := by
  rcases h : c.answer db with ⟨_ | _, _⟩ <;> simp [run_bind, ask, run, h, Outcome.andThen]

/-- A work of a single call, whatever it makes of the answer. -/
theorem trace_ask_bind_pure {c : Call} (f : c.Result → β) :
    ((ask c >>= fun a ↦ pure (f a)).run faults db).trace = [c] := by
  change ((call c fun a ↦ done (f a)).run faults db).trace = [c]
  simp only [run]
  split
  · rfl
  · rcases c.answer db with ⟨_ | _, _⟩ <;> rfl

/-! ## Failing -/

/-- The work ends in the failure `e`. -/
def Fails (w : Work α) (faults : List Method) (db : Database) (e : Failure) : Prop :=
  (w.run faults db).answer = .error e

/-- What ends well does not fail. -/
theorem Yields.not_fails {w : Work α} {a : α} (h : w.Yields faults db a db') (e : Failure) :
    ¬ w.Fails faults db e := by
  intro hfails
  rw [Fails, h.1] at hfails
  cases hfails

@[simp]
theorem not_fails_pure {a : α} {e : Failure} : ¬ (pure a : Work α).Fails faults db e := by
  change ¬ (done a).Fails faults db e
  simp [Fails, run]

@[simp]
theorem fails_throw_iff {cause : WhisperError} {e : Failure} :
    (Work.throw cause : Work α).Fails faults db e ↔ e = .error cause := by
  simp [Fails, Work.throw, run, eq_comm]

/-- A sequence fails in its first part, or in its second after the first has ended well. -/
theorem fails_bind_iff {w : Work α} {f : α → Work β} {e : Failure} :
    (w >>= f).Fails faults db e ↔
      w.Fails faults db e ∨
        ∃ a db₁, w.Yields faults db a db₁ ∧ (f a).Fails faults db₁ e := by
  simp only [Fails, Yields, run_bind, Outcome.andThen]
  split
  · rename_i e' h
    simp [h]
  · rename_i a h
    constructor
    · intro he
      exact .inr ⟨a, _, ⟨h, rfl⟩, he⟩
    · rintro (he | ⟨a', _, ⟨ha, rfl⟩, he⟩)
      · simp [h] at he
      · rw [h, Except.ok.injEq] at ha
        exact ha ▸ he

theorem fails_bind_of_yields {w : Work α} {f : α → Work β} {a : α} {e : Failure}
    (h : w.Yields faults db a db') :
    (w >>= f).Fails faults db e ↔ (f a).Fails faults db' e := by
  rw [Fails, Fails, answer_bind_of_yields h]

/-- A question that is answered does not fail by itself. -/
theorem fails_ask_bind_iff {c : Call} {f : c.Result → Work β} {a : c.Result} {e : Failure}
    (h : c.answer db = (.ok a, db)) :
    (ask c >>= f).Fails [] db e ↔ (f a).Fails [] db e :=
  fails_bind_of_yields (yields_ask_iff.2 ⟨List.not_mem_nil, h⟩)

/-! ## Bounds on calls and failures -/

/-- Every call that the work can make and every failure that it can declare are of given kinds. -/
inductive Within (calls : Call → Prop) (failures : Failure → Prop) : Work α → Prop
  | done (a : α) : Within calls failures (done a)
  | fail {e : Failure} (h : failures e) : Within calls failures (fail e)
  | call {c : Call} {next : c.Result → Work α} (hc : calls c)
      (h : ∀ a, Within calls failures (next a)) : Within calls failures (call c next)

variable {calls : Call → Prop} {failures : Failure → Prop}

theorem within_pure (a : α) : Within calls failures (pure a : Work α) := .done a

theorem within_throw {e : WhisperError} (h : failures (.error e)) :
    Within calls failures (Work.throw e : Work α) := .fail h

theorem within_ask {c : Call} (h : calls c) : Within calls failures (ask c) :=
  .call h fun a ↦ .done a

theorem Within.bind {w : Work α} {f : α → Work β} (hw : Within calls failures w)
    (hf : ∀ a, Within calls failures (f a)) : Within calls failures (w >>= f) := by
  change Within calls failures (w.bind f)
  induction hw with
  | done a => exact hf a
  | fail h => exact .fail h
  | call hc _ ih => exact .call hc ih

theorem Within.mono {calls' : Call → Prop} {failures' : Failure → Prop} {w : Work α}
    (hw : Within calls failures w) (hcalls : ∀ c, calls c → calls' c)
    (hfailures : ∀ e, failures e → failures' e) : Within calls' failures' w := by
  induction hw with
  | done a => exact .done a
  | fail h => exact .fail (hfailures _ h)
  | call hc _ ih => exact .call (hcalls _ hc) ih

/-- The calls that are made are calls that can be made. -/
theorem Within.trace {w : Work α} (hw : Within calls failures w) {c : Call}
    (hc : c ∈ (w.run faults db).trace) : calls c := by
  induction hw generalizing db with
  | done a => exact absurd hc List.not_mem_nil
  | fail h => exact absurd hc List.not_mem_nil
  | @call first next hfirst _ ih =>
    simp only [run] at hc
    split at hc
    · rw [List.mem_singleton.1 hc]
      exact hfirst
    · rcases hanswer : first.answer db with ⟨cause | a, db₁⟩ <;> simp only [hanswer] at hc
      · rw [List.mem_singleton.1 hc]
        exact hfirst
      · rcases List.mem_cons.1 hc with rfl | hc
        · exact hfirst
        · exact ih a hc

/-- A work fails in a way that it can declare, or because the store does. -/
theorem Within.failure {w : Work α} (hw : Within calls failures w) {e : Failure} {db : Database}
    (h : (w.run faults db).answer = .error e) :
    failures e ∨ ∃ cause, e = .error (.store cause) := by
  induction hw generalizing db with
  | done a => simp [run] at h
  | fail he =>
    simp only [run, Except.error.injEq] at h
    exact .inl (h ▸ he)
  | @call c next hc _ ih =>
    simp only [run] at h
    split at h
    · simp only [Except.error.injEq] at h
      exact .inr ⟨_, h.symm⟩
    · rcases hanswer : c.answer db with ⟨cause | a, db₁⟩ <;> simp only [hanswer] at h
      · simp only [Except.error.injEq] at h
        exact .inr ⟨_, h.symm⟩
      · exact ih a h

/-- A work that declares no breakdown does not break down: the store never does. -/
theorem Within.not_fails {w : Work α} (hw : Within calls (·.isBreakdown = false) w) {e : Failure}
    (he : e.isBreakdown = true) : ¬ w.Fails faults db e := by
  intro h
  rcases hw.failure h with hdeclared | ⟨cause, rfl⟩
  · rw [hdeclared] at he
    cases he
  · cases he

end Work

/-! ## Calls that read -/

/-- Whether the call is a question, which leaves the database as it is. -/
def Call.isQuestion : Call → Bool
  | insertMessage _ _ => false
  | _ => true

/-- Whether the call asks for messages, or for what the tables say of the user. -/
def Call.isFor (user : UserId) : Call → Bool
  | messageById _ | channelWindow _ _ _ => true
  | isChannelSubscriber _ u | currentUserGroups u => u = user
  | hasVisibilityRow _ u | visibilityRowsAmong u _ => u = user
  | _ => false

theorem Call.isQuestion_of_isFor {c : Call} {user : UserId} (h : c.isFor user = true) :
    c.isQuestion = true := by
  cases c <;> first | rfl | cases h

theorem Call.answer_snd_of_isQuestion {c : Call} (h : c.isQuestion = true) (db : Database) :
    (c.answer db).2 = db := by
  cases c <;> first | rfl | simp [Call.isQuestion] at h

/-- A work that only asks questions leaves the database as it is. -/
theorem Work.Within.database_eq {α : Type} {failures : Failure → Prop} {w : Work α}
    (hw : Within (·.isQuestion = true) failures w) (faults : List Method) (db : Database) :
    (w.run faults db).database = db := by
  induction hw generalizing db with
  | done a => rfl
  | fail _ => rfl
  | @call c next hc _ ih =>
    have hkeep := Call.answer_snd_of_isQuestion hc db
    simp only [run]
    split
    · rfl
    · rcases hanswer : c.answer db with ⟨_ | a, db₁⟩ <;> simp only [hanswer] at hkeep ⊢
      · exact hkeep
      · rw [ih a db₁, hkeep]

theorem Work.Within.questions {α : Type} {failures : Failure → Prop} {w : Work α} {user : UserId}
    (hw : Within (·.isFor user = true) failures w) : Within (·.isQuestion = true) failures w :=
  hw.mono (fun _ ↦ Call.isQuestion_of_isFor) fun _ ↦ id

/-- A work that only asks questions ends alike wherever they are answered alike. -/
theorem Work.Within.answer_congr {α : Type} {calls : Call → Prop} {failures : Failure → Prop}
    {w : Work α} {db db' : Database} (hw : Within calls failures w)
    (hquestion : ∀ c, calls c → c.isQuestion = true)
    (hsame : ∀ c, calls c → (c.answer db').1 = (c.answer db).1) (faults : List Method) :
    (w.run faults db').answer = (w.run faults db).answer := by
  induction hw with
  | done a => rfl
  | fail _ => rfl
  | @call c next hc _ ih =>
    have hdb : c.answer db = ((c.answer db).1, db) :=
      Prod.ext rfl (Call.answer_snd_of_isQuestion (hquestion c hc) db)
    have hdb' : c.answer db' = ((c.answer db).1, db') :=
      Prod.ext (hsame c hc) (Call.answer_snd_of_isQuestion (hquestion c hc) db')
    simp only [run]
    split
    · rfl
    · rw [hdb, hdb']
      cases (c.answer db).1 with
      | error cause => rfl
      | ok a => exact ih a

end WhisperChat
