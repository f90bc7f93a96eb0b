import WhisperChat.Proofs.Commit

/-!
# All or nothing

A unit of work that fails leaves the database, tables and lock, as if it had not been tried.  A send
asks all its questions first and writes last, so that it makes at most one call that changes
anything, and none before all checks have passed: a request that is refused writes nothing even
where nothing would be taken back (`transact_all_or_nothing`).
-/

namespace WhisperChat

open Work

/-! ## Failing units -/

/-- A use as a whole or not at all that ends in an error leaves tables and lock as they were. -/
theorem SharedDatabase.shared_transact_of_error {α : Type} {s : SharedDatabase}
    {use : Database → Work.Outcome α} {cause : WhisperError}
    (h : (s.transact use).answer = .error (.error cause)) : (s.transact use).shared = s := by
  rw [answer_transact] at h
  unfold transact locked
  split at h
  case isTrue hpoisoned => simp [hpoisoned]
  case isFalse hpoisoned =>
    rw [Bool.not_eq_true] at hpoisoned
    simp only [hpoisoned, h, Bool.false_eq_true, if_false, Failure.isBreakdown]
    rw [← hpoisoned]

/-- A send that fails, for whatever reason, leaves tables and lock as they were. -/
theorem SharedDatabase.shared_send_of_error {s : SharedDatabase} {faults : List Method}
    {now : ClockReading} {sender : UserId} {request : SendRequest} {e : Failure}
    (h : (s.atomic faults (send now sender request)).answer = .error e) :
    (s.atomic faults (send now sender request)).shared = s :=
  calc
    (s.atomic faults (send now sender request)).shared =
        ⟨(s.atomic faults (send now sender request)).shared.contents,
          (s.atomic faults (send now sender request)).shared.poisoned⟩ := rfl
    _ = s := by rw [atomic_of_error h, poisoned_atomic (within_send now sender request)]

/-- A send that fails, for whatever reason, might as well not have been tried. -/
theorem Run.step_of_failed_send {r : Run} {faults : List Method} {now : ClockReading}
    {sender : UserId} {request : SendRequest}
    (h : ((Action.send faults now sender request).perform r.shared).1 = none) :
    r.step (.send faults now sender request) = r := by
  have hshared : (r.shared.atomic faults (send now sender request)).shared = r.shared := by
    cases hanswer : (r.shared.atomic faults (send now sender request)).answer with
    | ok sent => simp [Action.perform, hanswer, Except.toOption] at h
    | error e => exact SharedDatabase.shared_send_of_error hanswer
  simp only [step, h, Option.toList_none, List.append_nil]
  simp only [Action.perform, hshared]

/-! ## The calls of a send -/

variable {db db' : Database} {faults : List Method} {now : ClockReading} {sender : UserId}
  {request : SendRequest} {sent : Sent}

/-- A send either has asked questions only, and has failed and written nothing, or has passed all
checks and makes one last call, which writes its message for its audience. -/
theorem trace_send (db : Database) (faults : List Method) (now : ClockReading) (sender : UserId)
    (request : SendRequest) :
    ∃ questions : List Call, (∀ c ∈ questions, c.isQuestion = true) ∧
      (((send now sender request).run faults db).trace = questions ∧
          (∃ e, ((send now sender request).run faults db).answer = .error e) ∧
          ((send now sender request).run faults db).database = db ∨
        db.Admits sender request ∧
          ((send now sender request).run faults db).trace =
            questions ++ [.insertMessage (request.draft now sender)
              (db.audienceOf sender request.target request.descriptor?)] ∧
          ∀ e, ((send now sender request).run faults db).answer = .error e →
            ∃ cause, e = .error (.store cause)) := by
  have hwithin := Send.within_prepare now sender request
  refine ⟨((Send.prepare now sender request).run faults db).trace, fun c hc ↦ hwithin.trace hc, ?_⟩
  rw [Send.send_eq, run_bind]
  cases hprepare : ((Send.prepare now sender request).run faults db).answer with
  | error e =>
    left
    simp only [Outcome.andThen, hprepare]
    exact ⟨trivial, ⟨e, rfl⟩, hwithin.database_eq faults db⟩
  | ok p =>
    right
    have hyields : (Send.prepare now sender request).Yields faults db p
        ((Send.prepare now sender request).run faults db).database := ⟨hprepare, rfl⟩
    obtain ⟨hadmits, hdraft, haudience, hkeep⟩ := Send.yields_prepare_iff.1 hyields.of_faults
    simp only [Outcome.andThen, hprepare]
    rw [← hkeep]
    refine ⟨hadmits, ?_, ?_⟩
    · rw [trace_ask_bind_pure, hdraft, haudience]
    · intro e he
      -- The last call fails as the store does, and what follows it does not fail.
      have hinsert : Within (fun _ ↦ True) (fun _ ↦ False) (do
          let message ← ask (.insertMessage p.1 p.2)
          return Sent.mk message p.2) := by
        refine Within.bind (within_ask trivial) ?_
        exact fun _ ↦ within_pure _
      exact (hinsert.failure he).resolve_left id

/-- A use of the database as a whole or not at all, whatever it does with the store and whatever
goes wrong, changes nothing if it fails: tables and lock are the same as before, so that a run is
the same without a send that failed.  A send that ends well has added one row under the next
identifier and the index rows of its audience, none of which was there if the index was sound, and
has changed nothing else.  A send makes at most one call that writes, as its last, and only after
all checks have passed: what it refuses it has not written, not even outside of such a
transaction. -/
theorem transact_all_or_nothing (s : SharedDatabase) :
    (∀ {α : Type} (use : Database → Work.Outcome α),
        (∀ e, (s.transact use).answer = .error e →
          (s.transact use).shared.contents = s.contents) ∧
        ∀ cause, (s.transact use).answer = .error (.error cause) →
          (s.transact use).shared = s) ∧
      ∀ faults now sender request,
        (∀ e, (s.atomic faults (send now sender request)).answer = .error e →
          ∀ sent later, (Action.send faults now sender request :: later).foldl Run.step ⟨s, sent⟩ =
            later.foldl Run.step ⟨s, sent⟩) ∧
        (∀ sent, (s.atomic faults (send now sender request)).answer = .ok sent →
          let db' := (s.atomic faults (send now sender request)).shared.contents
          s.contents.Sends now sender request sent db' ∧
            db'.messages.rows = s.contents.messages.rows ++
              [.ofDraft sent.message.id sent.message.toDraft] ∧
            (s.contents.IndexIsSound → db'.visibility = s.contents.visibility ++
              sent.audience.toList.map fun user ↦ (sent.message.id, user)) ∧
            db' = { s.contents with messages := db'.messages, visibility := db'.visibility }) ∧
        ∀ db : Database,
          let outcome := (send now sender request).run faults db
          (∀ c ∈ outcome.trace.dropLast, c.isQuestion = true) ∧
            (∀ draft audience, .insertMessage draft audience ∈ outcome.trace →
              db.Admits sender request ∧ draft = request.draft now sender ∧
                audience = db.audienceOf sender request.target request.descriptor?) ∧
            ∀ e, outcome.answer = .error e → (∀ cause, e ≠ .error (.store cause)) →
              (∀ c ∈ outcome.trace, c.isQuestion = true) ∧ outcome.database = db := by
  refine ⟨fun use ↦ ⟨fun e h ↦ SharedDatabase.contents_transact_of_error h,
    fun cause h ↦ SharedDatabase.shared_transact_of_error h⟩, ?_⟩
  intro faults now sender request
  refine ⟨?_, ?_, ?_⟩
  · intro e he sent later
    have hnone : ((Action.send faults now sender request).perform s).1 = none := by
      simp [Action.perform, he, Except.toOption]
    rw [List.foldl_cons]
    exact congrArg (later.foldl Run.step) (Run.step_of_failed_send hnone)
  · intro sent hsent
    obtain ⟨-, hyields, -⟩ := SharedDatabase.atomic_of_ok hsent
    have hsends := sends_of_yields hyields
    refine ⟨hsends, hsends.rows_eq, hsends.visibility_eq, ?_⟩
    simp only [hsends.database, Database.withMessage]
  · intro db outcome
    obtain ⟨questions, hquestions, ⟨htrace, -, hkeep⟩ | ⟨hadmits, htrace, hfails⟩⟩ :=
      trace_send db faults now sender request
    · refine ⟨fun c hc ↦ hquestions c ?_, ?_, fun e _ _ ↦ ⟨?_, hkeep⟩⟩
      · exact htrace ▸ (List.dropLast_sublist _).subset hc
      · intro draft audience hwrite
        have hfalse : false = true := hquestions (.insertMessage draft audience) (htrace ▸ hwrite)
        cases hfalse
      · exact htrace ▸ hquestions
    · refine ⟨?_, ?_, ?_⟩
      · intro c hc
        have hlast : outcome.trace.dropLast = questions := by
          rw [htrace, List.dropLast_concat]
        exact hquestions c (hlast ▸ hc)
      · intro draft audience hwrite
        rw [htrace, List.mem_append, List.mem_singleton] at hwrite
        rcases hwrite with hquestion | hinsert
        · have hfalse : false = true := hquestions (.insertMessage draft audience) hquestion
          cases hfalse
        · obtain ⟨rfl, rfl⟩ := Call.insertMessage.inj hinsert
          exact ⟨hadmits, rfl, rfl⟩
      · intro e he hstore
        obtain ⟨cause, rfl⟩ := hfails e he
        exact absurd rfl (hstore cause)

/-- A whisper after which its unit is given up. -/
def abortedSend : Work Sent :=
  send .epoch (.small 1) sampleRequest >>= fun _ ↦ Work.throw (.store .aborted)

/-- A unit that is given up after its message has been written leaves no trace of it.  A send that
the store refuses to write might as well not have been tried, whatever comes after it. -/
theorem transact_all_or_nothing_aborted :
    let s := (Run.of sampleActions).shared
    (abortedSend.run [] s.contents).database.messages.rows.length = 1 ∧
      (s.atomic [] abortedSend).answer = .error (.error (.store .aborted)) ∧
      (s.atomic [] abortedSend).shared = s ∧
      ∀ later, (.send [.insertMessage] .epoch (.small 1) sampleRequest :: later).foldl Run.step
          ⟨s, []⟩ = later.foldl Run.step ⟨s, []⟩ := by
  intro s
  obtain ⟨hunits, hsends⟩ := transact_all_or_nothing s
  have haborted : (s.atomic [] abortedSend).answer = .error (.error (.store .aborted)) := by
    decide +kernel
  have hrefused : (s.atomic [.insertMessage] (send .epoch (.small 1) sampleRequest)).answer =
      .error (.error (.store (.faulty .insertMessage))) := by decide +kernel
  refine ⟨by decide +kernel, haborted, (hunits (abortedSend.run [])).2 _ haborted, ?_⟩
  exact (hsends [.insertMessage] .epoch (.small 1) sampleRequest).1 _ hrefused []

end WhisperChat
