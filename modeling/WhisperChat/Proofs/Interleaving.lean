import WhisperChat.Http.Service
import WhisperChat.Proofs.Dispatcher
import WhisperChat.Proofs.FailClosed
import WhisperChat.Proofs.Visibility

/-!
# Sends side by side

A request to send is served by a task of its own in two steps, the commit and the announcement, and
anything may happen in between: other sends, changes of groups and subscriptions, connections that
come and go, clients that hang up.  The audience that an announcement goes to was settled by the
commit, so that the tables may say something else by then.  What has been given to the connections
is therefore related to what the sends have returned (`Traffic.Sound`), and every step keeps it so.
-/

namespace WhisperChat

open Work

/-- How far the task of a request to send has come. -/
inductive SendStage where
  | spawned
  | committed (sent : Sent)
  | told (sent : Sent)
  | failed (cause : ApiError)

def SendStage.sent? : SendStage → Option Sent
  | committed sent | told sent => some sent
  | spawned | failed _ => none

/-- The task of a request to send, which goes on by itself once it is spawned. -/
structure SendTask where
  sender : UserId
  request : SendRequest
  stage : SendStage := .spawned

/-- The service and the tasks under way.  The other parts record what has happened; no step looks at
them. -/
structure Traffic where
  service : Http.Service
  tasks : List SendTask := []
  /-- The tasks whose clients have gone away. -/
  hungUp : List Nat := []
  /-- What the sends that succeeded have returned. -/
  sent : List Sent := []
  /-- The users that the connections were registered for, in the order of registration. -/
  owners : List UserId := []
  /-- The events that have left their queues, because they were taken or the connection closed. -/
  gone : List (ConnectionId × Event) := []

def Event.messageId? : Event → Option MessageId
  | messageCreated m => some m.id
  | ready _ => none

namespace Traffic

inductive Label where
  /-- A request to send arrives. -/
  | spawn (sender : UserId) (request : SendRequest)
  /-- The client of a task goes away. -/
  | hangUp (task : Nat)
  /-- A task runs its unit of work on the database. -/
  | commit (task : Nat) (now : ClockReading)
  /-- A task tells the audience. -/
  | announce (task : Nat)
  | register (user : UserId)
  | unregister (user : UserId) (c : ConnectionId)
  | close (c : ConnectionId)
  /-- The first event of a queue is taken. -/
  | take (c : ConnectionId)
  /-- The database is used otherwise, to change a group or a subscription or to read. -/
  | act (action : Action)

def Label.isHangUp : Label → Bool
  | hangUp _ => true
  | _ => false

def stage? (σ : Traffic) (i : Nat) : Option SendStage := (σ.tasks[i]?).map SendTask.stage

def advance (σ : Traffic) (i : Nat) (stage : SendStage) : Traffic :=
  { σ with tasks := σ.tasks.modify i fun t ↦ { t with stage } }

def setDispatcher (σ : Traffic) (dispatcher : Dispatcher) : Traffic :=
  { σ with service := { σ.service with dispatcher } }

/-- The system after its next step.  What cannot happen changes nothing. -/
def step (σ : Traffic) : Label → Traffic
  | .spawn sender request => { σ with tasks := σ.tasks ++ [{ sender, request }] }
  | .hangUp i => { σ with hungUp := σ.hungUp ++ [i] }
  | .commit i now =>
    match σ.tasks[i]? with
    | some ⟨sender, request, .spawned⟩ =>
      match σ.service.commit now sender request with
      | (.ok sent, service) =>
        { σ with service, sent := σ.sent ++ [sent] }.advance i (.committed sent)
      | (.error cause, service) => { σ with service }.advance i (.failed cause)
    | _ => σ
  | .announce i =>
    match σ.stage? i with
    | some (.committed sent) =>
      { σ with service := σ.service.announce sent }.advance i (.told sent)
    | _ => σ
  | .register user =>
    { σ.setDispatcher (σ.service.dispatcher.register user).2 with owners := σ.owners ++ [user] }
  | .unregister user c => σ.setDispatcher (σ.service.dispatcher.unregister user c)
  | .close c =>
    { σ.setDispatcher (σ.service.dispatcher.closeMailbox c) with
      gone := σ.gone ++ (σ.service.dispatcher.queue c).map fun event ↦ (c, event) }
  | .take c =>
    match σ.service.dispatcher.takeFirst? c with
    | none => σ
    | some (event, dispatcher) =>
      { σ.setDispatcher dispatcher with gone := σ.gone ++ [(c, event)] }
  | .act action =>
    { σ with
      service := { σ.service with shared := (action.perform σ.service.shared).2 }
      sent := σ.sent ++ (action.perform σ.service.shared).1.toList }

/-- A system that has started without users, messages and connections. -/
def start (decode : Token.Decoder) (secret : String) (maxPage : Nat) : Traffic where
  service := { decode, secret, maxPage }

def of (decode : Token.Decoder) (secret : String) (maxPage : Nat) (labels : List Label) : Traffic :=
  labels.foldl step (start decode secret maxPage)

def given (σ : Traffic) (c : ConnectionId) : List Event :=
  (σ.gone.filter fun entry ↦ entry.1 = c).map Prod.snd ++ σ.service.dispatcher.queue c

def toRun (σ : Traffic) : Run := ⟨σ.service.shared, σ.sent⟩

variable {σ σ' : Traffic} {i j : Nat} {c : ConnectionId} {s t : Sent}

/-! ## What single steps do -/

/-- A step that advances one task leaves the others where they are. -/
theorem stage?_step_of_advance {l : Label} {before after : SendStage}
    (hstep : σ.step l = σ'.advance i after) (htasks : σ'.tasks = σ.tasks)
    (hbefore : σ.stage? i = some before) :
    (σ.step l).stage? i = some after ∧ ∀ j ≠ i, (σ.step l).stage? j = σ.stage? j := by
  constructor
  · obtain ⟨task, htask, -⟩ := Option.map_eq_some_iff.1 hbefore
    simp [hstep, stage?, advance, htasks, htask]
  · intro j hne
    simp only [hstep, stage?, advance, htasks]
    rw [List.getElem?_modify_ne _ _ hne.symm]

/-- A commit runs the unit of work of a task that has just been spawned, or changes nothing. -/
theorem step_commit_cases (σ : Traffic) (i : Nat) (now : ClockReading) :
    σ.step (.commit i now) = σ ∨
      σ.stage? i = some .spawned ∧ ∃ sender request,
        let outcome := σ.service.shared.atomic [] (send now sender request)
        let service := { σ.service with shared := outcome.shared }
        (∃ e, outcome.answer = .error e ∧
            σ.step (.commit i now) = { σ with service }.advance i (.failed e.toApiError)) ∨
          ∃ s, outcome.answer = .ok s ∧
            σ.step (.commit i now) =
              { σ with service, sent := σ.sent ++ [s] }.advance i (.committed s) := by
  cases htask : σ.tasks[i]? with
  | none =>
    left
    simp only [step, htask]
  | some task =>
    obtain ⟨sender, request, stage⟩ := task
    cases stage with
    | spawned =>
      right
      refine ⟨by simp [stage?, htask], sender, request, ?_⟩
      cases hanswer : (σ.service.shared.atomic [] (send now sender request)).answer with
      | error e =>
        left
        exact ⟨e, hanswer, by simp [step, htask, Http.Service.commit, hanswer, Except.mapError]⟩
      | ok s =>
        right
        exact ⟨s, hanswer, by simp [step, htask, Http.Service.commit, hanswer, Except.mapError]⟩
    | _ =>
      left
      simp only [step, htask]

/-- An announcement tells the audience of a message that was committed, or changes nothing. -/
theorem step_announce_cases (σ : Traffic) (i : Nat) :
    (∀ s, σ.stage? i ≠ some (.committed s)) ∧ σ.step (.announce i) = σ ∨
      ∃ s, σ.stage? i = some (.committed s) ∧
        σ.step (.announce i) =
          { σ with service := σ.service.announce s }.advance i (.told s) := by
  cases hstage : σ.stage? i with
  | none =>
    left
    exact ⟨by simp, by simp only [step, hstage]⟩
  | some stage =>
    cases stage with
    | committed s =>
      right
      exact ⟨s, rfl, by simp only [step, hstage]⟩
    | _ =>
      left
      exact ⟨by simp, by simp only [step, hstage]⟩

/-! ## What the connections are given -/

theorem given_eq_of_queue (hgone : σ'.gone = σ.gone)
    (hqueue : σ'.service.dispatcher.queue c = σ.service.dispatcher.queue c) :
    σ'.given c = σ.given c := by
  rw [given, given, hgone, hqueue]

/-- An announcement gives the event of its message to the open connections of the audience, and
nothing to any other. -/
theorem given_announce (howned : σ.service.dispatcher.IsOwnedBy σ.owners)
    (hstage : σ.stage? i = some (.committed s)) (c : ConnectionId) :
    (σ.step (.announce i)).given c = σ.given c ++
      if σ.service.dispatcher.Reaches s.audience.toList c then [.messageCreated s.message]
      else [] := by
  have hstep : σ.step (.announce i) =
      { σ with service := σ.service.announce s }.advance i (.told s) := by simp only [step, hstage]
  rw [hstep, given, given, List.append_assoc,
    ← Dispatcher.queue_fanOut howned s.audience.nodup_toList]
  rfl

/-- Nothing else gives anything to anybody. -/
theorem given_step (σ : Traffic) (l : Label) (c : ConnectionId) :
    (σ.step l).given c = σ.given c ∨
      ∃ i s, l = .announce i ∧ σ.stage? i = some (.committed s) := by
  cases l with
  | spawn sender request => exact .inl rfl
  | hangUp i => exact .inl rfl
  | commit i now =>
    left
    rcases step_commit_cases σ i now with
      h | ⟨-, sender, request, ⟨e, -, h⟩ | ⟨s, -, h⟩⟩
    · rw [h]
    · rw [h]
      rfl
    · rw [h]
      rfl
  | announce i =>
    rcases step_announce_cases σ i with ⟨-, h⟩ | ⟨s, hstage, h⟩
    · left
      rw [h]
    · exact .inr ⟨i, s, rfl, hstage⟩
  | register user => exact .inl (given_eq_of_queue rfl (Dispatcher.queue_register user c))
  | unregister user c' => exact .inl rfl
  | close c' => exact .inl (Dispatcher.queue_closeMailbox_append σ.gone)
  | take c' =>
    left
    rw [step]
    split
    · rfl
    · rename_i event dispatcher htake
      exact Dispatcher.queue_of_takeFirst?_append htake σ.gone
  | act action => exact .inl rfl

/-! ## How tasks go on -/

def sent? (σ : Traffic) (i : Nat) : Option Sent := (σ.stage? i).bind SendStage.sent?

/-- What a step can do to a task: it is spawned, it fails or commits, it tells its audience. -/
inductive Moves (σ : Traffic) (l : Label) (i : Nat) : Prop where
  | stays (h : (σ.step l).stage? i = σ.stage? i)
  | spawned (hbefore : σ.stage? i = none) (hafter : (σ.step l).stage? i = some .spawned)
  | failed (cause : ApiError) (hbefore : σ.stage? i = some .spawned)
    (hafter : (σ.step l).stage? i = some (.failed cause))
  | committed (now : ClockReading) (s : Sent) (hlabel : l = .commit i now)
    (hbefore : σ.stage? i = some .spawned) (hafter : (σ.step l).stage? i = some (.committed s))
    (hsent : (σ.step l).sent = σ.sent ++ [s])
  | told (s : Sent) (hlabel : l = .announce i) (hbefore : σ.stage? i = some (.committed s))
    (hafter : (σ.step l).stage? i = some (.told s))

theorem moves_step (σ : Traffic) (l : Label) (j : Nat) : Moves σ l j := by
  cases l with
  | spawn sender request =>
    rcases Nat.lt_trichotomy j σ.tasks.length with hlt | rfl | hgt
    · exact .stays (by simp [step, stage?, List.getElem?_append_left hlt])
    · exact .spawned (by simp [stage?]) (by simp [step, stage?])
    · apply Moves.stays
      simp only [step, stage?]
      rw [List.getElem?_eq_none (by simp; omega), List.getElem?_eq_none (Nat.le_of_lt hgt)]
  | commit i now =>
    rcases step_commit_cases σ i now with
      h | ⟨hspawned, sender, request, ⟨e, -, h⟩ | ⟨s, -, h⟩⟩
    · exact .stays (by rw [h])
    · obtain ⟨hafter, hothers⟩ := stage?_step_of_advance h rfl hspawned
      rcases eq_or_ne j i with rfl | hne
      · exact .failed _ hspawned hafter
      · exact .stays (hothers j hne)
    · obtain ⟨hafter, hothers⟩ := stage?_step_of_advance h rfl hspawned
      rcases eq_or_ne j i with rfl | hne
      · exact .committed now s rfl hspawned hafter (by rw [h]; rfl)
      · exact .stays (hothers j hne)
  | announce i =>
    rcases step_announce_cases σ i with ⟨-, h⟩ | ⟨s, hstage, h⟩
    · exact .stays (by rw [h])
    · obtain ⟨hafter, hothers⟩ := stage?_step_of_advance h rfl hstage
      rcases eq_or_ne j i with rfl | hne
      · exact .told s rfl hstage hafter
      · exact .stays (hothers j hne)
  | take c =>
    apply Moves.stays
    simp only [step]
    split <;> rfl
  | _ => exact .stays rfl

/-- What a task has sent it has sent for good. -/
theorem sent?_step_of_eq_some (l : Label) (h : σ.sent? i = some s) :
    (σ.step l).sent? i = some s := by
  unfold sent? at h ⊢
  cases σ.moves_step l i with
  | stays hsame => rw [hsame, h]
  | spawned hbefore => simp [hbefore] at h
  | failed cause hbefore => simp [hbefore, SendStage.sent?] at h
  | committed now s hlabel hbefore => simp [hbefore, SendStage.sent?] at h
  | told t hlabel hbefore hafter =>
    rw [hbefore] at h
    rw [hafter]
    exact h

/-- What a task has sent after a step it had sent before, or it has just committed it. -/
theorem sent?_of_sent?_step {l : Label} (h : (σ.step l).sent? i = some s) :
    σ.sent? i = some s ∨
      ∃ now, l = .commit i now ∧ (σ.step l).sent = σ.sent ++ [s] := by
  unfold sent? at h ⊢
  cases σ.moves_step l i with
  | stays hsame =>
    rw [hsame] at h
    exact .inl h
  | spawned hbefore hafter => simp [hafter, SendStage.sent?] at h
  | failed cause hbefore hafter => simp [hafter, SendStage.sent?] at h
  | committed now t hlabel hbefore hafter hsent =>
    rw [hafter] at h
    obtain rfl : t = s := Option.some.inj h
    exact .inr ⟨now, hlabel, hsent⟩
  | told t hlabel hbefore hafter =>
    rw [hafter] at h
    rw [hbefore]
    exact .inl h

theorem sent?_of_told (h : σ.stage? i = some (.told s)) : σ.sent? i = some s := by
  rw [sent?, h]
  rfl

theorem sent?_of_committed (h : σ.stage? i = some (.committed s)) : σ.sent? i = some s := by
  rw [sent?, h]
  rfl

theorem told_step (l : Label) (h : σ.stage? i = some (.told s)) :
    (σ.step l).stage? i = some (.told s) := by
  cases σ.moves_step l i with
  | stays hsame => rw [hsame, h]
  | spawned hbefore => simp [hbefore] at h
  | failed cause hbefore => simp [hbefore] at h
  | committed now t hlabel hbefore => simp [hbefore] at h
  | told t hlabel hbefore => simp [hbefore] at h

theorem told_of_told_step {l : Label} (h : (σ.step l).stage? i = some (.told s)) :
    σ.stage? i = some (.told s) ∨ l = .announce i ∧ σ.stage? i = some (.committed s) := by
  cases σ.moves_step l i with
  | stays hsame =>
    rw [hsame] at h
    exact .inl h
  | spawned hbefore hafter => simp [hafter] at h
  | failed cause hbefore hafter => simp [hafter] at h
  | committed now t hlabel hbefore hafter => simp [hafter] at h
  | told t hlabel hbefore hafter =>
    rw [hafter] at h
    obtain ⟨⟩ := h
    exact .inr ⟨hlabel, hbefore⟩

/-- A task that has committed tells its audience when it comes to it. -/
theorem told_announce (h : σ.stage? i = some (.committed s)) :
    (σ.step (.announce i)).stage? i = some (.told s) := by
  rcases step_announce_cases σ i with ⟨hnever, -⟩ | ⟨t, ht, hstep⟩
  · exact absurd h (hnever s)
  · rw [h] at ht
    obtain ⟨⟩ := ht
    exact (stage?_step_of_advance hstep rfl h).1

/-! ## The database -/

/-- To the database and the sends a step is an action, or nothing. -/
theorem toRun_step (σ : Traffic) (l : Label) :
    (σ.step l).toRun = σ.toRun ∨ ∃ a, (σ.step l).toRun = σ.toRun.step a := by
  cases l with
  | commit i now =>
    rcases step_commit_cases σ i now with
      h | ⟨-, sender, request, ⟨e, hanswer, h⟩ | ⟨s, hanswer, h⟩⟩
    · left
      rw [h]
    · right
      refine ⟨.send [] now sender request, ?_⟩
      rw [h]
      simp [toRun, advance, Run.step, Action.perform, hanswer, Except.toOption]
    · right
      refine ⟨.send [] now sender request, ?_⟩
      rw [h]
      simp [toRun, advance, Run.step, Action.perform, hanswer, Except.toOption]
  | announce i =>
    left
    rcases step_announce_cases σ i with ⟨-, h⟩ | ⟨s, -, h⟩
    · rw [h]
    · rw [h]
      rfl
  | take c =>
    left
    simp only [step]
    split <;> rfl
  | act a => exact .inr ⟨a, rfl⟩
  | _ => exact .inl rfl

theorem recorded_step (h : σ.toRun.Recorded) (l : Label) : (σ.step l).toRun.Recorded := by
  rcases σ.toRun_step l with hsame | ⟨a, hact⟩
  · rw [hsame]
    exact h
  · rw [hact]
    exact h.step a

theorem mem_sent_step (l : Label) (h : s ∈ σ.sent) : s ∈ (σ.step l).sent := by
  change s ∈ (σ.step l).toRun.sent
  rcases σ.toRun_step l with hsame | ⟨a, hact⟩
  · rw [hsame]
    exact h
  · rw [hact]
    exact List.mem_append_left _ h

/-! ## The register -/

theorem isOwnedBy_step (h : σ.service.dispatcher.IsOwnedBy σ.owners) (l : Label) :
    (σ.step l).service.dispatcher.IsOwnedBy (σ.step l).owners := by
  cases l with
  | commit i now =>
    rcases step_commit_cases σ i now with
      hstep | ⟨-, sender, request, ⟨e, -, hstep⟩ | ⟨s, -, hstep⟩⟩ <;> rw [hstep] <;> exact h
  | announce i =>
    rcases step_announce_cases σ i with ⟨-, hstep⟩ | ⟨s, -, hstep⟩
    · rw [hstep]
      exact h
    · rw [hstep]
      exact h.fanOut _ _
  | register user => exact h.register user
  | unregister user c => exact h.unregister user c
  | close c => exact h.of_clients (List.length_modify ..) rfl
  | take c =>
    simp only [step]
    split
    · exact h
    · rename_i event dispatcher htake
      unfold Dispatcher.takeFirst? at htake
      split at htake
      · cases htake
      · cases htake
        exact h.of_clients (List.length_modify ..) rfl
  | _ => exact h

theorem owner_step (l : Label) {k : Nat} {user : UserId} (h : σ.owners[k]? = some user) :
    (σ.step l).owners[k]? = some user := by
  cases l with
  | commit i now =>
    rcases step_commit_cases σ i now with
      hstep | ⟨-, sender, request, ⟨e, -, hstep⟩ | ⟨s, -, hstep⟩⟩ <;> rw [hstep] <;> exact h
  | announce i =>
    rcases step_announce_cases σ i with ⟨-, hstep⟩ | ⟨s, -, hstep⟩ <;> rw [hstep] <;> exact h
  | register other =>
    have hlt : k < σ.owners.length := (List.getElem?_eq_some_iff.1 h).1
    change (σ.owners ++ [other])[k]? = some user
    rw [List.getElem?_append_left hlt, h]
  | take c =>
    simp only [step]
    split <;> exact h
  | _ => exact h

/-! ## The invariant -/

/-- How database, tasks and queues hang together: what a task has sent is in the tables, each
message comes from one task, and connections have been given nothing but, once each, the events of
tasks that have told their audience, if their owner was in it. -/
structure Sound (σ : Traffic) : Prop where
  recorded : σ.toRun.Recorded
  owned : σ.service.dispatcher.IsOwnedBy σ.owners
  sent : ∀ i s, σ.sent? i = some s → s ∈ σ.sent
  distinct : ∀ i j s, σ.sent? i = some s → σ.sent? j = some s → i = j
  given : ∀ c, ∀ event ∈ σ.given c, ∃ i s user, event = .messageCreated s.message ∧
    σ.stage? i = some (.told s) ∧ user ∈ s.audience ∧ σ.owners[c.index]? = some user
  nodup : ∀ c, (σ.given c).Nodup

theorem sound_start (decode : Token.Decoder) (secret : String) (maxPage : Nat) :
    (start decode secret maxPage).Sound where
  recorded := Run.recorded_of []
  owned := ⟨rfl, by simp [start], by simp [start]⟩
  sent := by simp [sent?, stage?, start]
  distinct := by simp [sent?, stage?, start]
  given := by simp [Traffic.given, start, Dispatcher.queue, Dispatcher.mailbox?]
  nodup := by simp [Traffic.given, start, Dispatcher.queue, Dispatcher.mailbox?]

namespace Sound

/-- Messages of tasks are told apart by their identifiers. -/
theorem eq_of_id_eq (h : σ.Sound) (hs : σ.sent? i = some s) (ht : σ.sent? j = some t)
    (hid : s.message.id = t.message.id) : i = j ∧ s = t := by
  have hsame : s = t := h.recorded.eq_of_id_eq (h.sent i s hs) (h.sent j t ht) hid
  exact ⟨h.distinct i j t (hsame ▸ hs) ht, hsame⟩

/-- An event that has been given belongs to a task that has told its audience of it. -/
theorem told_of_mem_given (h : σ.Sound) (hs : σ.sent? i = some s)
    (hgiven : .messageCreated s.message ∈ σ.given c) : σ.stage? i = some (.told s) := by
  obtain ⟨j, t, user, heq, htold, -, -⟩ := h.given c _ hgiven
  have hmessage : s.message = t.message := Event.messageCreated.inj heq
  obtain ⟨rfl, rfl⟩ := h.eq_of_id_eq hs (sent?_of_told htold) (congrArg Message.id hmessage)
  exact htold

/-- The event of a task that has not told anybody yet has not been given to anybody. -/
theorem notMem_given_of_committed (h : σ.Sound) (hstage : σ.stage? i = some (.committed s)) :
    .messageCreated s.message ∉ σ.given c := by
  intro hmem
  have htold := h.told_of_mem_given (sent?_of_committed hstage) hmem
  simp [hstage] at htold

theorem step (h : σ.Sound) (l : Label) : (σ.step l).Sound where
  recorded := recorded_step h.recorded l
  owned := isOwnedBy_step h.owned l
  sent := by
    intro i s hs
    rcases sent?_of_sent?_step hs with hold | ⟨now, -, hsent⟩
    · exact mem_sent_step l (h.sent i s hold)
    · simp [hsent]
  distinct := by
    -- What a commit has just brought was not there before.
    have hfresh : ∀ s, (σ.step l).sent = σ.sent ++ [s] → s ∉ σ.sent := by
      intro s hsent hold
      have hnodup := (recorded_step h.recorded l).nodup_ids
      change ((σ.step l).sent.map fun s ↦ s.message.id).Nodup at hnodup
      rw [hsent, List.map_append, List.nodup_append] at hnodup
      exact hnodup.2.2 _ (List.mem_map_of_mem hold) _ (by simp) rfl
    intro i j s hi hj
    rcases sent?_of_sent?_step hi with hi | ⟨now, hli, hsent⟩
    · rcases sent?_of_sent?_step hj with hj | ⟨now, -, hsent⟩
      · exact h.distinct i j s hi hj
      · exact absurd (h.sent i s hi) (hfresh s hsent)
    · rcases sent?_of_sent?_step hj with hj | ⟨now', hlj, -⟩
      · exact absurd (h.sent j s hj) (hfresh s hsent)
      · obtain ⟨rfl, -⟩ := Label.commit.inj (hli.symm.trans hlj)
        rfl
  given := by
    intro c event hevent
    have hold : event ∈ σ.given c → ∃ i s user, event = .messageCreated s.message ∧
        (σ.step l).stage? i = some (.told s) ∧ user ∈ s.audience ∧
        (σ.step l).owners[c.index]? = some user := by
      intro hmem
      obtain ⟨i, s, user, heq, htold, huser, howner⟩ := h.given c event hmem
      exact ⟨i, s, user, heq, told_step l htold, huser, owner_step l howner⟩
    rcases σ.given_step l c with hsame | ⟨i, s, rfl, hstage⟩
    · rw [hsame] at hevent
      exact hold hevent
    · rw [given_announce h.owned hstage] at hevent
      rcases List.mem_append.1 hevent with hmem | hmem
      · exact hold hmem
      · split at hmem
        case isTrue hreached =>
          obtain ⟨user, huser, hc⟩ := hreached.1
          exact ⟨i, s, user, List.mem_singleton.1 hmem, told_announce hstage, huser,
            owner_step _ (h.owned.owner_eq hc)⟩
        case isFalse => cases hmem
  nodup := by
    intro c
    rcases σ.given_step l c with hsame | ⟨i, s, rfl, hstage⟩
    · rw [hsame]
      exact h.nodup c
    · rw [given_announce h.owned hstage]
      split
      · rw [← List.concat_eq_append]
        exact (h.nodup c).concat (h.notMem_given_of_committed hstage)
      · rw [List.append_nil]
        exact h.nodup c

theorem foldl (h : σ.Sound) (labels : List Label) : (labels.foldl Traffic.step σ).Sound := by
  induction labels generalizing σ with
  | nil => exact h
  | cons l labels ih => exact ih (h.step l)

/-- The event of a task that has told its audience is given to nobody else afterwards. -/
theorem mem_given_foldl_iff (h : σ.Sound) (htold : σ.stage? i = some (.told s)) (c : ConnectionId)
    (labels : List Label) :
    .messageCreated s.message ∈ (labels.foldl Traffic.step σ).given c ↔
      .messageCreated s.message ∈ σ.given c := by
  induction labels generalizing σ with
  | nil => rfl
  | cons l labels ih =>
    rw [List.foldl_cons, ih (h.step l) (told_step l htold)]
    rcases σ.given_step l c with hsame | ⟨j, t, rfl, hstage⟩
    · rw [hsame]
    · rw [given_announce h.owned hstage, List.mem_append, or_iff_left]
      intro hmem
      split at hmem
      case isTrue =>
        -- Another task has another message.
        have hmessage := Event.messageCreated.inj (List.mem_singleton.1 hmem)
        obtain ⟨rfl, rfl⟩ := h.eq_of_id_eq (sent?_of_told htold) (sent?_of_committed hstage)
          (congrArg Message.id hmessage)
        simp [hstage] at htold
      case isFalse => cases hmem

/-- Right after an announcement its event has been given to the connections that it reaches. -/
theorem mem_given_announce_iff (h : σ.Sound) (hstage : σ.stage? i = some (.committed s))
    (c : ConnectionId) :
    .messageCreated s.message ∈ (σ.step (.announce i)).given c ↔
      σ.service.dispatcher.Reaches s.audience.toList c := by
  rw [given_announce h.owned hstage, List.mem_append,
    or_iff_right (h.notMem_given_of_committed hstage)]
  split <;> simp [*]

/-- The events of one message that a connection has been given are the one of its task, or none. -/
theorem filter_given (h : σ.Sound) (hs : σ.sent? i = some s) (c : ConnectionId) :
    (σ.given c).filter (fun event ↦ event.messageId? = some s.message.id) =
      if .messageCreated s.message ∈ σ.given c then [.messageCreated s.message] else [] := by
  have hsame : ∀ event ∈ σ.given c, decide (event.messageId? = some s.message.id) =
      decide (event = .messageCreated s.message) := by
    intro event hevent
    obtain ⟨j, t, user, rfl, htold, -, -⟩ := h.given c event hevent
    rw [decide_eq_decide, Event.messageId?, Option.some.injEq, Event.messageCreated.injEq]
    constructor
    · intro hid
      rw [(h.eq_of_id_eq (sent?_of_told htold) hs hid).2]
    · exact congrArg Message.id
  rw [List.filter_congr hsame, List.filter_eq, (h.nodup c).count]
  split <;> rfl

/-- No connection has been given two events of one message. -/
theorem nodup_messageIds (h : σ.Sound) (c : ConnectionId) :
    ((σ.given c).filterMap Event.messageId?).Nodup := by
  rw [List.Nodup, List.pairwise_filterMap]
  refine (h.nodup c).imp_of_mem ?_
  intro event other hevent hother hne id hid id' hid' heq
  obtain ⟨i, s, -, rfl, hs, -, -⟩ := h.given c event hevent
  obtain ⟨j, t, -, rfl, ht, -, -⟩ := h.given c other hother
  have hids : s.message.id = t.message.id :=
    Option.some.inj ((hid.trans (congrArg some heq)).trans hid'.symm)
  exact hne (by rw [(h.eq_of_id_eq (sent?_of_told hs) (sent?_of_told ht) hids).2])

/-- The message of an event that has been given is in the database, with a row for the owner of the
connection. -/
theorem stored_of_mem_given (h : σ.Sound) {event : Event} (hevent : event ∈ σ.given c) :
    ∃ i s user, event = .messageCreated s.message ∧ σ.stage? i = some (.told s) ∧
      user ∈ s.audience ∧ σ.owners[c.index]? = some user ∧
      σ.service.shared.contents.messageById s.message.id = .ok (some s.message) ∧
      σ.service.shared.contents.hasVisibilityRow s.message.id user = true := by
  obtain ⟨i, s, user, heq, htold, huser, howner⟩ := h.given c event hevent
  have hs : s ∈ σ.toRun.sent := h.sent i s (sent?_of_told htold)
  have hstored : s.message ∈ σ.toRun.shared.contents.stored := by
    rw [h.recorded.stored_eq]
    exact List.mem_map_of_mem hs
  exact ⟨i, s, user, heq, htold, huser, howner,
    Database.messageById_eq_some_iff.2 ⟨hstored, rfl⟩,
    (h.recorded.hasVisibilityRow_iff hs user).2 huser⟩

/-- What a viewer gets for the message of a task is the message that its event tells of. -/
theorem get_of_sent? (h : σ.Sound) (hs : σ.sent? i = some s) (viewer : UserId) :
    (∀ m, σ.toRun.get viewer s.message.id = .ok m → m = s.message) ∧
      (σ.service.shared.poisoned = false → s.IsOpenTo viewer σ.service.shared.contents →
        σ.toRun.get viewer s.message.id = .ok s.message) := by
  have hsent : s ∈ σ.toRun.sent := h.sent i s hs
  constructor
  · intro m hm
    have hgotten : σ.toRun.shared.contents.get viewer s.message.id = .ok m :=
      SharedDatabase.run_of_answer_read hm
    obtain ⟨hstored, hid, -⟩ := Database.get_eq_ok_iff.1 hgotten
    rw [h.recorded.stored_eq] at hstored
    obtain ⟨t, ht, rfl⟩ := List.mem_map.1 hstored
    rw [h.recorded.eq_of_id_eq ht hsent hid]
  · intro hpoisoned hopen
    rw [Run.get_of_mem h.recorded hpoisoned hsent,
      if_pos ((Run.grants_iff h.recorded hsent).2 hopen)]

end Sound

/-! ## Whole runs -/

theorem sent?_foldl (labels : List Label) (h : σ.sent? i = some s) :
    (labels.foldl step σ).sent? i = some s := by
  induction labels generalizing σ with
  | nil => exact h
  | cons l labels ih => exact ih (sent?_step_of_eq_some l h)

theorem sound_of (decode : Token.Decoder) (secret : String) (maxPage : Nat) (labels : List Label) :
    (of decode secret maxPage labels).Sound := (sound_start decode secret maxPage).foldl labels

variable {decode : Token.Decoder} {secret : String} {maxPage : Nat}

theorem of_append_singleton (labels : List Label) (l : Label) :
    of decode secret maxPage (labels ++ [l]) = (of decode secret maxPage labels).step l := by
  rw [of, List.foldl_append]
  rfl

/-- A task that has told its audience did so at some step, having committed before. -/
theorem exists_announce_of_told {labels : List Label}
    (h : (of decode secret maxPage labels).stage? i = some (.told s)) :
    ∃ before after, labels = before ++ .announce i :: after ∧
      (of decode secret maxPage before).stage? i = some (.committed s) := by
  induction labels using List.reverseRecOn with
  | nil => simp [of, start, stage?] at h
  | append_singleton labels l ih =>
    rw [of_append_singleton] at h
    rcases told_of_told_step h with htold | ⟨rfl, hcommitted⟩
    · obtain ⟨before, after, rfl, hcommitted⟩ := ih htold
      exact ⟨before, after ++ [l], by simp, hcommitted⟩
    · exact ⟨labels, [], rfl, hcommitted⟩

/-- A task whose send has failed has never told anybody anything. -/
theorem announce_of_failed {before after : List Label}
    {cause : ApiError} (h : (of decode secret maxPage (before ++ .announce i :: after)).stage? i =
      some (.failed cause)) :
    (of decode secret maxPage before).step (.announce i) = of decode secret maxPage before := by
  rcases (of decode secret maxPage before).step_announce_cases i with
    ⟨-, hsame⟩ | ⟨s, hcommitted, -⟩
  · exact hsame
  · -- A task that has committed does not fail any more.
    have hsent := sent?_foldl (.announce i :: after) (sent?_of_committed hcommitted)
    rw [of, ← List.foldl_append] at hsent
    change (of decode secret maxPage (before ++ .announce i :: after)).sent? i = some s at hsent
    simp [sent?, h, SendStage.sent?] at hsent

/-- The connections that have been given the event of a task, once each, are those that were open
and on the register for its audience when it told them. -/
theorem filter_given_of_told {labels : List Label}
    (h : (of decode secret maxPage labels).stage? i = some (.told s)) :
    ∃ before after, labels = before ++ .announce i :: after ∧
      (of decode secret maxPage before).stage? i = some (.committed s) ∧
      ∀ c, ((of decode secret maxPage labels).given c).filter
          (fun event ↦ event.messageId? = some s.message.id) =
        if (of decode secret maxPage before).service.dispatcher.Reaches s.audience.toList c then
          [.messageCreated s.message]
        else [] := by
  obtain ⟨before, after, rfl, hcommitted⟩ := exists_announce_of_told h
  refine ⟨before, after, rfl, hcommitted, fun c ↦ ?_⟩
  have hbefore := sound_of decode secret maxPage before
  have hgiven : .messageCreated s.message ∈
        (of decode secret maxPage (before ++ .announce i :: after)).given c ↔
      (of decode secret maxPage before).service.dispatcher.Reaches s.audience.toList c := by
    rw [of, List.foldl_append, List.foldl_cons]
    calc
      _ ↔ .messageCreated s.message ∈
          ((of decode secret maxPage before).step (.announce i)).given c :=
        (hbefore.step _).mem_given_foldl_iff (told_announce hcommitted) c after
      _ ↔ _ := hbefore.mem_given_announce_iff hcommitted c
  rw [(sound_of decode secret maxPage _).filter_given (sent?_of_told h), if_congr hgiven rfl rfl]

/-! ## Clients that hang up -/

def forgetClients (σ : Traffic) : Traffic := { σ with hungUp := [] }

/-- No step but the hanging up itself has to do with it. -/
theorem forgetClients_step {l : Label} (h : l.isHangUp = false) :
    (σ.step l).forgetClients = σ.forgetClients.step l := by
  cases l with
  | hangUp i => cases h
  | commit i now =>
    have htasks : σ.forgetClients.tasks = σ.tasks := rfl
    simp only [step, htasks]
    split
    · have hservice : σ.forgetClients.service = σ.service := rfl
      rw [hservice]
      split <;> rfl
    · rfl
  | announce i =>
    have hstage : σ.forgetClients.stage? i = σ.stage? i := rfl
    simp only [step, hstage]
    split <;> rfl
  | take c =>
    have hservice : σ.forgetClients.service = σ.service := rfl
    simp only [step, hservice]
    split <;> rfl
  | _ => rfl

/-- Clients that hang up leave no other trace. -/
theorem forgetClients_foldl (σ : Traffic) (labels : List Label) :
    (labels.foldl step σ).forgetClients =
      (labels.filter (!·.isHangUp)).foldl step σ.forgetClients := by
  induction labels generalizing σ with
  | nil => rfl
  | cons l labels ih =>
    rw [List.foldl_cons, ih, List.filter_cons]
    cases hl : l.isHangUp with
    | true =>
      have hsame : (σ.step l).forgetClients = σ.forgetClients := by
        cases l with
        | hangUp i => rfl
        | _ => cases hl
      simp [hsame]
    | false => simp [forgetClients_step hl]

/-! ## A single send -/

/-- With nothing in between, the steps of a task are what the service does for the request. -/
theorem service_step_send (σ : Traffic) (now : ClockReading) (sender : UserId)
    (request : SendRequest) :
    ([.spawn sender request, .commit σ.tasks.length now,
        .announce σ.tasks.length].foldl step σ).service =
      (σ.service.perform now (.send sender request)).2 := by
  rcases hcommit : σ.service.commit now sender request with ⟨_ | s, service⟩
  · simp [step, advance, stage?, hcommit, Http.Service.perform]
  · simp [step, advance, stage?, hcommit, Http.Service.perform]

/-! ## What holds at every moment -/

/-- At every moment of the service, however commits and announcements fall between one another and
between everything else: what a connection has been given are messages that are in the database,
with a row for its owner, and no message twice.  Nothing but the announcement of a message that was
committed gives anything to anybody, and a task that failed has announced nothing.  The event of a
task that is done has been given, once, to just those connections that were open and on the register
for its audience when the task told them, and it holds the message that is gotten from then on.
That clients have hung up makes no difference. -/
theorem events_follow_commits (decode : Token.Decoder) (secret : String) (maxPage : Nat)
    (labels : List Label) :
    let σ := of decode secret maxPage labels
    (∀ user c, c ∈ σ.service.dispatcher.connections user → σ.owners[c.index]? = some user) ∧
      (∀ c, ∀ event ∈ σ.given c, ∃ i s user, event = .messageCreated s.message ∧
        σ.stage? i = some (.told s) ∧ user ∈ s.audience ∧ σ.owners[c.index]? = some user ∧
        σ.service.shared.contents.messageById s.message.id = .ok (some s.message) ∧
        σ.service.shared.contents.hasVisibilityRow s.message.id user = true) ∧
      (∀ c, ((σ.given c).filterMap Event.messageId?).Nodup) ∧
      (∀ l c, (σ.step l).given c = σ.given c ∨
        ∃ i s, l = .announce i ∧ σ.stage? i = some (.committed s)) ∧
      (∀ i cause, σ.stage? i = some (.failed cause) →
        ∀ before after, labels = before ++ .announce i :: after →
          (of decode secret maxPage before).step (.announce i) = of decode secret maxPage before) ∧
      (∀ i s, σ.stage? i = some (.told s) →
        (∃ before after, labels = before ++ .announce i :: after ∧
          (of decode secret maxPage before).stage? i = some (.committed s) ∧
          ∀ c, (σ.given c).filter (fun event ↦ event.messageId? = some s.message.id) =
            if (of decode secret maxPage before).service.dispatcher.Reaches s.audience.toList c then
              [.messageCreated s.message]
            else []) ∧
        ∀ viewer,
          (∀ m, σ.toRun.get viewer s.message.id = .ok m → m = s.message) ∧
          (σ.service.shared.poisoned = false → s.IsOpenTo viewer σ.service.shared.contents →
            σ.toRun.get viewer s.message.id = .ok s.message)) ∧
      of decode secret maxPage (labels.filter (!·.isHangUp)) = σ.forgetClients := by
  intro σ
  have hsound : σ.Sound := sound_of decode secret maxPage labels
  refine ⟨fun user c hc ↦ hsound.owned.owner_eq hc, fun c event ↦ hsound.stored_of_mem_given,
    hsound.nodup_messageIds, σ.given_step, ?_, ?_,
    (forgetClients_foldl (start decode secret maxPage) labels).symm⟩
  · rintro i cause hfailed before after rfl
    exact announce_of_failed hfailed
  · intro i s htold
    exact ⟨filter_given_of_told htold, hsound.get_of_sent? (sent?_of_told htold)⟩

-- User 2 has left the group and user 3 has joined it when the whisper is announced.
example :
    let σ := of (fun _ _ _ ↦ none) "" 50 [.act (.createUser "ada"), .act (.createUser "bob"),
      .act (.createUser "cyd"), .act (.createChannel "hall"), .act (.createGroup "crew" [.small 2]),
      .act (.subscribe (.small 1) (.small 1)), .register (.small 2), .register (.small 3),
      .spawn (.small 1) ⟨.channel (.small 1) "news", "psst", [], [.small 1]⟩,
      .commit 0 .epoch, .act (.removeMember (.small 1) (.small 2)),
      .act (.addMember (.small 1) (.small 3)), .hangUp 0, .announce 0]
    ((σ.given ⟨0⟩).map Event.messageId?, (σ.given ⟨1⟩).map Event.messageId?) =
      ([some (.small 1)], []) := by
  decide +kernel

end Traffic

end WhisperChat
