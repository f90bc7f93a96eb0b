import WhisperChat.Proofs.Reaction

/-!
# What a connection relays

A connection reacts to its signals while others register, go away and send to it.  A `Relay` is such
a connection with its history: the frames that it has started to write, how many of them it has
written, and the events that have been put into its mailbox.  The frames and the mailbox together
are always the greeting and those events (`Relay.Sound`), so that what has been sent is never out of
order, and once the connection has left the register nothing is put into its mailbox any more
(`Relay.relays_faithfully`).
-/

namespace WhisperChat

/-! ## Runs -/

/-- A connection among others, and what has become of its frames and events so far. -/
structure Relay where
  connection : Connection
  dispatcher : Dispatcher
  /-- The frames that the connection has started to write. -/
  frames : List ServerFrame
  /-- How many of them it has written. -/
  written : Nat := 0
  /-- The events that have been put into its mailbox. -/
  queued : List Event := []
  /-- The signals that it has reacted to. -/
  signals : List Signal := []

namespace Relay

/-- What comes next: a signal of the connection, or a change that others make. -/
inductive Label where
  | signal (s : Signal)
  | change (change : Dispatcher.Change)

/-- The connection reacts to a signal. -/
def react (σ : Relay) (signal : Signal) (r : Connection.Reaction) : Relay where
  connection := r.connection
  dispatcher := r.dispatcher
  frames :=
    match r.frame with
    | none => σ.frames
    | some frame => σ.frames ++ [frame]
  written :=
    match signal with
    | .written => σ.written + 1
    | _ => σ.written
  queued := σ.queued
  signals := σ.signals ++ [signal]

/-- Others use the dispatcher; what this puts into the mailbox of the connection comes behind what
waits there. -/
def change (σ : Relay) (change : Dispatcher.Change) : Relay :=
  let dispatcher := σ.dispatcher.apply change
  let waiting := σ.dispatcher.queue σ.connection.id
  { σ with
    dispatcher
    queued := σ.queued ++ (dispatcher.queue σ.connection.id).drop waiting.length }

/-- Signals that cannot come are passed over, as are changes that only the connection itself can
make. -/
def step (σ : Relay) : Label → Relay
  | .signal signal =>
    match σ.connection.react? σ.dispatcher signal with
    | none => σ
    | some r => σ.react signal r
  | .change change => if change.isOf σ.connection.id then σ else σ.change change

def start (user : UserId) (d : Dispatcher) : Relay :=
  let r := Connection.start user d
  { connection := r.connection, dispatcher := r.dispatcher, frames := r.frame.toList }

/-- A connection of the user that is registered after some changes, when this and that has happened
since. -/
def of (before : List Dispatcher.Change) (user : UserId) (labels : List Label) : Relay :=
  labels.foldl step (start user (Dispatcher.of before))

abbrev id (σ : Relay) : ConnectionId := σ.connection.id

abbrev stage (σ : Relay) : Stage := σ.connection.stage

def sent (σ : Relay) : List ServerFrame := σ.frames.take σ.written

end Relay

def ServerFrame.event? : ServerFrame → Option Event
  | .event e => some e
  | _ => none

namespace Relay

variable {user : UserId} {σ : Relay}

def texts (frames : List ServerFrame) : List Event := frames.filterMap ServerFrame.event?

theorem texts_concat (frames : List ServerFrame) (frame : ServerFrame) :
    texts (frames ++ [frame]) = texts frames ++ frame.event?.toList := by
  rw [texts, List.filterMap_append, texts]
  cases frame <;> rfl

theorem frames_react (σ : Relay) (signal : Signal) (r : Connection.Reaction) :
    (σ.react signal r).frames = σ.frames ++ r.frame.toList := by
  cases hframe : r.frame <;> simp [react, hframe]

/-- When nothing is relayed any more, nothing more is written. -/
theorem react_of_isLive {signal : Signal} {r : Connection.Reaction}
    (hr : σ.connection.Reacts σ.dispatcher signal r) (hlive : r.connection.stage.isLive = false) :
    (σ.react signal r).frames = σ.frames ∧ (σ.react signal r).written = σ.written := by
  obtain ⟨hframe, hsignal⟩ := hr.frame_of_isLive hlive
  refine ⟨by rw [frames_react, hframe, Option.toList_none, List.append_nil], ?_⟩
  cases signal <;> trivial

/-- What holds as long as events are relayed: the frames and the mailbox together are the greeting
and all events that have been put into the mailbox, and one frame at most is not written. -/
structure IsLive (user : UserId) (σ : Relay) : Prop where
  isOpen : σ.dispatcher.isOpen σ.id = true
  waiting : texts σ.frames ++ σ.dispatcher.queue σ.id = .ready user :: σ.queued
  flushed : σ.frames.length = if σ.stage.isWriting then σ.written + 1 else σ.written

/-- What holds however far the connection has come. -/
structure Sound (user : UserId) (σ : Relay) : Prop where
  ofUser : σ.connection.user = user
  isMap : σ.dispatcher.IsMap
  owned : ∃ owners, σ.dispatcher.IsOwnedBy owners ∧ owners[σ.id.index]? = some user
  gone : σ.stage.hasLeft = true → σ.id ∉ σ.dispatcher.connections user
  kinds : ∀ frame ∈ σ.frames, frame = .ping ∨ ∃ event, frame = .event event
  live : σ.stage.isLive = true → σ.IsLive user
  begun : texts σ.frames <+: .ready user :: σ.queued
  written : σ.written ≤ σ.frames.length ∧ σ.frames.length ≤ σ.written + 1

namespace IsLive

theorem begun (h : σ.IsLive user) : texts σ.frames <+: .ready user :: σ.queued :=
  ⟨_, h.waiting⟩

theorem written (h : σ.IsLive user) :
    σ.written ≤ σ.frames.length ∧ σ.frames.length ≤ σ.written + 1 := by
  have hflushed := h.flushed
  split at hflushed <;> omega

end IsLive

theorem Sound.change (h : σ.Sound user) {change : Dispatcher.Change}
    (hchange : change.isOf σ.id = false) : (σ.change change).Sound user := by
  obtain ⟨owners, howned, howner⟩ := h.owned
  have hchanges := howned.changesFor_apply h.isMap howner hchange
  obtain ⟨more, hmore⟩ := howned.apply change
  obtain ⟨new, hnew⟩ := hchanges.queue
  have hqueued : (σ.change change).queued = σ.queued ++ new := by
    simp only [Relay.change, ← hnew, List.drop_left]
  have hlt : σ.id.index < owners.length := (List.getElem?_eq_some_iff.1 howner).1
  constructor
  case ofUser => exact h.ofUser
  case isMap => exact h.isMap.apply change
  case owned => exact ⟨_, hmore, (List.getElem?_append_left hlt).trans howner⟩
  case gone => exact fun hleft hc ↦ h.gone hleft (hchanges.registered hc)
  case kinds => exact h.kinds
  case live =>
    intro hlive
    obtain ⟨hopen, hwaiting, hflushed⟩ := h.live hlive
    refine ⟨hchanges.isOpen.trans hopen, ?_, hflushed⟩
    calc
      texts σ.frames ++ (σ.dispatcher.apply change).queue σ.id =
          texts σ.frames ++ (σ.dispatcher.queue σ.id ++ new) := by rw [hnew]
      _ = .ready user :: (σ.queued ++ new) := by
        rw [← List.append_assoc, hwaiting, List.cons_append]
      _ = .ready user :: (σ.change change).queued := by rw [hqueued]
  case begun =>
    rw [hqueued]
    exact h.begun.trans (List.prefix_append (.ready user :: σ.queued) new)
  case written => exact h.written

/-- A reaction after which events are still relayed moves the first event of the mailbox to the end
of the frames, or writes a frame, or asks the client for a sign of life. -/
theorem IsLive.react (h : σ.IsLive user) {signal : Signal} {r : Connection.Reaction}
    (hr : σ.connection.Reacts σ.dispatcher signal r) (hlive : r.connection.stage.isLive = true) :
    (σ.react signal r).IsLive user := by
  obtain ⟨hopen, hwaiting, hflushed⟩ := h
  cases hr with
  | greeted hstage | flushed hstage | deafens hstage | leaves hstage =>
    rw [stage, hstage] at hflushed
    exact ⟨hopen, hwaiting, hflushed⟩
  | hears frame hstage =>
    rw [stage, hstage] at hflushed
    cases frame <;> exact ⟨hopen, hwaiting, hflushed⟩
  | asks hstage htick =>
    rw [stage, hstage] at hflushed
    refine ⟨hopen, ?_, List.length_append.trans (congrArg (· + 1) hflushed)⟩
    change texts (σ.frames ++ [ServerFrame.ping]) ++ σ.dispatcher.queue σ.id = _
    rw [texts_concat, List.append_assoc]
    exact hwaiting
  | @relays _ _ event d' hstage htake =>
    rw [stage, hstage] at hflushed
    refine ⟨?_, ?_, List.length_append.trans (congrArg (· + 1) hflushed)⟩
    · obtain ⟨queue, rfl⟩ := Dispatcher.exists_queue_of_takeFirst? htake
      exact Dispatcher.isOpen_modifyMailbox_queue.trans hopen
    · calc
        texts (σ.frames ++ [.event event]) ++ d'.queue σ.id =
            texts σ.frames ++ ([event] ++ d'.queue σ.id) := by
          rw [texts_concat, List.append_assoc]
          rfl
        _ = texts σ.frames ++ σ.dispatcher.queue σ.id := by
          rw [Dispatcher.queue_of_takeFirst? htake, if_pos rfl]
        _ = .ready user :: σ.queued := hwaiting
  | stops =>
    rw [Connection.stop] at hlive
    split at hlive <;> cases hlive
  | unheard | finishes => cases hlive

theorem Sound.react (h : σ.Sound user) {signal : Signal} {r : Connection.Reaction}
    (hr : σ.connection.Reacts σ.dispatcher signal r) : (σ.react signal r).Sound user := by
  obtain ⟨huser, hid⟩ := hr.same
  obtain ⟨changes, hchanges, -⟩ := hr.exists_changes
  have hdispatcher : (σ.react signal r).dispatcher =
      changes.foldl Dispatcher.apply σ.dispatcher := hchanges
  obtain ⟨owners, howned, howner⟩ := h.owned
  have hlive : r.connection.stage.isLive = true → (σ.react signal r).IsLive user :=
    fun hlive ↦ (h.live (hr.isLive hlive)).react hr hlive
  constructor
  case ofUser => exact huser.trans h.ofUser
  case isMap =>
    rw [hdispatcher]
    exact h.isMap.foldl_apply changes
  case owned =>
    obtain ⟨more, hmore⟩ := howned.foldl_apply changes
    have hlt : σ.id.index < owners.length := (List.getElem?_eq_some_iff.1 howner).1
    refine ⟨owners ++ more, by rw [hdispatcher]; exact hmore, ?_⟩
    change (owners ++ more)[r.connection.id.index]? = some user
    rw [hid, List.getElem?_append_left hlt, howner]
  case gone =>
    intro hleft
    have hgone := hr.gone h.isMap (by rw [h.ofUser]; exact h.gone) hleft
    rw [h.ofUser, ← hid] at hgone
    exact hgone
  case kinds =>
    intro frame hframe
    rw [frames_react] at hframe
    rcases List.mem_append.1 hframe with hold | hnew
    · exact h.kinds frame hold
    · exact hr.kinds (Option.mem_toList.1 hnew)
  case live => exact hlive
  case begun =>
    cases hcase : r.connection.stage.isLive with
    | true => exact (hlive hcase).begun
    | false =>
      obtain ⟨hframes, -⟩ := react_of_isLive hr hcase
      rw [hframes]
      exact h.begun
  case written =>
    cases hcase : r.connection.stage.isLive with
    | true => exact (hlive hcase).written
    | false =>
      obtain ⟨hframes, hwritten⟩ := react_of_isLive hr hcase
      rw [hframes, hwritten]
      exact h.written

/-- A step is a reaction of the connection, or a change that others make, or nothing. -/
theorem step_cases (σ : Relay) (l : Label) :
    (∃ signal r, l = .signal signal ∧ σ.connection.Reacts σ.dispatcher signal r ∧
        σ.step l = σ.react signal r) ∨
      (∃ change, l = .change change ∧ change.isOf σ.id = false ∧ σ.step l = σ.change change) ∨
      σ.step l = σ := by
  cases l with
  | signal signal =>
    cases hr : σ.connection.react? σ.dispatcher signal with
    | none => exact .inr (.inr (by simp only [step, hr]))
    | some r =>
      exact .inl ⟨signal, r, rfl, Connection.reacts_of_react? hr, by simp only [step, hr]⟩
  | change change =>
    cases hchange : change.isOf σ.id with
    | true => exact .inr (.inr (if_pos hchange))
    | false => exact .inr (.inl ⟨change, rfl, hchange, if_neg (Bool.eq_false_iff.1 hchange)⟩)

theorem Sound.step (h : σ.Sound user) (l : Label) : (σ.step l).Sound user := by
  rcases σ.step_cases l with ⟨signal, r, -, hr, hstep⟩ | ⟨change, -, hchange, hstep⟩ | hstep
  · exact hstep ▸ h.react hr
  · exact hstep ▸ h.change hchange
  · rw [hstep]
    exact h

theorem id_step (σ : Relay) (l : Label) : (σ.step l).id = σ.id := by
  rcases σ.step_cases l with ⟨signal, r, -, hr, hstep⟩ | ⟨change, -, -, hstep⟩ | hstep
  · rw [hstep]
    exact hr.same.2
  · rw [hstep]
    rfl
  · rw [hstep]

theorem sound_start (user : UserId) (before : List Dispatcher.Change) :
    (start user (Dispatcher.of before)).Sound user := by
  obtain ⟨hmap, owners, howned⟩ := Dispatcher.inOrder_of before
  generalize Dispatcher.of before = d at hmap howned
  have hmailbox : (d.register user).2.mailbox? (d.register user).1 = some {} :=
    List.getElem?_concat_length
  have hlive : (start user d).IsLive user := by
    refine ⟨?_, ?_, rfl⟩
    · change (d.register user).2.isOpen (d.register user).1 = true
      rw [Dispatcher.isOpen, hmailbox]
      rfl
    · change texts [.event (.ready user)] ++ (d.register user).2.queue (d.register user).1 = _
      rw [Dispatcher.queue, hmailbox]
      rfl
  constructor
  case ofUser => rfl
  case isMap => exact hmap.register user
  case owned =>
    refine ⟨_, howned.register user, ?_⟩
    change (owners ++ [user])[d.mailboxes.length]? = some user
    rw [← howned.length, List.getElem?_concat_length]
  case gone =>
    intro hleft
    cases hleft
  case kinds => exact List.forall_mem_singleton.2 (.inr ⟨_, rfl⟩)
  case live => exact fun _ ↦ hlive
  case begun => exact hlive.begun
  case written => exact hlive.written

theorem Sound.steps (h : σ.Sound user) (labels : List Label) :
    (labels.foldl Relay.step σ).Sound user := by
  induction labels generalizing σ with
  | nil => exact h
  | cons l labels ih => exact ih (h.step l)

theorem sound_of (before : List Dispatcher.Change) (user : UserId) (labels : List Label) :
    (of before user labels).Sound user := (sound_start user before).steps labels

/-! ## After the connection has left -/

theorem Sound.isRegistered_iff (h : σ.Sound user) :
    σ.dispatcher.isRegistered σ.id = true ↔ σ.id ∈ σ.dispatcher.connections user := by
  obtain ⟨owners, howned, howner⟩ := h.owned
  exact howned.isRegistered_iff h.isMap howner

/-- Nothing is put into the mailbox of a connection that has left the register. -/
theorem Sound.step_of_hasLeft (h : σ.Sound user) (hleft : σ.stage.hasLeft = true) (l : Label) :
    (σ.step l).stage.hasLeft = true ∧ (σ.step l).queued = σ.queued := by
  rcases σ.step_cases l with ⟨signal, r, -, hr, hstep⟩ | ⟨change, -, hchange, hstep⟩ | hstep
  · rw [hstep]
    exact ⟨hr.hasLeft hleft, rfl⟩
  · obtain ⟨owners, howned, howner⟩ := h.owned
    have hchanges := howned.changesFor_apply h.isMap howner hchange
    rw [hstep]
    refine ⟨hleft, ?_⟩
    rw [Relay.change, hchanges.quiet (.inr (h.gone hleft)), List.drop_length, List.append_nil]
  · rw [hstep]
    exact ⟨hleft, rfl⟩

theorem Sound.steps_of_hasLeft (h : σ.Sound user) (hleft : σ.stage.hasLeft = true)
    (later : List Label) :
    (later.foldl Relay.step σ).stage.hasLeft = true ∧ (later.foldl Relay.step σ).id = σ.id ∧
      (later.foldl Relay.step σ).queued = σ.queued := by
  induction later generalizing σ with
  | nil => exact ⟨hleft, rfl, rfl⟩
  | cons l later ih =>
    obtain ⟨hstep, hqueued⟩ := h.step_of_hasLeft hleft l
    obtain ⟨hlater, hid, hqueued'⟩ := ih (h.step l) hstep
    exact ⟨hlater, hid.trans (σ.id_step l), hqueued'.trans hqueued⟩

/-! ## How a connection ends -/

/-- What ends a connection that serves its client. -/
inductive Ends (σ : Relay) : Signal → Prop where
  /-- The greeting or a later frame cannot be written. -/
  | writeFailed (hwriting : σ.stage.isWriting = true) : Ends σ .writeFailed
  | closed {beat writing} (hstage : σ.stage = .relaying beat writing .listening) :
    Ends σ (.inbound .close)
  | ended {beat writing} (hstage : σ.stage = .relaying beat writing .listening) :
    Ends σ .inboundEnd
  | givenUp {beat} (hstage : σ.stage = .relaying beat false .listening)
    (htick : beat.tick? = none) : Ends σ .tick
  /-- The connection has been taken off the register, and nothing waits for it. -/
  | unregistered {beat} (hstage : σ.stage = .relaying beat false .listening)
    (hempty : σ.dispatcher.queue σ.id = []) (hregistered : σ.dispatcher.isRegistered σ.id = false) :
    Ends σ .mail

theorem step_eq_react {signal : Signal} {r : Connection.Reaction}
    (hr : σ.connection.react? σ.dispatcher signal = some r) :
    σ.step (.signal signal) = σ.react signal r := by
  simp only [step, hr]

theorem ends_of_reacts (hserving : σ.stage.isServing = true) {signal : Signal}
    {r : Connection.Reaction} (hr : σ.connection.Reacts σ.dispatcher signal r)
    (hends : r.connection.stage.isServing = false) : σ.Ends signal := by
  cases hr with
  | greeted => cases hends
  | unheard hstage => exact .writeFailed (by rw [stage, hstage]; rfl)
  | flushed hstage | asks hstage | relays hstage =>
    rw [stage, hstage] at hserving
    simp only [Connection.goOn, Stage.isServing_relaying] at hserving hends
    rw [hserving] at hends
    cases hends
  | hears frame hstage =>
    cases frame with
    | close => exact .closed hstage
    | text | binary | ping | pong => cases hends
  | deafens hstage => exact .ended hstage
  | stops hstage hstops =>
    rw [stage, hstage, Stage.isServing_relaying, decide_eq_true_eq] at hserving
    subst hserving
    cases hstops with
    | writeFailed => exact .writeFailed (by rw [stage, hstage]; rfl)
    | givenUp htick => exact .givenUp hstage htick
    | drained hempty hregistered => exact .unregistered hstage hempty hregistered
    | told hattention => exact absurd rfl hattention
  | leaves hstage | finishes hstage =>
    rw [stage, hstage] at hserving
    cases hserving

theorem Ends.isServing_step (hends : σ.Ends signal) (hserving : σ.stage.isServing = true) :
    (σ.step (.signal signal)).stage.isServing = false := by
  cases hends with
  | writeFailed hwriting =>
    cases hstage : σ.connection.stage with
    | greeting =>
      rw [step_eq_react (by simp only [Connection.react?, hstage]; rfl)]
      rfl
    | relaying beat writing attention =>
      rw [stage, hstage] at hwriting hserving
      obtain rfl : writing = true := hwriting
      obtain rfl : attention = .listening := by simpa using hserving
      rw [step_eq_react (by simp only [Connection.react?, hstage]; rfl)]
      rfl
    | _ =>
      rw [stage, hstage] at hserving
      cases hserving
  | closed hstage | ended hstage =>
    rw [step_eq_react (by simp only [Connection.react?, hstage]; rfl)]
    rfl
  | givenUp hstage htick =>
    rw [step_eq_react (by simp only [Connection.react?, hstage, htick]; rfl)]
    rfl
  | unregistered hstage hempty hregistered =>
    have htake := Dispatcher.takeFirst?_eq_none_iff.2 hempty
    rw [step_eq_react (by simp only [Connection.react?, hstage, htake, hregistered]; rfl)]
    rfl

theorem isServing_step (hended : σ.stage.isServing = false) (l : Label) :
    (σ.step l).stage.isServing = false := by
  rcases σ.step_cases l with ⟨signal, r, -, hr, hstep⟩ | ⟨change, -, -, hstep⟩ | hstep
  · rw [hstep, Bool.eq_false_iff]
    exact fun hserving ↦ Bool.eq_false_iff.1 hended (hr.isServing hserving)
  · rw [hstep]
    exact hended
  · rw [hstep, hended]

theorem isServing_step_iff (hserving : σ.stage.isServing = true) (signal : Signal) :
    (σ.step (.signal signal)).stage.isServing = false ↔ σ.Ends signal := by
  refine ⟨fun hends ↦ ?_, fun hends ↦ hends.isServing_step hserving⟩
  rcases σ.step_cases (.signal signal) with ⟨_, r, hl, hr, hstep⟩ | ⟨change, hl, -⟩ | hstep
  · cases hl
    rw [hstep] at hends
    exact ends_of_reacts hserving hr hends
  · cases hl
  · rw [hstep, hserving] at hends
    cases hends

/-- What a connection of the user has sent, and how it goes away. -/
structure IsFaithful (user : UserId) (σ : Relay) : Prop where
  /-- The connection has sent its greeting and then the first of the events that were put into its
  mailbox, and pings. -/
  sent : texts σ.sent <+: .ready user :: σ.queued
  kinds : ∀ frame ∈ σ.frames, frame = .ping ∨ ∃ event, frame = .event event
  /-- The same holds with the frame that is being written. -/
  begun : texts σ.frames <+: .ready user :: σ.queued ∧
    σ.sent.length ≤ σ.frames.length ∧ σ.frames.length ≤ σ.sent.length + 1
  /-- What it has not started to write waits for it as long as it relays. -/
  waiting : σ.stage.isLive = true →
    texts σ.frames ++ σ.dispatcher.queue σ.id = .ready user :: σ.queued
  /-- Whatever happens to it, it leaves the other connections alone. -/
  others : ∀ signal, σ.dispatcher.AgreesBut σ.id (σ.step (.signal signal)).dispatcher
  ends : σ.stage.isServing = true →
    ∀ signal, (σ.step (.signal signal)).stage.isServing = false ↔ σ.Ends signal
  /-- When it ends because it has been taken off the register, it has sent everything. -/
  drained : σ.Ends .mail → texts σ.sent = .ready user :: σ.queued
  /-- However it ends, it stays ended, and leaves the register when it comes to it. -/
  leaves : σ.stage.isServing = false →
    (∀ l, (σ.step l).stage.isServing = false) ∧ (σ.step (.signal .leave)).stage.hasLeft = true
  /-- When it has left the register, it is never on it again and nothing is put into its mailbox. -/
  gone : σ.stage.hasLeft = true → ∀ later : List Label,
    let τ := later.foldl Relay.step σ
    τ.stage.hasLeft = true ∧ τ.dispatcher.isRegistered σ.id = false ∧ τ.queued = σ.queued ∧
      ∀ audience event, (τ.dispatcher.fanOut audience event).2.queue σ.id = τ.dispatcher.queue σ.id

theorem Sound.others (h : σ.Sound user) (signal : Signal) :
    σ.dispatcher.AgreesBut σ.id (σ.step (.signal signal)).dispatcher := by
  rcases σ.step_cases (.signal signal) with ⟨_, r, -, hr, hstep⟩ | ⟨change, hl, -⟩ | hstep
  · rw [hstep]
    exact hr.agreesBut h.isMap
  · cases hl
  · rw [hstep]
    exact .refl _ _

theorem sent_prefix (σ : Relay) : texts σ.sent <+: texts σ.frames :=
  (List.take_prefix _ _).filterMap _

theorem Sound.drained (h : σ.Sound user) (hends : σ.Ends .mail) :
    texts σ.sent = .ready user :: σ.queued := by
  cases hends with
  | unregistered hstage hempty =>
    obtain ⟨-, hwaiting, hflushed⟩ := h.live (by rw [hstage]; rfl)
    rw [hstage] at hflushed
    have hsent : σ.sent = σ.frames := List.take_of_length_le (Nat.le_of_eq hflushed)
    rw [hsent, ← hwaiting, hempty, List.append_nil]

/-- A connection that has left the register stays off it, and a fan-out passes it over. -/
theorem Sound.stays_gone (h : σ.Sound user) (hleft : σ.stage.hasLeft = true) (later : List Label) :
    let τ := later.foldl Relay.step σ
    τ.stage.hasLeft = true ∧ τ.dispatcher.isRegistered σ.id = false ∧ τ.queued = σ.queued ∧
      ∀ audience event,
        (τ.dispatcher.fanOut audience event).2.queue σ.id = τ.dispatcher.queue σ.id := by
  intro τ
  obtain ⟨hτ, hid, hqueued⟩ := h.steps_of_hasLeft hleft later
  have hsound : τ.Sound user := h.steps later
  have hgone := hsound.gone hτ
  have hregistered : τ.dispatcher.isRegistered τ.id = false :=
    Bool.eq_false_iff.2 fun hc ↦ hgone (hsound.isRegistered_iff.1 hc)
  obtain ⟨owners, howned, howner⟩ := hsound.owned
  rw [hid] at hregistered hgone howner
  refine ⟨hτ, hregistered, hqueued, fun audience event ↦ ?_⟩
  have hfanOut : (Dispatcher.Change.fanOut audience event).isOf σ.id = false := rfl
  exact (howned.changesFor_apply hsound.isMap howner hfanOut).quiet (.inr hgone)

theorem hasLeft_step_leave (hserving : σ.stage.isServing = false) :
    (σ.step (.signal .leave)).stage.hasLeft = true := by
  cases hstage : σ.connection.stage with
  | greeting =>
    rw [stage, hstage] at hserving
    cases hserving
  | relaying beat writing attention =>
    cases attention with
    | listening =>
      rw [stage, hstage] at hserving
      cases hserving
    | leaving =>
      rw [step_eq_react (by simp only [Connection.react?, hstage]; rfl)]
      rfl
    | left =>
      have hstep : σ.step (.signal .leave) = σ := by
        cases writing <;> simp only [step, Connection.react?, hstage]
      rw [hstep, stage, hstage]
      rfl
  | stopped =>
    rw [step_eq_react (by simp only [Connection.react?, hstage]; rfl)]
    rfl
  | _ =>
    have hstep : σ.step (.signal .leave) = σ := by simp only [step, Connection.react?, hstage]
    rw [hstep, stage, hstage]
    rfl

/-- A connection that is registered after some changes leaves the others alone, then and later, and
relays faithfully, whatever happens to it and around it and in whatever order. -/
theorem relays_faithfully (before : List Dispatcher.Change) (user : UserId) (labels : List Label) :
    (Dispatcher.of before).AgreesBut (start user (Dispatcher.of before)).id
        (start user (Dispatcher.of before)).dispatcher ∧
      (of before user labels).IsFaithful user := by
  refine ⟨.register _ user, ?_⟩
  have h := sound_of before user labels
  generalize of before user labels = σ at h
  have hlength : σ.sent.length = σ.written := List.length_take_of_le h.written.1
  constructor
  case sent => exact σ.sent_prefix.trans h.begun
  case kinds => exact h.kinds
  case begun => exact ⟨h.begun, hlength ▸ h.written⟩
  case waiting => exact fun hlive ↦ (h.live hlive).waiting
  case others => exact h.others
  case ends => exact isServing_step_iff
  case drained => exact h.drained
  case leaves => exact fun hended ↦ ⟨isServing_step hended, hasLeft_step_leave hended⟩
  case gone => exact fun hleft ↦ h.stays_gone hleft

/-- A client that is told of one event, closes the connection while a second waits, and is taken off
the register. -/
def closedLabels : List Label :=
  [.signal .written, .change (.send [.small 1] (.ready (.small 2))), .signal .mail,
    .signal .written, .change (.send [.small 1] (.ready (.small 3))), .signal (.inbound .close),
    .signal .leave]

/-- It has been sent what it was told of, in order; whatever comes later, it serves no more, and no
event reaches it. -/
theorem relays_faithfully_closed :
    let σ := of [] (.small 1) closedLabels
    texts σ.sent = [.ready (.small 1), .ready (.small 2)] ∧
      texts σ.sent <+: .ready (.small 1) :: σ.queued ∧
      (∀ l, (σ.step l).stage.isServing = false) ∧
      ∀ later : List Label, ∀ event,
        ((later.foldl Relay.step σ).dispatcher.fanOut [.small 1] event).2.queue σ.id =
          (later.foldl Relay.step σ).dispatcher.queue σ.id := by
  intro σ
  obtain ⟨-, hfaithful⟩ := relays_faithfully [] (.small 1) closedLabels
  have hended : σ.stage.isServing = false := by decide +kernel
  have hleft : σ.stage.hasLeft = true := by decide +kernel
  refine ⟨by decide +kernel, hfaithful.sent, (hfaithful.leaves hended).1, ?_⟩
  intro later event
  exact (hfaithful.gone hleft later).2.2.2 [.small 1] event

end Relay

end WhisperChat
