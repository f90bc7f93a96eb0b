import WhisperChat.Proofs.Relay

/-!
# When a client is given up

The ticks of a connection are numbered by the signals that it has reacted to.  What its heartbeat
knows is what can be read off these signals: whether the client has answered since the last tick,
and whether it has answered since the one before (`Heartbeat.Reflects`).  As long as nothing else
ends the connection, it is therefore given up at the first tick before which the client has left two
intervals in a row without an answer, and every earlier tick asks the client for one
(`Relay.keeps_time`).
-/

namespace WhisperChat

/-! ## Ticks and answers -/

def Signal.isAnswer : Signal → Bool
  | .inbound (.pong _) => true
  | _ => false

def ticks (signals : List Signal) : Nat := signals.count .tick

/-- The signals after the tick with the given number, the first tick being number 1. -/
def sinceTick : Nat → List Signal → List Signal
  | 0, signals => signals
  | _ + 1, [] => []
  | n + 1, s :: signals => if s = .tick then sinceTick n signals else sinceTick (n + 1) signals

def interval (n : Nat) (signals : List Signal) : List Signal :=
  (sinceTick n signals).takeWhile (· ≠ .tick)

/-- Whether the client has not answered since the tick with the given number. -/
def IsUnanswered (n : Nat) (signals : List Signal) : Prop :=
  ∀ s ∈ sinceTick n signals, s.isAnswer = false

/-- Whether the tick that comes after the signals is the third at least, and the client has not
answered since the last tick but one. -/
def IsSilent (signals : List Signal) : Prop :=
  let tick := ticks signals + 1
  3 ≤ tick ∧ IsUnanswered (tick - 2) signals

instance (n : Nat) (signals : List Signal) : Decidable (IsUnanswered n signals) :=
  inferInstanceAs (Decidable (∀ s ∈ sinceTick n signals, s.isAnswer = false))

instance (signals : List Signal) : Decidable (IsSilent signals) :=
  inferInstanceAs (Decidable (_ ∧ _))

variable {n : Nat} {signals : List Signal} {s : Signal}

theorem ticks_concat (signals : List Signal) (s : Signal) :
    ticks (signals ++ [s]) = ticks signals + if s = .tick then 1 else 0 := by
  rw [ticks, List.count_append, List.count_singleton]
  simp [ticks]

@[simp]
theorem sinceTick_zero (signals : List Signal) : sinceTick 0 signals = signals := by
  cases signals <;> rfl

theorem sinceTick_append (hn : n ≤ ticks signals) (later : List Signal) :
    sinceTick n (signals ++ later) = sinceTick n signals ++ later := by
  induction signals generalizing n with
  | nil =>
    obtain rfl : n = 0 := Nat.le_zero.1 hn
    simp
  | cons s signals ih =>
    cases n with
    | zero => simp
    | succ n =>
      rw [List.cons_append, sinceTick, sinceTick]
      split
      case isTrue htick =>
        refine ih ?_
        rw [htick, ticks, List.count_cons_self] at hn
        exact Nat.le_of_succ_le_succ hn
      case isFalse hother =>
        refine ih ?_
        rwa [ticks, List.count_cons_of_ne hother] at hn

/-- A last tick leaves nothing after it. -/
theorem sinceTick_concat_tick (signals : List Signal) :
    sinceTick (ticks signals + 1) (signals ++ [.tick]) = [] := by
  induction signals with
  | nil => rfl
  | cons s signals ih =>
    rw [List.cons_append, sinceTick]
    split
    case isTrue htick =>
      rw [htick, ticks, List.count_cons_self]
      exact ih
    case isFalse hother =>
      rw [ticks, List.count_cons_of_ne hother]
      exact ih

theorem sinceTick_suffix (n : Nat) (signals : List Signal) :
    sinceTick (n + 1) signals <:+ sinceTick n signals := by
  induction signals generalizing n with
  | nil => exact List.nil_suffix
  | cons s signals ih =>
    cases n with
    | zero =>
      rw [sinceTick_zero (s :: signals), sinceTick]
      split
      case isTrue => simp
      case isFalse =>
        have hlater := ih 0
        rw [sinceTick_zero] at hlater
        exact hlater.trans (List.suffix_cons _ _)
    | succ n =>
      rw [sinceTick, sinceTick]
      split
      case isTrue => exact ih n
      case isFalse => exact ih (n + 1)

theorem isUnanswered_concat_iff (hn : n ≤ ticks signals) :
    IsUnanswered n (signals ++ [s]) ↔ IsUnanswered n signals ∧ s.isAnswer = false := by
  rw [IsUnanswered, sinceTick_append hn, List.forall_mem_append, List.forall_mem_singleton,
    IsUnanswered]

theorem isUnanswered_concat_tick (signals : List Signal) :
    IsUnanswered (ticks signals + 1) (signals ++ [.tick]) := by
  rw [IsUnanswered, sinceTick_concat_tick]
  exact List.forall_mem_nil _

theorem isSilent_iff : IsSilent signals ↔
    2 ≤ ticks signals ∧ IsUnanswered (ticks signals - 1) signals := by
  rw [IsSilent]
  refine and_congr (by omega) ?_
  rw [show ticks signals + 1 - 2 = ticks signals - 1 by omega]

/-- Whether the client has been silent at no tick so far. -/
def NeverSilent (signals : List Signal) : Prop :=
  ∀ earlier, earlier ++ [.tick] <+: signals → ¬ IsSilent earlier

theorem neverSilent_concat_iff :
    NeverSilent (signals ++ [s]) ↔ NeverSilent signals ∧ (s = .tick → ¬ IsSilent signals) := by
  constructor
  · intro h
    refine ⟨fun earlier hearlier ↦ h earlier (hearlier.trans (List.prefix_append _ _)), ?_⟩
    rintro rfl
    exact h signals (List.prefix_refl _)
  · rintro ⟨hearlier, hlast⟩ earlier hprefix
    rcases List.prefix_concat_iff.1 hprefix with heq | hprefix
    · obtain ⟨rfl, hs⟩ := List.append_inj' heq rfl
      exact hlast (List.singleton_inj.1 hs).symm
    · exact hearlier earlier hprefix

theorem mem_sinceTick_of_mem_interval (hn : n ≤ ticks signals) {later : List Signal}
    (hs : s ∈ interval n (signals ++ .tick :: later)) : s ∈ sinceTick n signals := by
  rw [interval, sinceTick_append hn, List.takeWhile_append] at hs
  split at hs
  · simpa using hs
  · exact (List.takeWhile_sublist _).mem hs

/-- A client whose answers leave no two intervals in a row empty is never silent. -/
theorem neverSilent_of_intervals (h : ∀ n, 1 ≤ n → n + 2 ≤ ticks signals →
    ∃ s ∈ interval n signals ++ interval (n + 1) signals, s.isAnswer = true) :
    NeverSilent signals := by
  rintro earlier ⟨later, rfl⟩ hsilent
  rw [isSilent_iff] at hsilent
  obtain ⟨hticks, hunanswered⟩ := hsilent
  obtain ⟨n, hn⟩ := Nat.exists_eq_add_of_le' hticks
  have hcount : n + 1 + 2 ≤ ticks (earlier ++ [.tick] ++ later) := by
    rw [ticks, List.count_append, List.count_append, ← ticks, hn, List.count_singleton_self]
    omega
  obtain ⟨s, hs, hanswer⟩ := h (n + 1) (Nat.le_add_left 1 n) hcount
  -- Both intervals are over by the tick at which the client is silent.
  have hmem : s ∈ sinceTick (n + 1) earlier := by
    rw [List.append_assoc, List.singleton_append] at hs
    rcases List.mem_append.1 hs with hfirst | hsecond
    · exact mem_sinceTick_of_mem_interval (by omega) hfirst
    · exact (sinceTick_suffix _ _).mem (mem_sinceTick_of_mem_interval (by omega) hsecond)
  rw [hn] at hunanswered
  rw [hunanswered s hmem] at hanswer
  cases hanswer

/-- Whether the signal counts for the heartbeat. -/
def Signal.isSign (s : Signal) : Bool := s = .tick || s.isAnswer

theorem sinceTick_filter (n : Nat) (signals : List Signal) :
    sinceTick n (signals.filter Signal.isSign) = (sinceTick n signals).filter Signal.isSign := by
  induction signals generalizing n with
  | nil => cases n <;> rfl
  | cons s signals ih =>
    cases n with
    | zero => simp
    | succ n =>
      rw [sinceTick]
      split
      case isTrue htick =>
        rw [htick, List.filter_cons_of_pos rfl, sinceTick, if_pos rfl, ih]
      case isFalse hother =>
        rw [List.filter_cons]
        split
        · rw [sinceTick, if_neg hother, ih]
        · rw [ih]

/-- Nothing but ticks and answers makes a client silent or not. -/
theorem isSilent_filter_iff : IsSilent (signals.filter Signal.isSign) ↔ IsSilent signals := by
  have hticks : ticks (signals.filter Signal.isSign) = ticks signals := List.count_filter rfl
  have hunanswered (n : Nat) :
      IsUnanswered n (signals.filter Signal.isSign) ↔ IsUnanswered n signals := by
    rw [IsUnanswered, IsUnanswered, sinceTick_filter]
    simp only [List.mem_filter, and_imp]
    refine forall₂_congr fun s hs ↦ ?_
    cases hanswer : s.isAnswer <;> simp [Signal.isSign, hanswer]
  rw [IsSilent, IsSilent, hticks, hunanswered]

/-! ## What the heartbeat knows -/

namespace Heartbeat

variable {beat : Heartbeat}

/-- What the heartbeat of a connection knows of its signals. -/
structure Reflects (beat : Heartbeat) (signals : List Signal) : Prop where
  answered : beat.answered = false ↔ 1 ≤ ticks signals ∧ IsUnanswered (ticks signals) signals
  silent : IsSilent signals ↔ beat.answered = false ∧ beat.missed = 1
  missed : beat.missed ≤ 1

/-- The number of answers in a row that are missing when a tick comes. -/
def missedAtTick (beat : Heartbeat) : Nat := if beat.answered then 0 else beat.missed + 1

theorem tick?_eq (beat : Heartbeat) : beat.tick? =
    if beat.missedAtTick < tolerance then some ⟨false, beat.missedAtTick⟩ else none := by
  unfold tick? missedAtTick
  cases beat.answered <;> rfl

theorem missedAtTick_eq_one_iff (hmissed : beat.missedAtTick < tolerance) :
    beat.missedAtTick = 1 ↔ beat.answered = false := by
  obtain ⟨answered, missed⟩ := beat
  cases answered with
  | true => simp [missedAtTick]
  | false =>
    have hnone : missed + 1 < 2 := hmissed
    simp only [missedAtTick, Bool.false_eq_true, if_false, iff_true]
    omega

theorem Reflects.tick?_eq_none_iff (h : beat.Reflects signals) :
    beat.tick? = none ↔ IsSilent signals := by
  have hmissed := h.missed
  rw [h.silent, tick?_eq, missedAtTick, tolerance]
  cases beat.answered
  · simp
    omega
  · simp

theorem reflects_start : Reflects {} [.written] := by
  refine ⟨?_, ?_, Nat.zero_le 1⟩ <;> decide

theorem Reflects.quiet (h : beat.Reflects signals) (htick : s ≠ .tick)
    (hanswer : s.isAnswer = false) : beat.Reflects (signals ++ [s]) := by
  obtain ⟨hanswered, hsilent, hmissed⟩ := h
  have hticks : ticks (signals ++ [s]) = ticks signals := by
    rw [ticks_concat, if_neg htick, Nat.add_zero]
  refine ⟨?_, ?_, hmissed⟩
  · rw [hanswered, hticks, isUnanswered_concat_iff (Nat.le_refl _), and_iff_left hanswer]
  · rw [← hsilent, isSilent_iff, isSilent_iff, hticks, isUnanswered_concat_iff (Nat.sub_le _ _),
      and_iff_left hanswer]

theorem Reflects.answer (h : beat.Reflects signals) (payload : String) :
    beat.answer.Reflects (signals ++ [.inbound (.pong payload)]) := by
  have hticks : ticks (signals ++ [.inbound (.pong payload)]) = ticks signals :=
    ticks_concat signals _
  refine ⟨?_, ?_, h.missed⟩
  · rw [hticks, isUnanswered_concat_iff (Nat.le_refl _)]
    simp [Heartbeat.answer, Signal.isAnswer]
  · rw [isSilent_iff, hticks, isUnanswered_concat_iff (Nat.sub_le _ _)]
    simp [Heartbeat.answer, Signal.isAnswer]

theorem Reflects.tick (h : beat.Reflects signals) {next : Heartbeat}
    (htick : beat.tick? = some next) : next.Reflects (signals ++ [.tick]) := by
  have hticks : ticks (signals ++ [.tick]) = ticks signals + 1 := ticks_concat signals .tick
  rw [tick?_eq] at htick
  split at htick
  case isFalse => cases htick
  case isTrue hmissed =>
    cases htick
    refine ⟨?_, ?_, Nat.le_of_lt_succ hmissed⟩
    · rw [hticks]
      simp [isUnanswered_concat_tick]
    · -- For the tick to come, the last tick but one is the one before this tick.
      calc
        IsSilent (signals ++ [.tick]) ↔
            1 ≤ ticks signals ∧ IsUnanswered (ticks signals) signals := by
          rw [isSilent_iff, hticks, Nat.add_sub_cancel, isUnanswered_concat_iff (Nat.le_refl _),
            and_iff_left (show Signal.isAnswer .tick = false from rfl), Nat.succ_le_succ_iff]
        _ ↔ beat.answered = false := h.answered.symm
        _ ↔ false = false ∧ beat.missedAtTick = 1 := by
          rw [missedAtTick_eq_one_iff hmissed, and_iff_right rfl]

end Heartbeat

/-! ## The law of the heartbeat -/

namespace Relay

variable {user : UserId} {σ : Relay} {signal : Signal} {r : Connection.Reaction}

/-- Whether the label neither ends the connection nor takes it off the register: the client sends no
close and its frames do not end, no write fails, and nobody unregisters the connection. -/
def Label.isCalm (user : UserId) (c : ConnectionId) : Label → Bool
  | .signal .writeFailed | .signal .inboundEnd | .signal (.inbound .close) => false
  | .change (.unregister user' c') => ¬ (user' = user ∧ c' = c)
  | _ => true

/-- What holds of a connection that nothing but its heartbeat ends. -/
structure Timed (user : UserId) (σ : Relay) : Prop where
  registered : σ.stage.isServing = true → σ.id ∈ σ.dispatcher.connections user
  fresh : σ.stage = .greeting → σ.signals = []
  beat : ∀ {beat writing attention}, σ.stage = .relaying beat writing attention →
    attention = .listening ∧ beat.Reflects σ.signals
  serving : σ.stage.isServing = true ↔ NeverSilent σ.signals
  pings : σ.frames.count .ping + (if σ.stage.isServing then 0 else 1) = ticks σ.signals

/-- A reaction to anything but a tick neither asks the client nor gives it up. -/
theorem Timed.quiet (h : σ.Timed user) (hr : σ.connection.Reacts σ.dispatcher signal r)
    (htick : signal ≠ .tick) (hserving : r.connection.stage.isServing = σ.stage.isServing)
    (hbeat : ∀ {beat writing attention}, r.connection.stage = .relaying beat writing attention →
      attention = .listening ∧ beat.Reflects (σ.signals ++ [signal])) :
    (σ.react signal r).Timed user := by
  constructor
  case registered =>
    intro hgoes
    change r.connection.id ∈ r.dispatcher.connections user
    rw [hr.same.2, Dispatcher.connections, hr.clients_eq hgoes]
    exact h.registered (hserving ▸ hgoes)
  case fresh => exact fun hstage ↦ absurd hstage hr.ne_greeting
  case beat => exact hbeat
  case serving =>
    change r.connection.stage.isServing = true ↔ NeverSilent (σ.signals ++ [signal])
    rw [hserving, h.serving, neverSilent_concat_iff, and_iff_left fun heq ↦ absurd heq htick]
  case pings =>
    have hcount : r.frame.toList.count .ping = 0 := by
      rw [List.count_eq_zero, Option.mem_toList]
      exact hr.frame_ne_ping htick
    change _ + (if r.connection.stage.isServing then 0 else 1) = ticks (σ.signals ++ [signal])
    rw [frames_react, List.count_append, hcount, hserving, ticks_concat, if_neg htick]
    exact h.pings

/-- The same for a connection that goes on, with what its heartbeat knows then. -/
theorem Timed.goesOn (h : σ.Timed user) (hr : σ.connection.Reacts σ.dispatcher signal r)
    (htick : signal ≠ .tick) (hserving : σ.stage.isServing = true)
    {beat : Heartbeat} {writing : Bool}
    (hstage : r.connection.stage = .relaying beat writing .listening)
    (hbeat : beat.Reflects (σ.signals ++ [signal])) : (σ.react signal r).Timed user := by
  refine h.quiet hr htick ?_ ?_
  · rw [hserving, hstage]
    rfl
  · intro beat' writing' attention hstage'
    cases hstage.symm.trans hstage'
    exact ⟨rfl, hbeat⟩

/-- A tick that asks the client. -/
theorem Timed.asks (h : σ.Timed user) {beat next : Heartbeat}
    (hstage : σ.stage = .relaying beat false .listening) (htick : beat.tick? = some next) :
    (σ.react .tick (σ.connection.goOn σ.dispatcher (.relaying next true .listening)
      (some .ping))).Timed user := by
  obtain ⟨-, hbeat⟩ := h.beat hstage
  have hserving : σ.stage.isServing = true := by rw [hstage]; rfl
  have hsilent : ¬ IsSilent σ.signals := by
    rw [← hbeat.tick?_eq_none_iff, htick]
    exact Option.some_ne_none next
  constructor
  case registered => exact fun _ ↦ h.registered hserving
  case fresh => exact fun hgreeting ↦ Stage.noConfusion hgreeting
  case beat =>
    intro beat' writing attention hstage'
    cases hstage'
    exact ⟨rfl, hbeat.tick htick⟩
  case serving =>
    change true = true ↔ NeverSilent (σ.signals ++ [.tick])
    rw [neverSilent_concat_iff, ← h.serving]
    exact iff_of_true rfl ⟨hserving, fun _ ↦ hsilent⟩
  case pings =>
    have hpings := h.pings
    rw [if_pos hserving] at hpings
    change (σ.frames ++ [ServerFrame.ping]).count .ping + 0 = ticks (σ.signals ++ [.tick])
    rw [List.count_append, ticks_concat, if_pos rfl, ← hpings]
    rfl

/-- A tick at which the client is given up. -/
theorem Timed.givenUp (h : σ.Timed user) {beat : Heartbeat}
    (hstage : σ.stage = .relaying beat false .listening) (htick : beat.tick? = none) :
    (σ.react .tick (σ.connection.stop σ.dispatcher .listening)).Timed user := by
  obtain ⟨-, hbeat⟩ := h.beat hstage
  constructor
  case registered => exact fun hserving ↦ Bool.noConfusion hserving
  case fresh => exact fun hgreeting ↦ Stage.noConfusion hgreeting
  case beat => exact fun hrelaying ↦ Stage.noConfusion hrelaying
  case serving =>
    change false = true ↔ NeverSilent (σ.signals ++ [.tick])
    rw [neverSilent_concat_iff]
    exact iff_of_false Bool.false_ne_true fun hnever ↦
      hnever.2 rfl (hbeat.tick?_eq_none_iff.1 htick)
  case pings =>
    have hpings := h.pings
    rw [if_pos (by rw [hstage]; rfl)] at hpings
    change σ.frames.count .ping + 1 = ticks (σ.signals ++ [.tick])
    rw [ticks_concat, if_pos rfl, ← hpings]

theorem Timed.react (h : σ.Timed user) (hsound : σ.Sound user)
    (hr : σ.connection.Reacts σ.dispatcher signal r)
    (hcalm : (Label.signal signal).isCalm user σ.id = true) : (σ.react signal r).Timed user := by
  have hserving {beat writing attention}
      (hstage : σ.connection.stage = .relaying beat writing attention) :
      σ.stage.isServing = true := by
    rw [stage, hstage, (h.beat hstage).1]
    rfl
  cases hr with
  | greeted hstage =>
    refine h.goesOn (.greeted hstage) Signal.noConfusion (by rw [stage, hstage]; rfl) rfl ?_
    rw [h.fresh hstage]
    exact Heartbeat.reflects_start
  | flushed hstage =>
    obtain ⟨rfl, hbeat⟩ := h.beat hstage
    exact h.goesOn (.flushed hstage) Signal.noConfusion (hserving hstage) rfl
      (hbeat.quiet Signal.noConfusion rfl)
  | asks hstage htick =>
    obtain ⟨rfl, -⟩ := h.beat hstage
    exact h.asks hstage htick
  | relays hstage htake =>
    obtain ⟨rfl, hbeat⟩ := h.beat hstage
    exact h.goesOn (.relays hstage htake) Signal.noConfusion (hserving hstage) rfl
      (hbeat.quiet Signal.noConfusion rfl)
  | hears frame hstage =>
    obtain ⟨-, hbeat⟩ := h.beat hstage
    cases frame with
    | close => cases hcalm
    | pong payload =>
      exact h.goesOn (.hears _ hstage) Signal.noConfusion (hserving hstage) rfl
        (hbeat.answer payload)
    | text | binary | ping =>
      exact h.goesOn (.hears _ hstage) Signal.noConfusion (hserving hstage) rfl
        (hbeat.quiet Signal.noConfusion rfl)
  | unheard | deafens => cases hcalm
  | stops hstage hstops =>
    obtain ⟨rfl, -⟩ := h.beat hstage
    cases hstops with
    | writeFailed => cases hcalm
    | givenUp htick => exact h.givenUp hstage htick
    | drained _ hregistered =>
      rw [hsound.isRegistered_iff.2 (h.registered (hserving hstage))] at hregistered
      cases hregistered
    | told hattention => exact absurd rfl hattention
  | leaves hstage => cases (h.beat hstage).1
  | finishes hstage =>
    refine h.quiet (.finishes hstage) Signal.noConfusion (by rw [stage, hstage]; rfl) ?_
    exact fun hrelaying ↦ Stage.noConfusion hrelaying

/-- As long as a connection is open, nobody takes it off the register who does not name it. -/
theorem mem_connections_apply {d : Dispatcher} {c : ConnectionId} {change : Dispatcher.Change}
    (hmap : d.IsMap) (hc : c ∈ d.connections user) (hopen : d.isOpen c = true)
    (hcalm : (Label.change change).isCalm user c = true) :
    c ∈ (d.apply change).connections user := by
  cases change with
  | register other =>
    rw [Dispatcher.apply, Dispatcher.connections_register]
    exact List.mem_append_left _ hc
  | unregister other c' =>
    rw [Dispatcher.apply, hmap.mem_connections_unregister_iff]
    refine ⟨hc, fun hsame ↦ ?_⟩
    exact of_decide_eq_true hcalm ⟨hsame.1.symm, hsame.2.symm⟩
  | close c' => exact hc
  | take c' => rwa [Dispatcher.connections, Dispatcher.clients_apply_take]
  | send audience event =>
    rwa [Dispatcher.apply, Dispatcher.dispatcher_deliver, Dispatcher.connections,
      Dispatcher.clients_foldl_push]
  | fanOut audience event =>
    rw [Dispatcher.apply, hmap.connections_fanOut]
    split
    · exact List.mem_filter.2 ⟨hc, hopen⟩
    · exact hc

theorem isLive_of_isServing {stage : Stage} (h : stage.isServing = true) : stage.isLive = true := by
  cases stage with
  | greeting => rfl
  | relaying => rfl
  | _ => cases h

theorem Timed.change (h : σ.Timed user) (hsound : σ.Sound user) {change : Dispatcher.Change}
    (hcalm : (Label.change change).isCalm user σ.id = true) : (σ.change change).Timed user where
  registered := fun hserving ↦ mem_connections_apply hsound.isMap (h.registered hserving)
    (hsound.live (isLive_of_isServing hserving)).isOpen hcalm
  fresh := h.fresh
  beat := h.beat
  serving := h.serving
  pings := h.pings

theorem Timed.step (h : σ.Timed user) (hsound : σ.Sound user) {l : Label}
    (hcalm : l.isCalm user σ.id = true) : (σ.step l).Timed user := by
  rcases σ.step_cases l with ⟨signal, r, rfl, hr, hstep⟩ | ⟨change, rfl, -, hstep⟩ | hstep
  · rw [hstep]
    exact h.react hsound hr hcalm
  · rw [hstep]
    exact h.change hsound hcalm
  · rw [hstep]
    exact h

theorem timed_start (user : UserId) (d : Dispatcher) : (start user d).Timed user := by
  constructor
  case registered =>
    intro
    change (d.register user).1 ∈ (d.register user).2.connections user
    rw [Dispatcher.connections_register, if_pos rfl]
    exact List.mem_append_right _ (List.mem_singleton_self _)
  case fresh => exact fun _ ↦ rfl
  case beat => exact fun hrelaying ↦ Stage.noConfusion hrelaying
  case serving =>
    refine iff_of_true rfl fun earlier hprefix ↦ ?_
    exact absurd (List.prefix_nil.1 hprefix) (List.concat_ne_nil _ _)
  case pings => rfl

theorem Timed.steps (h : σ.Timed user) (hsound : σ.Sound user) {labels : List Label}
    (hcalm : ∀ l ∈ labels, l.isCalm user σ.id = true) : (labels.foldl Relay.step σ).Timed user := by
  induction labels generalizing σ with
  | nil => exact h
  | cons l labels ih =>
    rw [List.forall_mem_cons] at hcalm
    refine ih (h.step hsound hcalm.1) (hsound.step l) ?_
    rw [σ.id_step]
    exact hcalm.2

/-- When a connection asks its client for a sign of life, and when it gives it up. -/
structure KeepsTime (σ : Relay) : Prop where
  /-- The connection goes on just as long as the client has been silent at no tick. -/
  serving : σ.stage.isServing = true ↔ NeverSilent σ.signals
  /-- Every tick but the one at which the client is given up has sent a ping. -/
  pings : σ.frames.count .ping + (if σ.stage.isServing then 0 else 1) = ticks σ.signals
  /-- The next tick gives the client up if it is silent, and sends a ping otherwise. -/
  tick : ∀ {beat}, σ.stage = .relaying beat false .listening →
    let τ := σ.step (.signal .tick)
    τ.signals = σ.signals ++ [.tick] ∧
      τ.stage.isServing = !decide (IsSilent σ.signals) ∧
      τ.frames = σ.frames ++ if IsSilent σ.signals then [] else [.ping]
  /-- A client whose answers leave no two intervals in a row empty is not given up. -/
  answering : (∀ n, 1 ≤ n → n + 2 ≤ ticks σ.signals →
    ∃ s ∈ interval n σ.signals ++ interval (n + 1) σ.signals, s.isAnswer = true) →
      σ.stage.isServing = true
  /-- Nothing but ticks and answers counts. -/
  signs : IsSilent σ.signals ↔ IsSilent (σ.signals.filter Signal.isSign)
  missed : ∀ {beat writing attention}, σ.stage = .relaying beat writing attention →
    beat.missed < Heartbeat.tolerance ∧ beat.missedAtTick ≤ Heartbeat.tolerance

theorem Timed.tick (h : σ.Timed user) {beat : Heartbeat}
    (hstage : σ.stage = .relaying beat false .listening) :
    let τ := σ.step (.signal .tick)
    τ.signals = σ.signals ++ [.tick] ∧
      τ.stage.isServing = !decide (IsSilent σ.signals) ∧
      τ.frames = σ.frames ++ if IsSilent σ.signals then [] else [.ping] := by
  intro τ
  obtain ⟨-, hbeat⟩ := h.beat hstage
  cases htick : beat.tick? with
  | none =>
    have hsilent := hbeat.tick?_eq_none_iff.1 htick
    have hτ : τ = σ.react .tick (σ.connection.stop σ.dispatcher .listening) :=
      step_eq_react (by simp only [Connection.react?, hstage, htick])
    rw [hτ, if_pos hsilent, List.append_nil, decide_eq_true hsilent]
    exact ⟨rfl, rfl, rfl⟩
  | some next =>
    have hsilent : ¬ IsSilent σ.signals := by
      rw [← hbeat.tick?_eq_none_iff, htick]
      exact Option.some_ne_none next
    have hτ : τ = σ.react .tick (σ.connection.goOn σ.dispatcher (.relaying next true .listening)
        (some .ping)) := step_eq_react (by simp only [Connection.react?, hstage, htick])
    rw [hτ, if_neg hsilent, decide_eq_false hsilent]
    exact ⟨rfl, rfl, rfl⟩

/-- Whatever else happens to a connection and around it, as long as nothing but its heartbeat ends
it. -/
theorem keeps_time (before : List Dispatcher.Change) (user : UserId) {labels : List Label}
    (hcalm : ∀ l ∈ labels, l.isCalm user (start user (Dispatcher.of before)).id = true) :
    (of before user labels).KeepsTime := by
  have h := (timed_start user (Dispatcher.of before)).steps (sound_start user before) hcalm
  change (of before user labels).Timed user at h
  generalize of before user labels = σ at h
  constructor
  case serving => exact h.serving
  case pings => exact h.pings
  case tick => exact h.tick
  case answering => exact fun hintervals ↦ h.serving.2 (neverSilent_of_intervals hintervals)
  case signs => exact isSilent_filter_iff.symm
  case missed =>
    intro beat writing attention hstage
    obtain ⟨-, hbeat⟩ := h.beat hstage
    refine ⟨Nat.lt_succ_of_le hbeat.missed, ?_⟩
    rw [Heartbeat.missedAtTick]
    split
    · exact Nat.zero_le _
    · exact Nat.succ_le_succ hbeat.missed

/-- A client that reads and writes but never answers. -/
def unansweredLabels : List Label :=
  [.signal .written, .signal .tick, .signal .written, .signal (.inbound (.text "here")),
    .change (.send [.small 1] (.ready (.small 1))), .signal .mail, .signal .written, .signal .tick,
    .signal .written, .signal .tick]

/-- It is given up at the third tick, which sends no ping. -/
theorem keeps_time_unanswered :
    let σ := of [] (.small 1) unansweredLabels
    (∀ l ∈ unansweredLabels, l.isCalm (.small 1) (start (.small 1) (Dispatcher.of [])).id = true) ∧
      ticks σ.signals = 3 ∧ σ.stage.isServing = false ∧ σ.frames.count .ping = 2 := by
  intro σ
  have hcalm : ∀ l ∈ unansweredLabels,
      l.isCalm (.small 1) (start (.small 1) (Dispatcher.of [])).id = true := by decide +kernel
  have hticks : ticks σ.signals = 3 := by decide +kernel
  obtain ⟨hserving, hpings, -⟩ := keeps_time [] (.small 1) hcalm
  have hsilent : ¬ NeverSilent σ.signals := by
    intro hnever
    refine hnever (σ.signals.take 8) ?_ ?_ <;> decide +kernel
  have hstopped : σ.stage.isServing = false := Bool.eq_false_iff.2 fun h ↦ hsilent (hserving.1 h)
  refine ⟨hcalm, hticks, hstopped, ?_⟩
  rw [hstopped, hticks] at hpings
  exact Nat.succ.inj hpings

end Relay

end WhisperChat
