import Mathlib.Data.List.Induction
import WhisperChat.Proofs.Dispatcher

/-!
# Fan-outs side by side

A fan-out puts its event into the open mailboxes of its audience in one step, and then takes the
connections that it has found closed off the register, a step for each.  Connections come and go in
between, and other fan-outs do the same, so that a list of closed connections may be old by the time
it is worked off.  It never goes wrong, because a connection that was found closed stays closed and
its number is never given out again (`Exchange.Sound`).
-/

namespace WhisperChat

namespace Dispatcher

variable {d : Dispatcher} {c c' : ConnectionId} {user other : UserId} {event : Event}

/-! ## The register as a map -/

/-- Every user has one entry at most, and no entry is empty. -/
structure IsMap (d : Dispatcher) : Prop where
  keys : (d.clients.map Prod.fst).Nodup
  nonempty : ∀ entry ∈ d.clients, entry.2 ≠ []

theorem lookup_addClient (clients : List (UserId × List ConnectionId)) :
    ((addClient user c clients).lookup other).getD [] =
      (clients.lookup other).getD [] ++ if other = user then [c] else [] := by
  induction clients with
  | nil =>
    by_cases hsame : other = user
    · simp [addClient, hsame]
    · simp [addClient, hsame, List.lookup_cons, beq_eq_false_iff_ne.2 hsame]
  | cons first clients ih =>
    obtain ⟨u, cs⟩ := first
    unfold addClient
    split
    case isTrue hfirst =>
      subst hfirst
      by_cases hsame : other = u
      · simp [hsame]
      · simp [hsame, List.lookup_cons, beq_eq_false_iff_ne.2 hsame]
    case isFalse hfirst =>
      by_cases hsame : other = u
      · subst hsame
        simp [hfirst]
      · simp only [List.lookup_cons, beq_eq_false_iff_ne.2 hsame]
        exact ih

theorem connections_register (user other : UserId) :
    (d.register user).2.connections other =
      d.connections other ++ if other = user then [(d.register user).1] else [] :=
  lookup_addClient d.clients

theorem map_fst_addClient (clients : List (UserId × List ConnectionId)) :
    (addClient user c clients).map Prod.fst =
      if user ∈ clients.map Prod.fst then clients.map Prod.fst
      else clients.map Prod.fst ++ [user] := by
  induction clients with
  | nil => rfl
  | cons first clients ih =>
    obtain ⟨u, cs⟩ := first
    unfold addClient
    split
    case isTrue hfirst => simp [hfirst]
    case isFalse hfirst =>
      rw [List.map_cons, ih]
      simp only [List.map_cons, List.mem_cons, Ne.symm hfirst, false_or]
      split <;> rfl

namespace IsMap

theorem of_clients (h : d.IsMap) {d' : Dispatcher} (hclients : d'.clients = d.clients) :
    d'.IsMap := by
  refine ⟨?_, ?_⟩
  · rw [hclients]
    exact h.keys
  · rw [hclients]
    exact h.nonempty

theorem register (h : d.IsMap) (user : UserId) : (d.register user).2.IsMap := by
  refine ⟨?_, ?_⟩
  · simp only [Dispatcher.register, map_fst_addClient]
    split
    case isTrue => exact h.keys
    case isFalse hnew => exact List.nodup_append.2 ⟨h.keys, List.nodup_singleton _, by
      rintro a ha b hb rfl
      exact hnew (List.mem_singleton.1 hb ▸ ha)⟩
  · intro entry hentry
    rcases IsOwnedBy.mem_addClient hentry with hold | rfl | ⟨cs, -, rfl⟩
    · exact h.nonempty entry hold
    · simp
    · simp

/-- A user's entry holds all connections of the user. -/
theorem connections_eq (h : d.IsMap) {cs : List ConnectionId} (hentry : (user, cs) ∈ d.clients) :
    d.connections user = cs := by
  obtain ⟨before, after, hclients⟩ := List.append_of_mem hentry
  have hbefore : ∀ entry ∈ before, entry.1 ≠ user := by
    have hkeys := h.keys
    rw [hclients, List.map_append, List.map_cons, List.nodup_append] at hkeys
    intro entry hmem
    exact hkeys.2.2 entry.1 (List.mem_map_of_mem hmem) user List.mem_cons_self
  have hlookup : d.clients.lookup user = some cs := by
    rw [List.lookup_eq_some_iff]
    refine ⟨before, after, hclients, ?_⟩
    intro entry hmem
    exact bne_iff_ne.2 (hbefore entry hmem).symm
  rw [connections, hlookup, Option.getD_some]

theorem mem_connections_iff (h : d.IsMap) :
    c ∈ d.connections user ↔ ∃ cs, (user, cs) ∈ d.clients ∧ c ∈ cs := by
  constructor
  · intro hc
    obtain ⟨cs, hentry, hcs⟩ := mem_clients_of_mem_connections hc
    exact ⟨cs, hentry, hcs ▸ hc⟩
  · rintro ⟨cs, hentry, hc⟩
    rw [h.connections_eq hentry]
    exact hc

end IsMap

/-- What is left of an entry when a connection of the user is taken off the register. -/
theorem mem_clients_unregister_iff {entry : UserId × List ConnectionId} :
    entry ∈ (d.unregister user c).clients ↔
      ∃ cs, (entry.1, cs) ∈ d.clients ∧
        if entry.1 = user then cs.filter (· ≠ c) = entry.2 ∧ entry.2 ≠ [] else cs = entry.2 := by
  obtain ⟨u, left⟩ := entry
  simp only [unregister, List.mem_filterMap, Prod.exists]
  constructor
  · rintro ⟨u', cs, hmem, hkept⟩
    split at hkept
    case isTrue hsame =>
      subst hsame
      split at hkept
      case h_1 => cases hkept
      case h_2 hne =>
        cases hkept
        exact ⟨cs, hmem, by simpa using hne⟩
    case isFalse hother =>
      cases hkept
      exact ⟨left, hmem, by simp [hother]⟩
  · rintro ⟨cs, hmem, hleft⟩
    refine ⟨u, cs, hmem, ?_⟩
    split at hleft
    case isTrue hsame =>
      obtain ⟨rfl, hne⟩ := hleft
      rw [if_pos hsame]
      split
      case h_1 hnil => exact absurd hnil hne
      case h_2 => rfl
    case isFalse hother =>
      subst hleft
      rw [if_neg hother]

/-- Entries that are changed or dropped, their keys being kept, have different keys still. -/
theorem nodup_keys_filterMap {α β : Type} {f : α × β → Option (α × β)} {entries : List (α × β)}
    (hf : ∀ entry left, f entry = some left → left.1 = entry.1)
    (h : (entries.map Prod.fst).Nodup) : ((entries.filterMap f).map Prod.fst).Nodup := by
  rw [List.nodup_iff_pairwise_ne, List.pairwise_map] at h ⊢
  refine h.filterMap _ ?_
  intro first second hne left hleft left' hleft'
  rw [hf first left hleft, hf second left' hleft']
  exact hne

namespace IsMap

theorem unregister (h : d.IsMap) (user : UserId) (c : ConnectionId) :
    (d.unregister user c).IsMap := by
  refine ⟨?_, ?_⟩
  · refine nodup_keys_filterMap ?_ h.keys
    rintro ⟨u, cs⟩ left hleft
    simp only at hleft
    split at hleft
    · split at hleft <;> cases hleft
      rfl
    · cases hleft
      rfl
  · intro entry hentry
    obtain ⟨cs, hmem, hleft⟩ := mem_clients_unregister_iff.1 hentry
    split at hleft
    · exact hleft.2
    · exact hleft ▸ h.nonempty _ hmem

theorem mem_connections_unregister_iff (h : d.IsMap) :
    c' ∈ (d.unregister user c).connections other ↔
      c' ∈ d.connections other ∧ ¬ (other = user ∧ c' = c) := by
  rw [(h.unregister user c).mem_connections_iff, h.mem_connections_iff]
  simp only [mem_clients_unregister_iff]
  constructor
  · rintro ⟨left, ⟨cs, hmem, hleft⟩, hc⟩
    split at hleft
    case isTrue hsame =>
      obtain ⟨rfl, -⟩ := hleft
      obtain ⟨hin, hne⟩ := List.mem_filter.1 hc
      exact ⟨⟨cs, hmem, hin⟩, fun hboth ↦ of_decide_eq_true hne hboth.2⟩
    case isFalse hother => exact ⟨⟨cs, hmem, hleft ▸ hc⟩, fun hboth ↦ hother hboth.1⟩
  · rintro ⟨⟨cs, hmem, hc⟩, hnot⟩
    by_cases hsame : other = user
    · have hin : c' ∈ cs.filter (· ≠ c) :=
        List.mem_filter.2 ⟨hc, decide_eq_true fun heq ↦ hnot ⟨hsame, heq⟩⟩
      refine ⟨cs.filter (· ≠ c), ⟨cs, hmem, ?_⟩, hin⟩
      rw [if_pos hsame]
      exact ⟨rfl, List.ne_nil_of_mem hin⟩
    · exact ⟨cs, ⟨cs, hmem, by simp [hsame]⟩, hc⟩

end IsMap

/-! ## Closed connections -/

/-- Whether the connection was there and is closed now. -/
def IsClosed (d : Dispatcher) (c : ConnectionId) : Prop :=
  c.index < d.mailboxes.length ∧ d.isOpen c = false

theorem isOpen_register (hc : c.index < d.mailboxes.length) :
    (d.register user).2.isOpen c = d.isOpen c := by
  simp only [isOpen, mailbox?, register]
  rw [List.getElem?_append_left hc]

theorem isOpen_closeMailbox :
    (d.closeMailbox c).isOpen c' = (d.isOpen c' && decide (c ≠ c')) := by
  rw [isOpen, closeMailbox, mailbox?_modifyMailbox]
  by_cases hsame : c = c'
  · subst hsame
    cases d.mailbox? c <;> simp
  · simp [hsame, isOpen]

/-- Who takes an event changes one queue. -/
theorem exists_queue_of_takeFirst? {d' : Dispatcher} (h : d.takeFirst? c = some (event, d')) :
    ∃ queue, d' = d.modifyMailbox c fun m ↦ { m with queue } := by
  unfold takeFirst? at h
  split at h
  case h_1 => cases h
  case h_2 =>
    cases h
    exact ⟨_, rfl⟩

theorem isOpen_modifyMailbox_queue {queue : List Event} :
    (d.modifyMailbox c fun m ↦ { m with queue }).isOpen c' = d.isOpen c' := by
  rw [isOpen, mailbox?_modifyMailbox]
  split
  · rw [isOpen]
    cases d.mailbox? c' <;> rfl
  · rfl

theorem length_modifyMailbox (f : Mailbox → Mailbox) :
    (d.modifyMailbox c f).mailboxes.length = d.mailboxes.length := List.length_modify ..

theorem isOpen_foldl_push (cs : List ConnectionId) :
    (cs.foldl (push event) d).isOpen c = d.isOpen c := by
  induction cs generalizing d with
  | nil => rfl
  | cons first cs ih => rw [List.foldl_cons, ih, isOpen_push]

namespace Delivery

theorem dead_foldl_toConnection (delivery : Delivery) (cs : List ConnectionId) :
    (cs.foldl (toConnection event user) delivery).dead =
      delivery.dead ++ (cs.filter fun c ↦ !delivery.dispatcher.isOpen c).map (user, ·) := by
  induction cs generalizing delivery with
  | nil => simp
  | cons c cs ih =>
    have hopen : ∀ c', (delivery.toConnection event user c).dispatcher.isOpen c' =
        delivery.dispatcher.isOpen c' := by
      intro c'
      rw [dispatcher_toConnection, isOpen_push]
    rw [List.foldl_cons, ih]
    simp only [hopen]
    unfold toConnection
    split
    case isTrue hc => simp [hc]
    case isFalse hc => simp [hc]

theorem dead_foldl_toUser (delivery : Delivery) (audience : List UserId) :
    (audience.foldl (toUser event) delivery).dead =
      delivery.dead ++ audience.flatMap fun user ↦
        ((delivery.dispatcher.connections user).filter fun c ↦
          !delivery.dispatcher.isOpen c).map (user, ·) := by
  induction audience generalizing delivery with
  | nil => simp
  | cons user audience ih =>
    have hclients : (delivery.toUser event user).dispatcher.clients =
        delivery.dispatcher.clients := by rw [dispatcher_toUser, clients_foldl_push]
    have hopen : ∀ c, (delivery.toUser event user).dispatcher.isOpen c =
        delivery.dispatcher.isOpen c := by
      intro c
      rw [dispatcher_toUser, isOpen_foldl_push]
    have hdead : (delivery.toUser event user).dead = delivery.dead ++
        ((delivery.dispatcher.connections user).filter fun c ↦
          !delivery.dispatcher.isOpen c).map (user, ·) := by
      unfold toUser
      split
      case h_1 hnone => simp [hnone]
      case h_2 => exact dead_foldl_toConnection _ _
    rw [List.foldl_cons, ih, hdead, List.flatMap_cons, List.append_assoc]
    simp only [connections, hclients, hopen]

end Delivery

/-- A fan-out notes the closed connections of its audience. -/
theorem mem_dead_deliver_iff {audience : List UserId} :
    (user, c) ∈ (d.deliver audience event).dead ↔
      user ∈ audience ∧ c ∈ d.connections user ∧ d.isOpen c = false := by
  rw [deliver, Delivery.dead_foldl_toUser]
  simp [List.mem_flatMap]

/-- A user of the audience has the connection just when its owner is in the audience. -/
theorem reaches_iff {owners : List UserId} (howned : d.IsOwnedBy owners) (hmap : d.IsMap)
    {audience : List UserId} :
    d.Reaches audience c ↔
      (∃ user ∈ audience, owners[c.index]? = some user) ∧ d.isRegistered c = true ∧
        d.isOpen c = true := by
  have hregistered : d.isRegistered c = true ↔ ∃ entry ∈ d.clients, c ∈ entry.2 := by
    simp [isRegistered]
  rw [Reaches, hregistered, ← and_assoc]
  refine and_congr_left' ?_
  constructor
  · rintro ⟨user, haudience, hc⟩
    obtain ⟨cs, hentry, hcs⟩ := mem_clients_of_mem_connections hc
    exact ⟨⟨user, haudience, howned.owner_eq hc⟩, (user, cs), hentry, hcs ▸ hc⟩
  · rintro ⟨⟨user, haudience, howner⟩, ⟨user', cs⟩, hentry, hc⟩
    obtain rfl : user = user' :=
      Option.some.inj (howner.symm.trans (howned.owner _ hentry c hc))
    exact ⟨user, haudience, hmap.mem_connections_iff.2 ⟨cs, hentry, hc⟩⟩

end Dispatcher

/-- A dispatcher with the fan-outs under way. -/
structure Exchange where
  dispatcher : Dispatcher := {}
  /-- What each fan-out has still to take off the register. -/
  pending : List (List (UserId × ConnectionId)) := []
  /-- The users that the connections were registered for, in the order of registration. -/
  owners : List UserId := []
  /-- The events that have left their queues, because they were taken or the connection closed. -/
  gone : List (ConnectionId × Event) := []

namespace Exchange

inductive Label where
  | register (user : UserId)
  /-- A caller takes a connection off the register. -/
  | unregister (user : UserId) (c : ConnectionId)
  | close (c : ConnectionId)
  /-- The first event of a queue is taken. -/
  | take (c : ConnectionId)
  /-- A fan-out puts its event into the mailboxes, for an audience that names nobody twice. -/
  | send (audience : List UserId) (hnodup : audience.Nodup) (event : Event)
  /-- A fan-out takes the next connection off the register that it has found closed. -/
  | prune (fanOut : Nat)

/-- The exchange after its next step.  What cannot happen changes nothing. -/
def step (σ : Exchange) : Label → Exchange
  | .register user =>
    { σ with dispatcher := (σ.dispatcher.register user).2, owners := σ.owners ++ [user] }
  | .unregister user c => { σ with dispatcher := σ.dispatcher.unregister user c }
  | .close c =>
    { σ with
      dispatcher := σ.dispatcher.closeMailbox c
      gone := σ.gone ++ (σ.dispatcher.queue c).map fun event ↦ (c, event) }
  | .take c =>
    match σ.dispatcher.takeFirst? c with
    | none => σ
    | some (event, dispatcher) => { σ with dispatcher, gone := σ.gone ++ [(c, event)] }
  | .send audience _ event =>
    let delivery := σ.dispatcher.deliver audience event
    { σ with dispatcher := delivery.dispatcher, pending := σ.pending ++ [delivery.dead] }
  | .prune i =>
    match σ.pending[i]? with
    | some ((user, c) :: dead) =>
      { σ with
        dispatcher := σ.dispatcher.unregister user c
        pending := σ.pending.set i dead }
    | _ => σ

def of (labels : List Label) : Exchange := labels.foldl step {}

/-- All events that a connection has ever been given, those that have left its queue first. -/
def given (σ : Exchange) (c : ConnectionId) : List Event :=
  (σ.gone.filter fun entry ↦ entry.1 = c).map Prod.snd ++ σ.dispatcher.queue c

/-- The event that the next step has to give to a connection: that of a fan-out whose audience its
user is in, if it is registered and open. -/
def due? (σ : Exchange) (c : ConnectionId) : Label → Option Event
  | .send audience _ event =>
    if (∃ user ∈ audience, σ.owners[c.index]? = some user) ∧ σ.dispatcher.isRegistered c = true ∧
        σ.dispatcher.isOpen c = true then
      some event
    else none
  | _ => none

/-! ## What every step keeps -/

/-- The register is in order, and what is still to be taken off it is closed. -/
structure Sound (σ : Exchange) : Prop where
  owned : σ.dispatcher.IsOwnedBy σ.owners
  isMap : σ.dispatcher.IsMap
  closed : ∀ dead ∈ σ.pending, ∀ entry ∈ dead, σ.dispatcher.IsClosed entry.2

variable {σ : Exchange} {c : ConnectionId} {user : UserId}

/-- A step takes at most the next connection of a fan-out off the register, or does nothing. -/
theorem step_prune_cases (σ : Exchange) (i : Nat) :
    σ.step (.prune i) = σ ∨
      ∃ user c dead, (user, c) :: dead ∈ σ.pending ∧
        σ.step (.prune i) =
          { σ with
            dispatcher := σ.dispatcher.unregister user c
            pending := σ.pending.set i dead } := by
  cases hpending : σ.pending[i]? with
  | none => exact .inl (by simp only [step, hpending])
  | some dead =>
    cases dead with
    | nil => exact .inl (by simp only [step, hpending])
    | cons first dead =>
      obtain ⟨user, c⟩ := first
      exact .inr ⟨user, c, dead, List.mem_of_getElem? hpending, by simp only [step, hpending]⟩

/-- What a step can do to the register: it puts a new connection on it, it takes one off because a
caller says so or a fan-out has found it closed, or it leaves the register alone and opens
nothing. -/
inductive Moves (σ : Exchange) (l : Label) : Prop where
  | registers (user : UserId)
    (hdispatcher : (σ.step l).dispatcher = (σ.dispatcher.register user).2)
    (howners : (σ.step l).owners = σ.owners ++ [user])
  | unregisters (user : UserId) (c : ConnectionId)
    (hcause : l = .unregister user c ∨ ∃ dead ∈ σ.pending, (user, c) ∈ dead)
    (hdispatcher : (σ.step l).dispatcher = σ.dispatcher.unregister user c)
    (howners : (σ.step l).owners = σ.owners)
  | stays (hclients : (σ.step l).dispatcher.clients = σ.dispatcher.clients)
    (hlength : (σ.step l).dispatcher.mailboxes.length = σ.dispatcher.mailboxes.length)
    (hopen : ∀ c, (σ.step l).dispatcher.isOpen c = true → σ.dispatcher.isOpen c = true)
    (howners : (σ.step l).owners = σ.owners)

theorem moves_step (σ : Exchange) (l : Label) : Moves σ l := by
  cases l with
  | register user => exact .registers user rfl rfl
  | unregister user c => exact .unregisters user c (.inl rfl) rfl rfl
  | close c =>
    refine .stays rfl (Dispatcher.length_modifyMailbox _) ?_ rfl
    intro c' hopen
    rw [step, Dispatcher.isOpen_closeMailbox, Bool.and_eq_true] at hopen
    exact hopen.1
  | take c =>
    cases htake : σ.dispatcher.takeFirst? c with
    | none =>
      have hstep : σ.step (.take c) = σ := by simp only [step, htake]
      exact .stays (by rw [hstep]) (by rw [hstep]) (by rw [hstep]; exact fun _ ↦ id) (by rw [hstep])
    | some taken =>
      obtain ⟨event, d'⟩ := taken
      obtain ⟨queue, rfl⟩ := Dispatcher.exists_queue_of_takeFirst? htake
      have hstep : σ.step (.take c) = { σ with
          dispatcher := σ.dispatcher.modifyMailbox c fun m ↦ { m with queue }
          gone := σ.gone ++ [(c, event)] } := by simp only [step, htake]
      refine .stays (by rw [hstep]; rfl) ?_ ?_ (by rw [hstep])
      · rw [hstep, Dispatcher.length_modifyMailbox]
      · intro c'
        rw [hstep, Dispatcher.isOpen_modifyMailbox_queue]
        exact id
  | send audience hnodup event =>
    have hstep : (σ.step (.send audience hnodup event)).dispatcher =
        (audience.flatMap σ.dispatcher.connections).foldl (Dispatcher.push event) σ.dispatcher :=
      Dispatcher.dispatcher_deliver _ _ _
    refine .stays ?_ ?_ ?_ rfl
    · rw [hstep, Dispatcher.clients_foldl_push]
    · rw [hstep, Dispatcher.length_foldl_push]
    · intro c
      rw [hstep, Dispatcher.isOpen_foldl_push]
      exact id
  | prune i =>
    rcases σ.step_prune_cases i with hstep | ⟨user, c, dead, hdead, hstep⟩
    · exact .stays (by rw [hstep]) (by rw [hstep]) (by rw [hstep]; exact fun _ ↦ id) (by rw [hstep])
    · exact .unregisters user c (.inr ⟨_, hdead, List.mem_cons_self⟩) (by rw [hstep])
        (by rw [hstep])

/-- A connection that is there does not go away, and it is not opened. -/
theorem isOpen_step (hc : c.index < σ.dispatcher.mailboxes.length) (l : Label) :
    c.index < (σ.step l).dispatcher.mailboxes.length ∧
      ((σ.step l).dispatcher.isOpen c = true → σ.dispatcher.isOpen c = true) := by
  cases σ.moves_step l with
  | registers user hdispatcher =>
    rw [hdispatcher, Dispatcher.isOpen_register hc]
    refine ⟨?_, id⟩
    simp only [Dispatcher.register, List.length_append, List.length_singleton]
    omega
  | unregisters user c' _ hdispatcher =>
    rw [hdispatcher]
    exact ⟨hc, id⟩
  | stays _ hlength hopen => exact ⟨hlength ▸ hc, hopen c⟩

theorem isClosed_step (h : σ.dispatcher.IsClosed c) (l : Label) :
    (σ.step l).dispatcher.IsClosed c := by
  obtain ⟨hlength, hopen⟩ := isOpen_step h.1 l
  refine ⟨hlength, Bool.eq_false_iff.2 fun hstep ↦ ?_⟩
  exact Bool.eq_false_iff.1 h.2 (hopen hstep)

theorem owned_step (h : σ.Sound) (l : Label) :
    (σ.step l).dispatcher.IsOwnedBy (σ.step l).owners := by
  cases σ.moves_step l with
  | registers user hdispatcher howners =>
    rw [hdispatcher, howners]
    exact h.owned.register user
  | unregisters user c _ hdispatcher howners =>
    rw [hdispatcher, howners]
    exact h.owned.unregister user c
  | stays hclients hlength _ howners =>
    rw [howners]
    exact h.owned.of_clients hlength hclients

theorem isMap_step (h : σ.Sound) (l : Label) : (σ.step l).dispatcher.IsMap := by
  cases σ.moves_step l with
  | registers user hdispatcher =>
    rw [hdispatcher]
    exact h.isMap.register user
  | unregisters user c _ hdispatcher =>
    rw [hdispatcher]
    exact h.isMap.unregister user c
  | stays hclients => exact h.isMap.of_clients hclients

/-- What is to be taken off the register after a step was to be taken off before, or was found
closed by a fan-out that has just sent. -/
theorem closed_of_mem_pending_step (h : σ.Sound) {l : Label} {dead : List (UserId × ConnectionId)}
    (hdead : dead ∈ (σ.step l).pending) {entry : UserId × ConnectionId} (hentry : entry ∈ dead) :
    σ.dispatcher.IsClosed entry.2 := by
  cases l with
  | register user => exact h.closed dead hdead entry hentry
  | unregister user c => exact h.closed dead hdead entry hentry
  | close c => exact h.closed dead hdead entry hentry
  | take c =>
    simp only [step] at hdead
    split at hdead <;> exact h.closed dead hdead entry hentry
  | send audience hnodup event =>
    rcases List.mem_append.1 hdead with hold | hnew
    · exact h.closed dead hold entry hentry
    · rw [List.mem_singleton.1 hnew] at hentry
      obtain ⟨-, hc, hclosed⟩ := Dispatcher.mem_dead_deliver_iff.1 hentry
      have howner := h.owned.owner_eq hc
      have hlt : entry.2.index < σ.owners.length := (List.getElem?_eq_some_iff.1 howner).1
      exact ⟨h.owned.length ▸ hlt, hclosed⟩
  | prune i =>
    rcases σ.step_prune_cases i with hstep | ⟨user, c, rest, hrest, hstep⟩
    · rw [hstep] at hdead
      exact h.closed dead hdead entry hentry
    · rw [hstep] at hdead
      rcases List.mem_or_eq_of_mem_set hdead with hold | rfl
      · exact h.closed dead hold entry hentry
      · exact h.closed _ hrest entry (List.mem_cons_of_mem _ hentry)

theorem Sound.step (h : σ.Sound) (l : Label) : (σ.step l).Sound where
  owned := owned_step h l
  isMap := isMap_step h l
  closed := fun _ hdead _ hentry ↦ isClosed_step (closed_of_mem_pending_step h hdead hentry) l

theorem sound_start : Sound {} := by
  refine ⟨⟨rfl, ?_, ?_⟩, ⟨List.nodup_nil, ?_⟩, ?_⟩ <;> simp

theorem Sound.steps (h : σ.Sound) (labels : List Label) : (labels.foldl Exchange.step σ).Sound := by
  induction labels generalizing σ with
  | nil => exact h
  | cons l labels ih => exact ih (h.step l)

theorem sound_of (labels : List Label) : (of labels).Sound := sound_start.steps labels

/-! ## What the connections are given -/

/-- A step gives a connection what is due, and nothing else. -/
theorem given_step (h : σ.Sound) (l : Label) (c : ConnectionId) :
    (σ.step l).given c = σ.given c ++ (σ.due? c l).toList := by
  cases l with
  | register user => simp [given, step, due?, Dispatcher.queue_register]
  | unregister user c' => exact (List.append_nil _).symm
  | close c' =>
    simp only [due?, Option.toList_none, List.append_nil]
    exact Dispatcher.queue_closeMailbox_append σ.gone
  | take c' =>
    simp only [step, due?, Option.toList_none, List.append_nil]
    split
    · rfl
    · rename_i event d' htake
      exact Dispatcher.queue_of_takeFirst?_append htake σ.gone
  | send audience hnodup event =>
    simp only [given, step, due?, ← Dispatcher.reaches_iff h.owned h.isMap,
      Dispatcher.queue_deliver h.owned hnodup, List.append_assoc]
    split <;> rfl
  | prune i =>
    simp only [due?, Option.toList_none, List.append_nil]
    rcases σ.step_prune_cases i with hstep | ⟨user, c', dead, -, hstep⟩
    · rw [hstep]
    · rw [hstep]
      rfl

theorem of_concat (labels : List Label) (l : Label) : of (labels ++ [l]) = (of labels).step l := by
  rw [of, of, List.foldl_append, List.foldl_cons, List.foldl_nil]

/-- What a connection has been given is what was due to it, step by step. -/
theorem given_of (labels : List Label) (c : ConnectionId) :
    (of labels).given c =
      labels.zipIdx.filterMap fun (l, i) ↦ (of (labels.take i)).due? c l := by
  induction labels using List.reverseRecOn with
  | nil => rfl
  | append_singleton labels l ih =>
    have hearlier : (labels.zipIdx.filterMap fun (l', i) ↦
          (of ((labels ++ [l]).take i)).due? c l') =
        labels.zipIdx.filterMap fun (l', i) ↦ (of (labels.take i)).due? c l' := by
      apply List.filterMap_congr
      rintro ⟨l', i⟩ hmem
      have hlt : i < labels.length := by simpa using (List.mem_zipIdx hmem).2.1
      simp only [List.take_append_of_le_length (Nat.le_of_lt hlt)]
    rw [of_concat, given_step (sound_of labels), ih, List.zipIdx_append, List.filterMap_append,
      hearlier]
    congr 1
    simp only [List.zipIdx_cons, List.zipIdx_nil, Nat.zero_add, List.filterMap_cons,
      List.filterMap_nil, List.take_left]
    cases (of labels).due? c l <;> rfl

/-! ## Who stays on the register -/

/-- The connection belongs to the user, and is on the register unless it is closed. -/
def Keeps (σ : Exchange) (user : UserId) (c : ConnectionId) : Prop :=
  σ.owners[c.index]? = some user ∧
    (σ.dispatcher.isOpen c = true → c ∈ σ.dispatcher.connections user)

theorem keeps_register (h : σ.Sound) (user : UserId) :
    (σ.step (.register user)).Keeps user (σ.dispatcher.register user).1 := by
  refine ⟨?_, fun _ ↦ ?_⟩
  · change (σ.owners ++ [user])[σ.dispatcher.mailboxes.length]? = some user
    rw [← h.owned.length, List.getElem?_concat_length]
  · rw [step, Dispatcher.connections_register]
    simp

/-- A fan-out only takes off the register what has been closed, however long ago it was found so,
and a caller takes off nothing but the connection that is named. -/
theorem Keeps.step (hkeeps : σ.Keeps user c) (h : σ.Sound) {l : Label}
    (hl : l ≠ .unregister user c) : (σ.step l).Keeps user c := by
  obtain ⟨howner, hregistered⟩ := hkeeps
  have hlt : c.index < σ.owners.length := (List.getElem?_eq_some_iff.1 howner).1
  have hopen := (isOpen_step (h.owned.length ▸ hlt) l).2
  cases σ.moves_step l with
  | registers other hdispatcher howners =>
    refine ⟨?_, fun hc ↦ ?_⟩
    · rw [howners, List.getElem?_append_left hlt, howner]
    · rw [hdispatcher, Dispatcher.connections_register]
      exact List.mem_append_left _ (hregistered (hopen hc))
  | unregisters other c' hcause hdispatcher howners =>
    refine ⟨by rw [howners, howner], fun hc ↦ ?_⟩
    rw [hdispatcher, h.isMap.mem_connections_unregister_iff]
    refine ⟨hregistered (hopen hc), ?_⟩
    rintro ⟨rfl, rfl⟩
    rcases hcause with hcaller | ⟨dead, hdead, hentry⟩
    · exact hl hcaller
    · have hclosed := (h.closed dead hdead _ hentry).2
      rw [hopen hc] at hclosed
      cases hclosed
  | stays hclients _ _ howners =>
    refine ⟨by rw [howners, howner], fun hc ↦ ?_⟩
    rw [Dispatcher.connections, hclients]
    exact hregistered (hopen hc)

theorem Keeps.steps (hkeeps : σ.Keeps user c) (h : σ.Sound) {labels : List Label}
    (hlabels : .unregister user c ∉ labels) : (labels.foldl Exchange.step σ).Keeps user c := by
  induction labels generalizing σ with
  | nil => exact hkeeps
  | cons l labels ih =>
    rw [List.mem_cons, not_or] at hlabels
    exact ih (hkeeps.step h (Ne.symm hlabels.1)) (h.step l) hlabels.2

/-! ## Fan-outs as a whole -/

theorem dispatcher_prunes {i : Nat} {dead : List (UserId × ConnectionId)}
    (hdead : σ.pending[i]? = some dead) :
    ((List.replicate dead.length (.prune i)).foldl step σ).dispatcher =
      σ.dispatcher.prune dead := by
  induction dead generalizing σ with
  | nil => rfl
  | cons first dead ih =>
    obtain ⟨user, c⟩ := first
    have hi : i < σ.pending.length := (List.getElem?_eq_some_iff.1 hdead).1
    have hstep : σ.step (.prune i) =
        { σ with
          dispatcher := σ.dispatcher.unregister user c
          pending := σ.pending.set i dead } := by
      simp only [step, hdead]
    rw [List.length_cons, List.replicate_succ, List.foldl_cons, hstep, ih]
    · rfl
    · exact List.getElem?_set_self hi

/-- Where nothing comes in between, the steps of a fan-out are the fan-out. -/
theorem dispatcher_fanOut (σ : Exchange) {audience : List UserId} (hnodup : audience.Nodup)
    (event : Event) :
    ((.send audience hnodup event :: List.replicate
        (σ.dispatcher.deliver audience event).dead.length
        (.prune σ.pending.length)).foldl step σ).dispatcher =
      (σ.dispatcher.fanOut audience event).2 := by
  rw [List.foldl_cons, dispatcher_prunes]
  · rfl
  · exact List.getElem?_concat_length

/-- Whatever registrations, closings and fan-outs come between the steps of a fan-out: a connection
that is open and that no caller has taken off the register is still on it; a connection has been
given the events of those fan-outs that have sent while it was registered and open and that its user
was in the audience of, once each and in the order of sending; and no user has an empty entry. -/
theorem loses_nothing (labels : List Label) :
    (∀ before user after, labels = before ++ .register user :: after →
        let c := ((of before).dispatcher.register user).1
        (of labels).dispatcher.isOpen c = true → .unregister user c ∉ after →
          c ∈ (of labels).dispatcher.connections user) ∧
      (∀ c, (of labels).given c =
        labels.zipIdx.filterMap fun (l, i) ↦ (of (labels.take i)).due? c l) ∧
      ∀ entry ∈ (of labels).dispatcher.clients, entry.2 ≠ [] := by
  refine ⟨?_, given_of labels, (sound_of labels).isMap.nonempty⟩
  rintro before user after rfl c hopen hafter
  have hregistered : (of (before ++ [.register user])).Keeps user c := by
    rw [of_concat]
    exact keeps_register (sound_of before) user
  have hsplit : of (before ++ .register user :: after) =
      after.foldl step (of (before ++ [.register user])) := by
    rw [of, of, ← List.foldl_append, List.append_assoc]
    rfl
  have hkeeps := hregistered.steps (sound_of _) hafter
  rw [← hsplit] at hkeeps
  exact hkeeps.2 hopen

/-- Two fan-outs have found the first connection closed; the second is registered before they prune,
and is sent to afterwards. -/
def staleLabels : List Label :=
  [.register (.zero .user), .close ⟨0⟩, .send [.zero .user] (by decide) (.ready (.zero .user)),
    .send [.zero .user] (by decide) (.ready (.zero .user)), .register (.zero .user), .prune 0,
    .prune 1, .send [.zero .user] (by decide) (.ready (.zero .user))]

/-- The second connection is not taken for the first. -/
theorem loses_nothing_stale :
    ⟨1⟩ ∈ (of staleLabels).dispatcher.connections (.zero .user) ∧
      (of staleLabels).given ⟨1⟩ = [.ready (.zero .user)] := by
  obtain ⟨hkept, hgiven, -⟩ := loses_nothing staleLabels
  refine ⟨hkept (staleLabels.take 4) (.zero .user) (staleLabels.drop 5) rfl ?_ ?_, ?_⟩
  · decide
  · simp [staleLabels]
  · rw [hgiven]
    decide

end Exchange

end WhisperChat
