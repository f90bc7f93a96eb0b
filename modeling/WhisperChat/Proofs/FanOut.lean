import Mathlib.Data.List.Perm.Basic
import WhisperChat.Proofs.Exchange
import WhisperChat.Proofs.Store

/-!
# What a fan-out accounts for

The report of a fan-out is a count over the connections of its audience, and what it leaves of the
register are the connections that were open (`connections_fanOut`).  Putting events into mailboxes
and taking connections off the register can both be done in any order, so that the order in which an
audience is listed makes no difference (`fanOut_eq_of_perm`).
-/

namespace WhisperChat

namespace Dispatcher

variable {d : Dispatcher} {c c' : ConnectionId} {user other : UserId} {event : Event}
  {audience : List UserId}

/-! ## Reachable dispatchers -/

inductive Change where
  | register (user : UserId)
  | unregister (user : UserId) (c : ConnectionId)
  | close (c : ConnectionId)
  /-- The first event of a queue is taken. -/
  | take (c : ConnectionId)
  /-- A fan-out puts its event into the mailboxes; what it has found closed it takes off the
  register afterwards, when others have come in between. -/
  | send (audience : List UserId) (event : Event)
  /-- A fan-out that nobody disturbs. -/
  | fanOut (audience : List UserId) (event : Event)

def apply (d : Dispatcher) : Change → Dispatcher
  | .register user => (d.register user).2
  | .unregister user c => d.unregister user c
  | .close c => d.closeMailbox c
  | .take c =>
    match d.takeFirst? c with
    | none => d
    | some (_, d) => d
  | .send audience event => (d.deliver audience event).dispatcher
  | .fanOut audience event => (d.fanOut audience event).2

def of (changes : List Change) : Dispatcher := changes.foldl apply {}

theorem IsMap.prune (h : d.IsMap) (dead : List (UserId × ConnectionId)) : (d.prune dead).IsMap := by
  induction dead generalizing d with
  | nil => exact h
  | cons first dead ih => exact ih (h.unregister first.1 first.2)

theorem IsMap.fanOut (h : d.IsMap) (audience : List UserId) (event : Event) :
    (d.fanOut audience event).2.IsMap := by
  apply IsMap.prune
  rw [dispatcher_deliver]
  exact h.of_clients (clients_foldl_push _)

theorem clients_apply_take (c : ConnectionId) : (d.apply (.take c)).clients = d.clients := by
  rw [apply]
  split
  · rfl
  · rename_i event d' htake
    obtain ⟨queue, rfl⟩ := exists_queue_of_takeFirst? htake
    rfl

theorem length_apply_take (c : ConnectionId) :
    (d.apply (.take c)).mailboxes.length = d.mailboxes.length := by
  rw [apply]
  split
  · rfl
  · rename_i event d' htake
    obtain ⟨queue, rfl⟩ := exists_queue_of_takeFirst? htake
    exact length_modifyMailbox _

theorem IsMap.apply (h : d.IsMap) (change : Change) : (d.apply change).IsMap := by
  cases change with
  | register user => exact h.register user
  | unregister user c => exact h.unregister user c
  | close c => exact h.of_clients rfl
  | take c => exact h.of_clients (clients_apply_take c)
  | send audience event =>
    rw [Dispatcher.apply, dispatcher_deliver]
    exact h.of_clients (clients_foldl_push _)
  | fanOut audience event => exact h.fanOut audience event

/-- No change gives a connection another owner. -/
theorem IsOwnedBy.apply {owners : List UserId} (h : d.IsOwnedBy owners) (change : Change) :
    ∃ more, (d.apply change).IsOwnedBy (owners ++ more) := by
  have hnone : (d.apply change).IsOwnedBy owners →
      ∃ more, (d.apply change).IsOwnedBy (owners ++ more) := by
    intro hsame
    exact ⟨[], by rwa [List.append_nil]⟩
  cases change with
  | register user => exact ⟨[user], h.register user⟩
  | unregister user c => exact hnone (h.unregister user c)
  | close c => exact hnone (h.of_clients (length_modifyMailbox _) rfl)
  | take c => exact hnone (h.of_clients (length_apply_take c) (clients_apply_take c))
  | send audience event =>
    apply hnone
    rw [Dispatcher.apply, dispatcher_deliver]
    exact h.of_clients (length_foldl_push _) (clients_foldl_push _)
  | fanOut audience event => exact hnone (h.fanOut audience event)

theorem IsMap.foldl_apply (h : d.IsMap) (changes : List Change) :
    (changes.foldl Dispatcher.apply d).IsMap := by
  induction changes generalizing d with
  | nil => exact h
  | cons change changes ih => exact ih (h.apply change)

theorem IsOwnedBy.foldl_apply {owners : List UserId} (h : d.IsOwnedBy owners)
    (changes : List Change) :
    ∃ more, (changes.foldl Dispatcher.apply d).IsOwnedBy (owners ++ more) := by
  induction changes generalizing d owners with
  | nil => exact ⟨[], by rwa [List.append_nil]⟩
  | cons change changes ih =>
    obtain ⟨first, hfirst⟩ := h.apply change
    obtain ⟨more, hmore⟩ := ih hfirst
    exact ⟨first ++ more, by rwa [← List.append_assoc]⟩

/-- In every state that a dispatcher can come to, every connection is on the register for its owner
only, and once, and every user has one entry at most, which is not empty. -/
theorem inOrder_of (changes : List Change) :
    (of changes).IsMap ∧ ∃ owners, (of changes).IsOwnedBy owners := by
  have hmap : IsMap {} := ⟨List.nodup_nil, by simp⟩
  have howned : IsOwnedBy {} [] := ⟨rfl, by simp, by simp⟩
  obtain ⟨owners, howners⟩ := howned.foldl_apply changes
  exact ⟨hmap.foldl_apply changes, _, howners⟩

/-! ## The report -/

namespace Delivery

theorem isOpen_toUser (delivery : Delivery) (c : ConnectionId) :
    (delivery.toUser event user).dispatcher.isOpen c = delivery.dispatcher.isOpen c := by
  rw [dispatcher_toUser, isOpen_foldl_push]

theorem connections_toUser (delivery : Delivery) (other : UserId) :
    (delivery.toUser event user).dispatcher.connections other =
      delivery.dispatcher.connections other := by
  rw [connections, connections, dispatcher_toUser, clients_foldl_push]

/-- Each connection of a list counts as delivered to or as failed, as it is open or closed. -/
theorem report_foldl_toConnection (delivery : Delivery) (cs : List ConnectionId) :
    (cs.foldl (toConnection event user) delivery).report =
      { delivered := delivery.report.delivered + cs.countP delivery.dispatcher.isOpen
        offline := delivery.report.offline
        failed := delivery.report.failed + cs.countP fun c ↦ !delivery.dispatcher.isOpen c } := by
  induction cs generalizing delivery with
  | nil => rfl
  | cons c cs ih =>
    have hopen : (delivery.toConnection event user c).dispatcher.isOpen =
        delivery.dispatcher.isOpen := by
      funext c'
      rw [dispatcher_toConnection, isOpen_push]
    rw [List.foldl_cons, ih, hopen, List.countP_cons, List.countP_cons]
    unfold toConnection
    split
    case isTrue hc => simp [hc, Nat.add_assoc, Nat.add_comm 1]
    case isFalse hc => simp [hc, Nat.add_assoc, Nat.add_comm 1]

/-- Each user of a list counts as offline, or all connections of the user count. -/
theorem report_foldl_toUser (delivery : Delivery) (audience : List UserId) :
    (audience.foldl (toUser event) delivery).report =
      { delivered := delivery.report.delivered +
          (audience.flatMap delivery.dispatcher.connections).countP delivery.dispatcher.isOpen
        offline := delivery.report.offline +
          audience.countP fun user ↦ delivery.dispatcher.connectionCount user = 0
        failed := delivery.report.failed +
          (audience.flatMap delivery.dispatcher.connections).countP fun c ↦
            !delivery.dispatcher.isOpen c } := by
  induction audience generalizing delivery with
  | nil => rfl
  | cons user audience ih =>
    have hopen : (delivery.toUser event user).dispatcher.isOpen =
        delivery.dispatcher.isOpen := funext (isOpen_toUser delivery)
    have hconnections : (delivery.toUser event user).dispatcher.connections =
        delivery.dispatcher.connections := funext (connections_toUser delivery)
    have hcount : (delivery.toUser event user).dispatcher.connectionCount =
        delivery.dispatcher.connectionCount := by
      funext other
      rw [connectionCount, hconnections, connectionCount]
    rw [List.foldl_cons, ih, hopen, hconnections, hcount, List.flatMap_cons, List.countP_append,
      List.countP_append, List.countP_cons]
    unfold toUser
    split
    case h_1 hnone => simp [hnone, connectionCount, Nat.add_assoc, Nat.add_comm 1]
    case h_2 hsome =>
      have honline : delivery.dispatcher.connectionCount user ≠ 0 := by
        rw [connectionCount, ne_eq, List.length_eq_zero_iff]
        exact hsome
      simp only [report_foldl_toConnection, honline, Nat.add_assoc, decide_false,
        Bool.false_eq_true, if_false, Nat.add_zero]

end Delivery

theorem report_fanOut (d : Dispatcher) (audience : List UserId) (event : Event) :
    (d.fanOut audience event).1 =
      { delivered := (audience.flatMap d.connections).countP d.isOpen
        offline := audience.countP fun user ↦ d.connectionCount user = 0
        failed := (audience.flatMap d.connections).countP fun c ↦ !d.isOpen c } := by
  rw [fanOut, deliver, Delivery.report_foldl_toUser]
  simp only [Nat.zero_add]

/-! ## What is left on the register -/

theorem isOpen_fanOut (d : Dispatcher) (audience : List UserId) (event : Event)
    (c : ConnectionId) : (d.fanOut audience event).2.isOpen c = d.isOpen c := by
  rw [fanOut, isOpen, mailbox?, mailboxes_prune, ← mailbox?, ← isOpen, dispatcher_deliver,
    isOpen_foldl_push]

/-- Taking a connection of a user off the register leaves the user's others, in their order. -/
theorem IsMap.connections_unregister (h : d.IsMap) (user other : UserId) (c : ConnectionId) :
    (d.unregister user c).connections other =
      (d.connections other).filter fun c' ↦ (other, c') ≠ (user, c) := by
  cases hleft : (d.unregister user c).connections other with
  | nil =>
    symm
    rw [List.filter_eq_nil_iff]
    intro c' hc' hne
    have hmem : c' ∈ (d.unregister user c).connections other := by
      rw [h.mem_connections_unregister_iff, ← Prod.mk.injEq]
      exact ⟨hc', of_decide_eq_true hne⟩
    simp [hleft] at hmem
  | cons first left =>
    have hfirst : first ∈ (d.unregister user c).connections other := by simp [hleft]
    obtain ⟨kept, hentry, hkept⟩ := mem_clients_of_mem_connections hfirst
    obtain ⟨cs, hcs, hfilter⟩ := mem_clients_unregister_iff.1 hentry
    rw [← hleft, hkept, h.connections_eq hcs]
    simp only at hfilter
    split at hfilter
    case isTrue hsame =>
      rw [← hfilter.1]
      apply List.filter_congr
      intro c' _
      simp [hsame]
    case isFalse hother =>
      rw [← hfilter]
      simp [hother]

/-- Taking connections off the register leaves the others, in their order. -/
theorem IsMap.connections_prune (h : d.IsMap) (dead : List (UserId × ConnectionId))
    (user : UserId) :
    (d.prune dead).connections user = (d.connections user).filter fun c ↦ (user, c) ∉ dead := by
  induction dead generalizing d with
  | nil =>
    rw [List.filter_eq_self.2 fun _ _ ↦ decide_eq_true List.not_mem_nil]
    rfl
  | cons first dead ih =>
    calc
      (d.prune (first :: dead)).connections user =
          ((d.unregister first.1 first.2).connections user).filter fun c ↦ (user, c) ∉ dead :=
        ih (h.unregister first.1 first.2)
      _ = ((d.connections user).filter fun c ↦ (user, c) ≠ first).filter fun c ↦
          (user, c) ∉ dead := by rw [h.connections_unregister]
      _ = (d.connections user).filter fun c ↦ (user, c) ∉ first :: dead := by
        rw [List.filter_filter]
        apply List.filter_congr
        intro c _
        simp [Bool.and_comm]

/-- A fan-out leaves the open connections of its audience on the register, and all of the others. -/
theorem IsMap.connections_fanOut (h : d.IsMap) (audience : List UserId) (event : Event)
    (user : UserId) :
    (d.fanOut audience event).2.connections user =
      if user ∈ audience then (d.connections user).filter d.isOpen else d.connections user := by
  have hclients : (d.deliver audience event).dispatcher.clients = d.clients := by
    rw [dispatcher_deliver, clients_foldl_push]
  have hconnections : (d.deliver audience event).dispatcher.connections user =
      d.connections user := by rw [connections, hclients, connections]
  rw [Dispatcher.fanOut, (h.of_clients hclients).connections_prune, hconnections]
  split
  case isTrue hmember =>
    apply List.filter_congr
    intro c hc
    simp [mem_dead_deliver_iff, hmember, hc]
  case isFalse hother =>
    rw [List.filter_eq_self]
    intro c _
    simp [mem_dead_deliver_iff, hother]

/-! ## Any order -/

theorem push_comm (d : Dispatcher) (event : Event) (c c' : ConnectionId) :
    push event (push event d c) c' = push event (push event d c') c := by
  by_cases hsame : c = c'
  · rw [hsame]
  have hindex : c.index ≠ c'.index := fun heq ↦ hsame (congrArg ConnectionId.mk heq)
  have hleft : (push event d c).isOpen c' = d.isOpen c' := isOpen_push
  have hright : (push event d c').isOpen c = d.isOpen c := isOpen_push
  unfold push at hleft hright ⊢
  rw [hleft, hright]
  cases d.isOpen c with
  | false => rfl
  | true =>
    cases d.isOpen c' with
    | false => rfl
    | true =>
      simp only [if_true, modifyMailbox]
      rw [List.modify_modify_ne _ _ _ hindex]

instance : RightCommutative (push event) := ⟨fun d c c' ↦ push_comm d event c c'⟩

/-- The entry of a user that has these connections; a user without any has none. -/
def listing? (user : UserId) (cs : List ConnectionId) : Option (UserId × List ConnectionId) :=
  if cs = [] then none else some (user, cs)

/-- What is left of an entry when a connection of a user is taken off the register. -/
def without? (taken : UserId × ConnectionId) (entry : UserId × List ConnectionId) :
    Option (UserId × List ConnectionId) :=
  if entry.1 = taken.1 then listing? entry.1 (entry.2.filter (· ≠ taken.2)) else some entry

theorem clients_unregister (d : Dispatcher) (user : UserId) (c : ConnectionId) :
    (d.unregister user c).clients = d.clients.filterMap (without? (user, c)) := by
  apply List.filterMap_congr
  rintro ⟨u, cs⟩ -
  simp only [without?, listing?]
  split
  · generalize cs.filter (· ≠ c) = left
    cases left <;> rfl
  · rfl

theorem bind_without? (user : UserId) (cs : List ConnectionId) (taken : UserId × ConnectionId) :
    (listing? user cs).bind (without? taken) =
      if user = taken.1 then listing? user (cs.filter (· ≠ taken.2)) else listing? user cs := by
  cases cs with
  | nil => simp [listing?]
  | cons c cs => rfl

/-- It does not matter which of two connections is taken off an entry first. -/
theorem without?_comm (first second : UserId × ConnectionId)
    (entry : UserId × List ConnectionId) :
    (without? first entry).bind (without? second) =
      (without? second entry).bind (without? first) := by
  obtain ⟨user, cs⟩ := entry
  have hboth : (cs.filter (· ≠ first.2)).filter (· ≠ second.2) =
      (cs.filter (· ≠ second.2)).filter (· ≠ first.2) := List.filter_comm ..
  by_cases hfirst : user = first.1
  · by_cases hsecond : user = second.1
    · rw [without?, if_pos hfirst, bind_without?, if_pos hsecond, hboth, without?, if_pos hsecond,
        bind_without?, if_pos hfirst]
    · rw [without?, if_pos hfirst, bind_without?, if_neg hsecond, without?, if_neg hsecond,
        Option.bind_some, without?, if_pos hfirst]
  · by_cases hsecond : user = second.1
    · rw [without?, if_neg hfirst, Option.bind_some, without?, if_pos hsecond, bind_without?,
        if_neg hfirst]
    · rw [without?, if_neg hfirst, Option.bind_some, without?, if_neg hsecond, Option.bind_some,
        without?, if_neg hfirst]

theorem unregister_comm (d : Dispatcher) (first second : UserId × ConnectionId) :
    (d.unregister first.1 first.2).unregister second.1 second.2 =
      (d.unregister second.1 second.2).unregister first.1 first.2 := by
  have hclients : ((d.unregister first.1 first.2).unregister second.1 second.2).clients =
      ((d.unregister second.1 second.2).unregister first.1 first.2).clients := by
    simp only [clients_unregister, List.filterMap_filterMap]
    rw [funext (without?_comm first second)]
  exact congrArg (fun clients ↦ { d with clients }) hclients

instance : RightCommutative fun (d : Dispatcher) (taken : UserId × ConnectionId) ↦
    d.unregister taken.1 taken.2 := ⟨unregister_comm⟩

/-- The order in which an audience is listed makes no difference. -/
theorem fanOut_eq_of_perm (d : Dispatcher) {audience other : List UserId}
    (h : audience.Perm other) (event : Event) : d.fanOut audience event = d.fanOut other event := by
  have hconnections := h.flatMap_right d.connections
  have hdelivered : (d.deliver audience event).dispatcher = (d.deliver other event).dispatcher := by
    rw [dispatcher_deliver, dispatcher_deliver, hconnections.foldl_eq]
  have hdead : (d.deliver audience event).dead.Perm (d.deliver other event).dead := by
    rw [deliver, deliver, Delivery.dead_foldl_toUser, Delivery.dead_foldl_toUser]
    exact (h.flatMap_right _).append_left _
  apply Prod.ext
  · rw [report_fanOut, report_fanOut, hconnections.countP_eq, hconnections.countP_eq, h.countP_eq]
  · rw [fanOut, fanOut, hdelivered]
    exact hdead.foldl_eq _

/-! ## What a fan-out comes to -/

def totalCount (d : Dispatcher) : List UserId → Nat
  | [] => 0
  | user :: audience => d.connectionCount user + d.totalCount audience

theorem length_flatMap_connections (d : Dispatcher) (audience : List UserId) :
    (audience.flatMap d.connections).length = d.totalCount audience := by
  induction audience with
  | nil => rfl
  | cons user audience ih =>
    rw [List.flatMap_cons, List.length_append, ih, totalCount, connectionCount]

/-- What a fan-out that nobody disturbs does, and what its report says. -/
structure AccountsFor (d : Dispatcher) (audience : List UserId) (event : Event) : Prop where
  /-- The event is put once into every open queue of the audience, and into no other. -/
  queue : ∀ c, (d.fanOut audience event).2.queue c =
    d.queue c ++ if d.Reaches audience c then [event] else []
  /-- No connection is opened or closed. -/
  isOpen : ∀ c, (d.fanOut audience event).2.isOpen c = d.isOpen c
  /-- The connections of the audience are all different, so that a count takes each of them once. -/
  nodup : (audience.flatMap d.connections).Nodup
  delivered : (d.fanOut audience event).1.delivered =
    (audience.flatMap d.connections).countP d.isOpen
  failed : (d.fanOut audience event).1.failed =
    (audience.flatMap d.connections).countP fun c ↦ !d.isOpen c
  offline : (d.fanOut audience event).1.offline =
    audience.countP fun user ↦ (d.clients.lookup user).isNone
  total : (d.fanOut audience event).1.delivered + (d.fanOut audience event).1.failed =
    d.totalCount audience
  /-- The closed connections of the audience are taken off the register, and no others. -/
  connections : ∀ user, (d.fanOut audience event).2.connections user =
    if user ∈ audience then (d.connections user).filter d.isOpen else d.connections user
  /-- A user all of whose connections were closed has none left, and no entry. -/
  gone : ∀ user ∈ audience, (∀ c ∈ d.connections user, d.isOpen c = false) →
    (d.fanOut audience event).2.connectionCount user = 0 ∧
      (d.fanOut audience event).2.clients.lookup user = none
  anyOrder : ∀ other, other.Perm audience → d.fanOut other event = d.fanOut audience event
  /-- The next fan-out to the audience delivers as often and finds nothing closed. -/
  again : ∀ next, ((d.fanOut audience event).2.fanOut audience next).1 =
    { delivered := (d.fanOut audience event).1.delivered
      offline := audience.countP fun user ↦ (d.connections user).countP d.isOpen = 0
      failed := 0 }

/-- A user without connections has no entry. -/
theorem IsMap.lookup_eq_none_iff (h : d.IsMap) :
    d.clients.lookup user = none ↔ d.connectionCount user = 0 := by
  rw [connectionCount, connections, List.length_eq_zero_iff]
  cases hlookup : d.clients.lookup user with
  | none => simp
  | some cs =>
    obtain ⟨before, after, hclients, -⟩ := List.lookup_eq_some_iff.1 hlookup
    have hentry : (user, cs) ∈ d.clients := by simp [hclients]
    simpa using h.nonempty _ hentry

/-- The connections that a fan-out leaves to its audience are the open ones. -/
theorem IsMap.flatMap_connections_fanOut (h : d.IsMap) (audience : List UserId) (event : Event) :
    audience.flatMap (d.fanOut audience event).2.connections =
      (audience.flatMap d.connections).filter d.isOpen := by
  rw [List.filter_flatMap]
  apply List.flatMap_congr
  intro user huser
  rw [h.connections_fanOut, if_pos huser]

/-- A fan-out that follows another to the same audience, with nothing in between. -/
theorem IsMap.report_fanOut_again (h : d.IsMap) (audience : List UserId) (event next : Event) :
    ((d.fanOut audience event).2.fanOut audience next).1 =
      { delivered := (d.fanOut audience event).1.delivered
        offline := audience.countP fun user ↦ (d.connections user).countP d.isOpen = 0
        failed := 0 } := by
  have hopen : (d.fanOut audience event).2.isOpen = d.isOpen :=
    funext (isOpen_fanOut d audience event)
  have hdelivered : ((audience.flatMap d.connections).filter d.isOpen).countP d.isOpen =
      (audience.flatMap d.connections).countP d.isOpen := by
    simp [List.countP_filter]
  have hfailed : ((audience.flatMap d.connections).filter d.isOpen).countP (fun c ↦ !d.isOpen c) =
      0 := by
    simp [List.countP_filter]
  have hoffline : (audience.countP fun user ↦
        (d.fanOut audience event).2.connectionCount user = 0) =
      audience.countP fun user ↦ (d.connections user).countP d.isOpen = 0 := by
    apply List.countP_congr
    intro user huser
    rw [connectionCount, h.connections_fanOut, if_pos huser, List.countP_eq_length_filter]
  rw [report_fanOut, report_fanOut, hopen, h.flatMap_connections_fanOut, hdelivered, hfailed,
    hoffline]

/-- In every state that a dispatcher can come to, its register and its queues after a fan-out and
the report of the fan-out are settled by who was on the register and open. -/
theorem fanOut_accounts (changes : List Change) {audience : List UserId}
    (haudience : audience.Nodup) (event : Event) : (of changes).AccountsFor audience event := by
  obtain ⟨hmap, owners, howned⟩ := inOrder_of changes
  generalize of changes = d at hmap howned
  have hreport := report_fanOut d audience event
  constructor
  case queue => exact queue_fanOut howned haudience event
  case isOpen => exact isOpen_fanOut d audience event
  case nodup => exact howned.nodup_flatMap haudience
  case delivered => rw [hreport]
  case failed => rw [hreport]
  case offline =>
    rw [hreport]
    apply List.countP_congr
    intro user _
    rw [Option.isNone_iff_eq_none, hmap.lookup_eq_none_iff, decide_eq_true_eq]
  case total =>
    have hlength := List.length_eq_countP_add_countP d.isOpen (l := audience.flatMap d.connections)
    simp only [Bool.not_eq_true, Bool.decide_eq_false] at hlength
    rw [hreport, ← hlength, length_flatMap_connections]
  case connections => exact hmap.connections_fanOut audience event
  case gone =>
    intro user huser hclosed
    have hcount : (d.fanOut audience event).2.connectionCount user = 0 := by
      rw [connectionCount, hmap.connections_fanOut, if_pos huser, List.length_eq_zero_iff,
        List.filter_eq_nil_iff]
      intro c hc
      simp [hclosed c hc]
    exact ⟨hcount, (hmap.fanOut audience event).lookup_eq_none_iff.2 hcount⟩
  case anyOrder => exact fun other h ↦ fanOut_eq_of_perm d h event
  case again => exact hmap.report_fanOut_again audience event

/-- User 1 has an open and a closed connection, users 2 and 4 have a closed one, and user 3 has none
any more. -/
def mixedChanges : List Change :=
  [.register (.small 1), .register (.small 1), .register (.small 2), .register (.small 3),
    .register (.small 4), .close ⟨0⟩, .close ⟨2⟩, .close ⟨4⟩, .unregister (.small 3) ⟨3⟩]

/-- The closed connection of user 4, who is not in the audience, is neither counted nor taken
off. -/
theorem fanOut_accounts_mixed :
    let audience : List UserId := [.small 3, .small 1, .small 2]
    let outcome := (of mixedChanges).fanOut audience (.ready (.small 9))
    audience.Nodup ∧ outcome.1.delivered = 1 ∧ outcome.1.offline = 1 ∧ outcome.1.failed = 2 ∧
      outcome.2.queue ⟨1⟩ = [.ready (.small 9)] ∧ outcome.2.connections (.small 1) = [⟨1⟩] ∧
      outcome.2.connectionCount (.small 2) = 0 ∧ outcome.2.connections (.small 4) = [⟨4⟩] := by
  intro audience outcome
  have hnodup : audience.Nodup := by decide
  have haccounts := fanOut_accounts mixedChanges hnodup (.ready (.small 9))
  refine ⟨hnodup, haccounts.delivered.trans ?_, haccounts.offline.trans ?_,
    haccounts.failed.trans ?_, (haccounts.queue ⟨1⟩).trans ?_,
    (haccounts.connections (.small 1)).trans ?_, (haccounts.gone (.small 2) ?_ ?_).1,
    (haccounts.connections (.small 4)).trans ?_⟩ <;> decide +kernel

end Dispatcher

end WhisperChat
