import Mathlib.Data.List.Nodup
import WhisperChat.Dispatcher

/-!
# What a fan-out does

The queues of events are told apart from the register of connections: registering and taking off the
register leave all queues alone, and putting events into queues leaves the register alone.  While
every connection is on the register for one user only and once (`Dispatcher.IsOwnedBy`), a fan-out
puts its event once into every open queue that belongs to the audience, and into no other
(`queue_fanOut`).
-/

namespace WhisperChat

namespace Dispatcher

variable {d d' : Dispatcher} {c c' : ConnectionId} {user : UserId} {event : Event}

/-- The events that wait for a connection. -/
def queue (d : Dispatcher) (c : ConnectionId) : List Event :=
  ((d.mailbox? c).map Mailbox.queue).getD []

/-! ## Queues -/

theorem mailbox?_modifyMailbox (f : Mailbox → Mailbox) :
    (d.modifyMailbox c f).mailbox? c' =
      if c = c' then (d.mailbox? c').map f else d.mailbox? c' := by
  have hindex : c.index = c'.index ↔ c = c' := by
    cases c
    cases c'
    simp
  simp only [mailbox?, modifyMailbox, List.getElem?_modify, hindex]
  split <;> simp

theorem queue_closeMailbox :
    (d.closeMailbox c).queue c' = if c = c' then [] else d.queue c' := by
  rw [queue, closeMailbox, mailbox?_modifyMailbox]
  split
  · cases d.mailbox? c' <;> rfl
  · rfl

/-- The event that is taken was the first of its queue, and the other queues stay. -/
theorem queue_of_takeFirst? (h : d.takeFirst? c = some (event, d')) (c' : ConnectionId) :
    d.queue c' = (if c = c' then [event] else []) ++ d'.queue c' := by
  unfold takeFirst? at h
  split at h
  case h_1 => cases h
  case h_2 first rest hqueue =>
    cases h
    change d.queue c = event :: rest at hqueue
    have hafter : queue (d.modifyMailbox c fun m ↦ { m with queue := rest }) c' =
        if c = c' then rest else d.queue c' := by
      rw [queue, mailbox?_modifyMailbox]
      split
      case isTrue hsame =>
        subst hsame
        cases hmailbox : d.mailbox? c with
        | none => simp [queue, hmailbox] at hqueue
        | some m => rfl
      case isFalse => rfl
    rw [hafter]
    split
    case isTrue hsame =>
      subst hsame
      exact hqueue
    case isFalse => rfl

/-- What leaves a queue when its connection closes is not lost where it is kept before the
queues. -/
theorem queue_closeMailbox_append (gone : List (ConnectionId × Event)) :
    ((gone ++ (d.queue c).map fun event ↦ (c, event)).filter fun entry ↦
        entry.1 = c').map Prod.snd ++
        (d.closeMailbox c).queue c' =
      (gone.filter fun entry ↦ entry.1 = c').map Prod.snd ++ d.queue c' := by
  rw [queue_closeMailbox, List.filter_append, List.map_append]
  by_cases hsame : c = c'
  · subst hsame
    simp [List.filter_map, Function.comp_def]
  · simp [List.filter_map, Function.comp_def, hsame]

/-- Nor is an event that is taken. -/
theorem queue_of_takeFirst?_append (h : d.takeFirst? c = some (event, d'))
    (gone : List (ConnectionId × Event)) :
    ((gone ++ [(c, event)]).filter fun entry ↦ entry.1 = c').map Prod.snd ++ d'.queue c' =
      (gone.filter fun entry ↦ entry.1 = c').map Prod.snd ++ d.queue c' := by
  rw [queue_of_takeFirst? h c', List.filter_append, List.map_append, List.append_assoc]
  by_cases hsame : c = c'
  · simp [hsame]
  · simp [hsame]

theorem queue_register (user : UserId) (c : ConnectionId) :
    (d.register user).2.queue c = d.queue c := by
  simp only [queue, mailbox?, register]
  rw [List.getElem?_append]
  split
  · rfl
  · rename_i hnew
    rw [List.getElem?_eq_none (Nat.le_of_not_lt hnew)]
    cases c.index - d.mailboxes.length <;> rfl

/-! ## Deliveries -/

/-- Puts an event into the queue of a connection, if it is open. -/
def push (event : Event) (d : Dispatcher) (c : ConnectionId) : Dispatcher :=
  if d.isOpen c then d.modifyMailbox c fun m ↦ { m with queue := m.queue ++ [event] } else d

theorem clients_push : (d.push event c).clients = d.clients := by
  unfold push
  split <;> rfl

theorem isOpen_push : (push event d c).isOpen c' = d.isOpen c' := by
  unfold push
  split
  · rw [isOpen, mailbox?_modifyMailbox]
    split
    · rw [isOpen]
      cases d.mailbox? c' <;> rfl
    · rfl
  · rfl

theorem queue_push : (push event d c).queue c' =
    d.queue c' ++ if c = c' ∧ d.isOpen c = true then [event] else [] := by
  unfold push
  split
  case isTrue hopen =>
    rw [queue, mailbox?_modifyMailbox]
    split
    case isTrue hsame =>
      subst hsame
      rw [if_pos ⟨rfl, hopen⟩]
      cases hmailbox : d.mailbox? c with
      | none => simp [isOpen, hmailbox] at hopen
      | some m => simp [queue, hmailbox]
    case isFalse hother => simp [queue, hother]
  case isFalse hclosed => simp [hclosed]

theorem clients_foldl_push (cs : List ConnectionId) :
    (cs.foldl (push event) d).clients = d.clients := by
  induction cs generalizing d with
  | nil => rfl
  | cons c cs ih => rw [List.foldl_cons, ih, clients_push]

/-- Connections that are all different get the event once each, if they are open. -/
theorem queue_foldl_push {cs : List ConnectionId} (hnodup : cs.Nodup) (c : ConnectionId) :
    (cs.foldl (push event) d).queue c =
      d.queue c ++ if c ∈ cs ∧ d.isOpen c = true then [event] else [] := by
  induction cs generalizing d with
  | nil => simp
  | cons first cs ih =>
    rw [List.nodup_cons] at hnodup
    rw [List.foldl_cons, ih hnodup.2, queue_push, isOpen_push, List.append_assoc]
    congr 1
    by_cases hsame : first = c
    · subst hsame
      simp [hnodup.1]
    · simp [hsame, Ne.symm hsame]

namespace Delivery

theorem dispatcher_toConnection (delivery : Delivery) :
    (delivery.toConnection event user c).dispatcher = push event delivery.dispatcher c := by
  unfold toConnection push
  split <;> rfl

theorem dispatcher_foldl_toConnection (delivery : Delivery) (cs : List ConnectionId) :
    (cs.foldl (toConnection event user) delivery).dispatcher =
      cs.foldl (push event) delivery.dispatcher := by
  induction cs generalizing delivery with
  | nil => rfl
  | cons c cs ih => rw [List.foldl_cons, ih, dispatcher_toConnection, List.foldl_cons]

theorem dispatcher_toUser (delivery : Delivery) :
    (delivery.toUser event user).dispatcher =
      (delivery.dispatcher.connections user).foldl (push event) delivery.dispatcher := by
  unfold toUser
  split
  case h_1 hnone => rw [hnone, List.foldl_nil]
  case h_2 => exact dispatcher_foldl_toConnection _ _

theorem dispatcher_foldl_toUser (delivery : Delivery) (audience : List UserId) :
    (audience.foldl (toUser event) delivery).dispatcher =
      (audience.flatMap delivery.dispatcher.connections).foldl (push event)
        delivery.dispatcher := by
  induction audience generalizing delivery with
  | nil => rfl
  | cons user audience ih =>
    -- The register is the same for the users that come later.
    have hconnections : (delivery.toUser event user).dispatcher.connections =
        delivery.dispatcher.connections := by
      funext later
      rw [connections, connections, dispatcher_toUser, clients_foldl_push]
    rw [List.foldl_cons, ih, hconnections, dispatcher_toUser, List.flatMap_cons,
      List.foldl_append]

end Delivery

/-! ## The register -/

/-- Every connection is on the register for its owner only, and once. -/
structure IsOwnedBy (d : Dispatcher) (owners : List UserId) : Prop where
  length : owners.length = d.mailboxes.length
  owner : ∀ entry ∈ d.clients, ∀ c ∈ entry.2, owners[c.index]? = some entry.1
  nodup : ∀ entry ∈ d.clients, entry.2.Nodup

theorem mem_clients_of_mem_connections (h : c ∈ d.connections user) :
    ∃ cs, (user, cs) ∈ d.clients ∧ d.connections user = cs := by
  unfold connections at h ⊢
  cases hlookup : d.clients.lookup user with
  | none => simp [hlookup] at h
  | some cs =>
    obtain ⟨before, after, hclients, -⟩ := List.lookup_eq_some_iff.1 hlookup
    exact ⟨cs, by simp [hclients], rfl⟩

namespace IsOwnedBy

variable {owners : List UserId}

theorem of_clients (h : d.IsOwnedBy owners) (hlength : d'.mailboxes.length = d.mailboxes.length)
    (hclients : d'.clients = d.clients) : d'.IsOwnedBy owners := by
  refine ⟨h.length.trans hlength.symm, ?_, ?_⟩
  · rw [hclients]
    exact h.owner
  · rw [hclients]
    exact h.nodup

theorem owner_eq (h : d.IsOwnedBy owners) (hc : c ∈ d.connections user) :
    owners[c.index]? = some user := by
  obtain ⟨cs, hentry, hcs⟩ := mem_clients_of_mem_connections hc
  exact h.owner _ hentry c (hcs ▸ hc)

theorem nodup_connections (h : d.IsOwnedBy owners) (user : UserId) :
    (d.connections user).Nodup := by
  cases hconnections : d.connections user with
  | nil => exact List.nodup_nil
  | cons c cs =>
    have hc : c ∈ d.connections user := by simp [hconnections]
    obtain ⟨entry, hentry, heq⟩ := mem_clients_of_mem_connections hc
    rw [← hconnections, heq]
    exact h.nodup _ hentry

/-- The connections of different users are different. -/
theorem nodup_flatMap (h : d.IsOwnedBy owners) {audience : List UserId}
    (haudience : audience.Nodup) : (audience.flatMap d.connections).Nodup := by
  rw [List.nodup_flatMap]
  refine ⟨fun user _ ↦ h.nodup_connections user, ?_⟩
  refine haudience.imp ?_
  intro user other hne c hc hother
  have howner := (h.owner_eq hc).symm.trans (h.owner_eq hother)
  exact hne (Option.some.inj howner)

theorem mem_addClient {clients : List (UserId × List ConnectionId)}
    {entry : UserId × List ConnectionId} (h : entry ∈ addClient user c clients) :
    entry ∈ clients ∨ entry = (user, [c]) ∨
      ∃ cs, (user, cs) ∈ clients ∧ entry = (user, cs ++ [c]) := by
  induction clients with
  | nil => exact .inr (.inl (List.mem_singleton.1 h))
  | cons first clients ih =>
    obtain ⟨u, cs⟩ := first
    unfold addClient at h
    split at h
    case isTrue hsame =>
      subst hsame
      rcases List.mem_cons.1 h with rfl | hrest
      · exact .inr (.inr ⟨cs, by simp, rfl⟩)
      · exact .inl (by simp [hrest])
    case isFalse =>
      rcases List.mem_cons.1 h with rfl | hrest
      · exact .inl (by simp)
      · rcases ih hrest with hold | hnew | ⟨cs', hcs', hentry⟩
        · exact .inl (by simp [hold])
        · exact .inr (.inl hnew)
        · exact .inr (.inr ⟨cs', by simp [hcs'], hentry⟩)

/-- A new connection has its user for its owner. -/
theorem register (h : d.IsOwnedBy owners) (user : UserId) :
    (d.register user).2.IsOwnedBy (owners ++ [user]) := by
  have hold : ∀ entry ∈ d.clients, ∀ c ∈ entry.2,
      (owners ++ [user])[c.index]? = some entry.1 ∧ c.index ≠ d.mailboxes.length := by
    intro entry hentry c hc
    have howner := h.owner entry hentry c hc
    have hlt : c.index < owners.length := (List.getElem?_eq_some_iff.1 howner).1
    exact ⟨by rw [List.getElem?_append_left hlt, howner], by rw [← h.length]; omega⟩
  have hnew : (owners ++ [user])[d.mailboxes.length]? = some user := by
    rw [← h.length, List.getElem?_concat_length]
  refine ⟨by simp [Dispatcher.register, h.length], ?_, ?_⟩
  · intro entry hentry c hc
    rcases mem_addClient hentry with hentry | rfl | ⟨cs, hcs, rfl⟩
    · exact (hold entry hentry c hc).1
    · rw [List.mem_singleton.1 hc]
      exact hnew
    · rcases List.mem_append.1 hc with hc | hc
      · exact (hold _ hcs c hc).1
      · rw [List.mem_singleton.1 hc]
        exact hnew
  · intro entry hentry
    rcases mem_addClient hentry with hentry | rfl | ⟨cs, hcs, rfl⟩
    · exact h.nodup entry hentry
    · exact List.nodup_singleton _
    · rw [List.nodup_append]
      refine ⟨h.nodup _ hcs, List.nodup_singleton _, ?_⟩
      intro a ha b hb heq
      rw [List.mem_singleton.1 hb] at heq
      exact (hold _ hcs a ha).2 (congrArg ConnectionId.index heq)

/-- What is left on the register was there. -/
theorem unregister (h : d.IsOwnedBy owners) (user : UserId) (c : ConnectionId) :
    (d.unregister user c).IsOwnedBy owners := by
  have hsub : ∀ entry ∈ (d.unregister user c).clients, ∃ cs, (entry.1, cs) ∈ d.clients ∧
      entry.2.Sublist cs := by
    intro entry hentry
    obtain ⟨⟨u, cs⟩, hmem, hkept⟩ := List.mem_filterMap.1 hentry
    simp only at hkept
    split at hkept
    · split at hkept
      · cases hkept
      · cases hkept
        exact ⟨cs, hmem, List.filter_sublist⟩
    · cases hkept
      exact ⟨cs, hmem, List.Sublist.refl cs⟩
  refine ⟨h.length, ?_, ?_⟩
  · intro entry hentry a ha
    obtain ⟨cs, hmem, hsublist⟩ := hsub entry hentry
    exact h.owner _ hmem a (hsublist.subset ha)
  · intro entry hentry
    obtain ⟨cs, hmem, hsublist⟩ := hsub entry hentry
    exact (h.nodup _ hmem).sublist hsublist

theorem prune (h : d.IsOwnedBy owners) (dead : List (UserId × ConnectionId)) :
    (d.prune dead).IsOwnedBy owners := by
  induction dead generalizing d with
  | nil => exact h
  | cons first dead ih => exact ih (h.unregister first.1 first.2)

end IsOwnedBy

/-! ## Fan-outs -/

theorem mailboxes_prune (dead : List (UserId × ConnectionId)) :
    (d.prune dead).mailboxes = d.mailboxes := by
  induction dead generalizing d with
  | nil => rfl
  | cons first dead ih => exact ih

theorem length_push : (push event d c).mailboxes.length = d.mailboxes.length := by
  unfold push
  split
  · exact List.length_modify ..
  · rfl

theorem length_foldl_push (cs : List ConnectionId) :
    (cs.foldl (push event) d).mailboxes.length = d.mailboxes.length := by
  induction cs generalizing d with
  | nil => rfl
  | cons c cs ih => rw [List.foldl_cons, ih, length_push]

theorem dispatcher_deliver (d : Dispatcher) (audience : List UserId) (event : Event) :
    (d.deliver audience event).dispatcher =
      (audience.flatMap d.connections).foldl (push event) d :=
  Delivery.dispatcher_foldl_toUser _ audience

theorem IsOwnedBy.fanOut {owners : List UserId} (h : d.IsOwnedBy owners) (audience : List UserId)
    (event : Event) : (d.fanOut audience event).2.IsOwnedBy owners := by
  apply IsOwnedBy.prune
  rw [dispatcher_deliver]
  exact h.of_clients (length_foldl_push _) (clients_foldl_push _)

/-- Whether a connection is open and on the register for a user of the audience. -/
def Reaches (d : Dispatcher) (audience : List UserId) (c : ConnectionId) : Prop :=
  (∃ user ∈ audience, c ∈ d.connections user) ∧ d.isOpen c = true

instance (d : Dispatcher) (audience : List UserId) (c : ConnectionId) :
    Decidable (d.Reaches audience c) := inferInstanceAs (Decidable (_ ∧ _))

/-- The first phase of a fan-out puts its event once into every queue that it reaches. -/
theorem queue_deliver {owners : List UserId} (h : d.IsOwnedBy owners) {audience : List UserId}
    (haudience : audience.Nodup) (event : Event) (c : ConnectionId) :
    (d.deliver audience event).dispatcher.queue c =
      d.queue c ++ if d.Reaches audience c then [event] else [] := by
  have hreaches : c ∈ audience.flatMap d.connections ∧ d.isOpen c = true ↔
      d.Reaches audience c := by
    rw [List.mem_flatMap]
    rfl
  rw [dispatcher_deliver, queue_foldl_push (h.nodup_flatMap haudience),
    if_congr hreaches rfl rfl]

/-- A fan-out puts its event once into every queue that it reaches, and into no other. -/
theorem queue_fanOut {owners : List UserId} (h : d.IsOwnedBy owners) {audience : List UserId}
    (haudience : audience.Nodup) (event : Event) (c : ConnectionId) :
    (d.fanOut audience event).2.queue c =
      d.queue c ++ if d.Reaches audience c then [event] else [] := by
  have hpruned : (d.fanOut audience event).2.queue c =
      (d.deliver audience event).dispatcher.queue c := by
    simp only [queue, mailbox?, fanOut, mailboxes_prune]
  rw [hpruned, queue_deliver h haudience]

end Dispatcher

end WhisperChat
