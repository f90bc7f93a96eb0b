import WhisperChat.Message

/-!
# The dispatcher

The dispatcher knows which connections each user has, and puts events into their mailboxes.  A
fan-out has two phases: one step that puts the event into the open mailboxes of the audience and
notes the closed ones, and one step for each noted connection that takes it off the register.
-/

namespace WhisperChat

/-- A connection, numbered in the order of registration. -/
structure ConnectionId where
  index : Nat
  deriving DecidableEq

/-- What waits for a connection. -/
structure Mailbox where
  /-- The events not yet taken, first come first. -/
  queue : List Event := []
  /-- Whether somebody is there to take them. -/
  isOpen : Bool := true

structure FanOutReport where
  /-- Mailboxes that the event was put into. -/
  delivered : Nat := 0
  /-- Users of the audience without any connection. -/
  offline : Nat := 0
  /-- Connections that were found closed. -/
  failed : Nat := 0
  deriving DecidableEq

/-- The register of connections, and the mailboxes of all connections there ever were. -/
structure Dispatcher where
  /-- The connections of each user that has any. -/
  clients : List (UserId × List ConnectionId) := []
  mailboxes : List Mailbox := []

namespace Dispatcher

def connections (d : Dispatcher) (user : UserId) : List ConnectionId :=
  (d.clients.lookup user).getD []

def connectionCount (d : Dispatcher) (user : UserId) : Nat := (d.connections user).length

def mailbox? (d : Dispatcher) (c : ConnectionId) : Option Mailbox := d.mailboxes[c.index]?

def isRegistered (d : Dispatcher) (c : ConnectionId) : Bool :=
  d.clients.any fun entry ↦ entry.2.contains c

/-- Whether events can be put into the mailbox of the connection. -/
def isOpen (d : Dispatcher) (c : ConnectionId) : Bool := (d.mailbox? c).any Mailbox.isOpen

def modifyMailbox (d : Dispatcher) (c : ConnectionId) (f : Mailbox → Mailbox) : Dispatcher :=
  { d with mailboxes := d.mailboxes.modify c.index f }

/-! ## Registering -/

def addClient (user : UserId) (c : ConnectionId) :
    List (UserId × List ConnectionId) → List (UserId × List ConnectionId)
  | [] => [(user, [c])]
  | (u, cs) :: rest => if u = user then (u, cs ++ [c]) :: rest else (u, cs) :: addClient user c rest

def register (d : Dispatcher) (user : UserId) : ConnectionId × Dispatcher :=
  let c : ConnectionId := ⟨d.mailboxes.length⟩
  (c, { clients := addClient user c d.clients, mailboxes := d.mailboxes ++ [{}] })

/-- Takes a connection of the user off the register; a user without connections has no entry. -/
def unregister (d : Dispatcher) (user : UserId) (c : ConnectionId) : Dispatcher :=
  let clients := d.clients.filterMap fun (u, cs) ↦
    if u = user then
      match cs.filter (· ≠ c) with
      | [] => none
      | cs => some (u, cs)
    else some (u, cs)
  { d with clients }

/-- Nobody takes the events of the connection any more, and those that wait are gone. -/
def closeMailbox (d : Dispatcher) (c : ConnectionId) : Dispatcher :=
  d.modifyMailbox c fun _ ↦ { queue := [], isOpen := false }

def takeAll (d : Dispatcher) (c : ConnectionId) : List Event × Dispatcher :=
  (((d.mailbox? c).map Mailbox.queue).getD [], d.modifyMailbox c fun m ↦ { m with queue := [] })

def takeFirst? (d : Dispatcher) (c : ConnectionId) : Option (Event × Dispatcher) :=
  match ((d.mailbox? c).map Mailbox.queue).getD [] with
  | [] => none
  | event :: queue => some (event, d.modifyMailbox c fun m ↦ { m with queue })

/-! ## Fan-out -/

/-- What the first phase of a fan-out leaves: the dispatcher, the report, and the connections that
were found closed. -/
structure Delivery where
  dispatcher : Dispatcher
  report : FanOutReport := {}
  dead : List (UserId × ConnectionId) := []

/-- Puts the event into the mailbox of one connection, or notes that it is closed. -/
def Delivery.toConnection (event : Event) (user : UserId) (d : Delivery) (c : ConnectionId) :
    Delivery :=
  if d.dispatcher.isOpen c then
    { d with
      dispatcher := d.dispatcher.modifyMailbox c fun m ↦ { m with queue := m.queue ++ [event] }
      report := { d.report with delivered := d.report.delivered + 1 } }
  else
    { d with
      report := { d.report with failed := d.report.failed + 1 }
      dead := d.dead ++ [(user, c)] }

/-- Puts the event into the mailboxes of one user. -/
def Delivery.toUser (event : Event) (d : Delivery) (user : UserId) : Delivery :=
  match d.dispatcher.connections user with
  | [] => { d with report := { d.report with offline := d.report.offline + 1 } }
  | cs => cs.foldl (toConnection event user) d

/-- The first phase of a fan-out. -/
def deliver (d : Dispatcher) (audience : List UserId) (event : Event) : Delivery :=
  audience.foldl (Delivery.toUser event) { dispatcher := d }

/-- The second phase of a fan-out: takes connections off the register, one by one. -/
def prune (d : Dispatcher) (dead : List (UserId × ConnectionId)) : Dispatcher :=
  dead.foldl (fun d (user, c) ↦ d.unregister user c) d

/-- Puts the event into every open mailbox of every user of the audience, once for each time that
the user is listed, and takes the closed connections off the register. -/
def fanOut (d : Dispatcher) (audience : List UserId) (event : Event) : FanOutReport × Dispatcher :=
  let delivery := d.deliver audience event
  (delivery.report, delivery.dispatcher.prune delivery.dead)

end Dispatcher

end WhisperChat
