import WhisperChat.Dispatcher
import WhisperChat.Gateway.Frame
import WhisperChat.Gateway.Heartbeat

/-!
# Connections

A connection greets its client, relays the events that are put into its mailbox, and asks for signs
of life, until the client goes away, gives no sign, or the connection is taken off the register.  It
is described by the signals that it can receive and what each makes of it, so that any order of
signals is a list of them.  Writing a frame takes time: until it is written, no event is taken and
no tick counts, but what the client sends is looked at all the same.  Ending takes time as well: the
relay stops, the connection leaves the register, and others may use the register in between.
-/

namespace WhisperChat

/-- What a connection that relays makes of its client. -/
inductive Attention where
  /-- The client's frames are looked at. -/
  | listening
  /-- The client's frames have ended, so that the connection is to leave the register. -/
  | leaving
  /-- The connection has left the register, and what is left of the relay is to be stopped. -/
  | left
  deriving DecidableEq

/-- Where a connection stands. -/
inductive Stage where
  /-- The greeting is being written. -/
  | greeting
  /-- Events are relayed; the flag says whether a frame is being written. -/
  | relaying (beat : Heartbeat) (writing : Bool) (attention : Attention)
  /-- Nothing is relayed any more, and the connection is to leave the register. -/
  | stopped
  | over
  deriving DecidableEq

structure Connection where
  user : UserId
  id : ConnectionId
  stage : Stage := .greeting
  deriving DecidableEq

inductive Signal where
  /-- The frame that was being written has been written. -/
  | written
  | writeFailed
  /-- A tick of the heartbeat. -/
  | tick
  /-- The connection looks into its mailbox. -/
  | mail
  | inbound (frame : ClientFrame)
  /-- The client's frames have ended, or what it sends is no frame. -/
  | inboundEnd
  /-- The relay is stopped because the client's frames have ended. -/
  | stop
  /-- The connection leaves the register. -/
  | leave
  deriving DecidableEq

/-- Whether the connection has left the register, so that all that can follow is the end of its
relay. -/
def Stage.hasLeft : Stage → Bool
  | .over | .relaying _ _ .left => true
  | _ => false

namespace Connection

/-- What a signal makes of a connection and of the dispatcher, and the frame that the connection
starts to write. -/
structure Reaction where
  connection : Connection
  dispatcher : Dispatcher
  frame : Option ServerFrame := none

/-- Registers a connection of the user, which starts to write its greeting. -/
def start (user : UserId) (d : Dispatcher) : Reaction :=
  let (id, dispatcher) := d.register user
  { connection := { user, id }, dispatcher, frame := some (.event (.ready user)) }

def goOn (c : Connection) (d : Dispatcher) (stage : Stage) (frame : Option ServerFrame) :
    Reaction :=
  { connection := { c with stage }, dispatcher := d, frame }

def stop (c : Connection) (d : Dispatcher) (attention : Attention) : Reaction :=
  c.goOn (d.closeMailbox c.id) (if attention = .left then .over else .stopped) none

/-- The connection leaves the register while its relay is still to be stopped. -/
def leave (c : Connection) (d : Dispatcher) (beat : Heartbeat) (writing : Bool) : Reaction :=
  c.goOn (d.unregister c.user c.id) (.relaying beat writing .left) none

/-- The connection is over: it is taken off the register, and nobody takes its events. -/
def finish (c : Connection) (d : Dispatcher) : Reaction :=
  c.goOn ((d.unregister c.user c.id).closeMailbox c.id) .over none

def receive (c : Connection) (d : Dispatcher) (beat : Heartbeat) (writing : Bool) :
    ClientFrame → Reaction
  | .pong _ => c.goOn d (.relaying beat.answer writing .listening) none
  | .close => c.goOn d (.relaying beat writing .leaving) none
  | _ => c.goOn d (.relaying beat writing .listening) none

/-- What a signal makes of a connection; nothing if the signal cannot come at this stage. -/
def react? (c : Connection) (d : Dispatcher) (signal : Signal) : Option Reaction :=
  match c.stage, signal with
  | .greeting, .written => some (c.goOn d (.relaying {} false .listening) none)
  | .greeting, .writeFailed => some (c.goOn d .stopped none)
  | .relaying beat true attention, .written => some (c.goOn d (.relaying beat false attention) none)
  | .relaying _ true attention, .writeFailed => some (c.stop d attention)
  | .relaying beat false attention, .tick =>
    match beat.tick? with
    | some beat => some (c.goOn d (.relaying beat true attention) (some .ping))
    | none => some (c.stop d attention)
  | .relaying beat false attention, .mail =>
    match d.takeFirst? c.id with
    | some (event, d) => some (c.goOn d (.relaying beat true attention) (some (.event event)))
    | none => if d.isRegistered c.id then none else some (c.stop d attention)
  | .relaying beat writing .listening, .inbound frame => some (c.receive d beat writing frame)
  | .relaying beat writing .listening, .inboundEnd =>
    some (c.goOn d (.relaying beat writing .leaving) none)
  | .relaying beat writing .leaving, .leave => some (c.leave d beat writing)
  | .relaying _ _ .leaving, .stop => some (c.stop d .leaving)
  | .relaying _ _ .left, .stop => some (c.stop d .left)
  | .stopped, .leave => some (c.finish d)
  | _, _ => none

end Connection

end WhisperChat
