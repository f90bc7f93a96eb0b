import WhisperChat.Gateway.Connection
import WhisperChat.Gateway.Pipe

/-!
# Links

A link is a connection together with the pipes between it and its client.  It gives the connection
its signals: what the client sends as soon as it is there, the end of a write when the pipe has
taken the frame, a tick when it is due, and else the mailbox.  Pings of a client are answered by the
link.
-/

namespace WhisperChat

/-- A connection and what is under way between it and its client. -/
structure Link where
  connection : Connection
  toClient : Pipe ServerFrame
  toServer : Pipe ClientFrame
  /-- The second at which the heartbeat ticks next. -/
  nextTick : Nat := 0
  /-- Whether the client has sent its last frame. -/
  clientClosed : Bool := false
  /-- Whether the client is gone. -/
  cut : Bool := false

namespace Link

def defaultCapacity : Nat := 1048576

def isOver (l : Link) : Bool := l.connection.stage = .over

/-- The link after a reaction of its connection.  When the connection is over, what it had not
written is lost. -/
def afterReaction (l : Link) (r : Connection.Reaction) : Link :=
  let toClient := match r.frame with
    | some frame => l.toClient.write frame frame.size
    | none => l.toClient
  { l with
    connection := r.connection
    toClient := if r.connection.stage = .over then toClient.sever else toClient }

def start (user : UserId) (capacity : Nat) (d : Dispatcher) : Link × Dispatcher :=
  let r := Connection.start user d
  let link : Link :=
    { connection := r.connection, toClient := { capacity }, toServer := { capacity } }
  (link.afterReaction r, r.dispatcher)

/-! ## What the connection does -/

def signal? (l : Link) (d : Dispatcher) (signal : Signal) : Option (Link × Dispatcher) :=
  (l.connection.react? d signal).map fun r ↦ (l.afterReaction r, r.dispatcher)

/-- The link when the connection gets a frame of the client. -/
def inbound? (l : Link) (d : Dispatcher) (frame : ClientFrame) : Option (Link × Dispatcher) :=
  if !frame.isSound then l.signal? d .inboundEnd
  else
    match frame with
    | .ping payload =>
      let answer : ServerFrame := .pong payload
      { l with toClient := l.toClient.write answer answer.size }.signal? d (.inbound frame)
    | frame => l.signal? d (.inbound frame)

/-- What happens next at the given second, if anything does. -/
def move? (now : Nat) (l : Link) (d : Dispatcher) : Option (Link × Dispatcher) :=
  match l.connection.stage with
  | .over => none
  | .stopped => l.signal? d .leave
  | .relaying _ _ .leaving => l.signal? d .stop
  | .relaying _ _ .left => l.signal? d .stop
  | .greeting =>
    if l.cut then l.signal? d .writeFailed
    else if l.toClient.isFlushed then
      { l with nextTick := now + Heartbeat.interval }.signal? d .written
    else none
  | .relaying _ writing .listening =>
    match l.toServer.read? with
    | some (frame, toServer) => { l with toServer }.inbound? d frame
    | none =>
      if l.cut then l.signal? d .inboundEnd
      else if writing then
        if l.toClient.isFlushed then l.signal? d .written else none
      else if l.nextTick ≤ now then
        { l with nextTick := l.nextTick + Heartbeat.interval }.signal? d .tick
      else l.signal? d .mail

def dueTicks (now : Nat) (l : Link) : Nat :=
  if l.nextTick ≤ now then (now - l.nextTick) / Heartbeat.interval + 1 else 0

def waiting (l : Link) (d : Dispatcher) : Nat :=
  ((d.mailbox? l.connection.id).map (·.queue.length)).getD 0

/-- A bound on the moves that can follow.  A tick or an event makes two, one to start writing and
one to end it; besides there are the end of a write that is under way, and what it takes to end. -/
def effort (now : Nat) (l : Link) (d : Dispatcher) : Nat :=
  l.toServer.frames.length + 2 * (l.dueTicks now + l.waiting d) + 5

/-- Moves on until nothing happens, at most so many times. -/
def run (now : Nat) : (moves : Nat) → Link → Dispatcher → Link × Dispatcher
  | 0, l, d => (l, d)
  | moves + 1, l, d =>
    match l.move? now d with
    | none => (l, d)
    | some (l, d) => run now moves l d

def settle (now : Nat) (l : Link) (d : Dispatcher) : Link × Dispatcher :=
  run now (l.effort now d) l d

/-! ## What the client does -/

/-- Sends a frame of the client: whether it went out, and the link. -/
def send (now : Nat) (l : Link) (d : Dispatcher) (frame : ClientFrame) : Bool × Link × Dispatcher :=
  if l.clientClosed || l.isOver then (false, l, d)
  else
    let l := { l with
      toServer := l.toServer.write frame frame.size
      clientClosed := decide (frame = ClientFrame.close) }
    let (l, d) := l.settle now d
    (l.isOver || l.toServer.isFlushed, l, d)

structure Reading where
  frames : List ServerFrame
  /-- Whether the client has found the connection over. -/
  ended : Bool
  link : Link
  dispatcher : Dispatcher

/-- Reads a client's frames, at most so many of them.  The client answers pings; when it cannot, as
the connection is over, it reads no further. -/
def readAll (now : Nat) : (most : Nat) → Link → Dispatcher → Reading
  | 0, l, d => ⟨[], l.isOver, l, d⟩
  | most + 1, l, d =>
    match l.toClient.read? with
    | none => ⟨[], l.isOver, l, d⟩
    | some (frame, toClient) =>
      let l := { l with toClient }
      let answers := frame = .ping && !l.clientClosed
      if answers && l.isOver then ⟨[frame], true, l, d⟩
      else
        let pong : ClientFrame := .pong ""
        let l := if answers then { l with toServer := l.toServer.write pong pong.size } else l
        let (l, d) := l.settle now d
        let reading := readAll now most l d
        { reading with frames := frame :: reading.frames }

/-- Reads all that there is for the client. -/
def read (now : Nat) (l : Link) (d : Dispatcher) : Reading :=
  readAll now (l.toClient.frames.length + l.effort now d) l d

end Link

end WhisperChat
