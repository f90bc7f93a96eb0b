import WhisperChat.Gateway.Link

/-!
# The gateway

The gateway has the links of all clients, numbered in the order in which they were admitted, and a
clock.  After everything that is done each link moves on until nothing more happens.
-/

namespace WhisperChat

/-- The links of the gateway, and the second that its clock shows. -/
structure Gateway where
  clock : Nat := 0
  links : List Link := []

namespace Gateway

/-- The link of a number, unless its client is gone. -/
def link? (g : Gateway) (number : Nat) : Option Link := (g.links[number]?).filter (! ·.cut)

def setLink (g : Gateway) (number : Nat) (l : Link) : Gateway :=
  { g with links := g.links.set number l }

def settle (g : Gateway) (d : Dispatcher) : Gateway × Dispatcher :=
  let (links, d) := g.links.foldl
    (fun (links, d) l ↦ let (l, d) := l.settle g.clock d; (l :: links, d)) ([], d)
  ({ g with links := links.reverse }, d)

def connect (g : Gateway) (d : Dispatcher) (user : UserId) (capacity : Nat) :
    Nat × Gateway × Dispatcher :=
  let (l, d) := Link.start user capacity d
  (g.links.length, { g with links := g.links ++ [l] }, d)

def hangUp (g : Gateway) (number : Nat) : Gateway :=
  { g with links := g.links.modify number fun l ↦ { l with cut := true } }

def wait (g : Gateway) (seconds : Nat) : Gateway := { g with clock := g.clock + seconds }

/-- The client of a link sends a frame: whether it went out. -/
def send (g : Gateway) (d : Dispatcher) (number : Nat) (l : Link) (frame : ClientFrame) :
    Bool × Gateway × Dispatcher :=
  let (sent, l, d) := l.send g.clock d frame
  (sent, g.setLink number l, d)

/-- The client of a link reads what there is: the frames, and whether it found the connection over.
It goes away when it did. -/
def read (g : Gateway) (d : Dispatcher) (number : Nat) (l : Link) :
    (List ServerFrame × Bool) × Gateway × Dispatcher :=
  let r := l.read g.clock d
  ((r.frames, r.ended), g.setLink number { r.link with cut := r.ended }, r.dispatcher)

end Gateway

end WhisperChat
