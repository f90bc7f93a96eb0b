import WhisperChat.Wire.Event

/-!
# Frames

What goes over the connection of a client, and how many bytes it takes there.
-/

namespace WhisperChat

inductive ClientFrame where
  | text (content : String)
  | binary (content : String)
  | ping (payload : String)
  | pong (payload : String)
  | close
  deriving DecidableEq

inductive ServerFrame where
  | event (e : Event)
  | ping
  | pong (payload : String)
  deriving DecidableEq

/-- The bytes in front of a payload of the given size. -/
def headerSize (payload : Nat) : Nat :=
  if payload ≤ 125 then 2 else if payload < 0x10000 then 4 else 10

/-- The bytes of the mask that a client's frames have. -/
def maskSize : Nat := 4

def frameSize (payload : Nat) : Nat := headerSize payload + payload

namespace ClientFrame

def payloadSize : ClientFrame → Nat
  | text s | binary s | ping s | pong s => s.utf8ByteSize
  | close => 0

def size (f : ClientFrame) : Nat := maskSize + frameSize f.payloadSize

def controlLimit : Nat := 125

/-- Whether the frame keeps to the rules; one that does not ends the connection. -/
def isSound : ClientFrame → Bool
  | ping s | pong s => s.utf8ByteSize ≤ controlLimit
  | _ => true

end ClientFrame

def ServerFrame.size : ServerFrame → Nat
  | event e => frameSize e.text.utf8ByteSize
  | ping => frameSize 0
  | pong s => frameSize s.utf8ByteSize

end WhisperChat
