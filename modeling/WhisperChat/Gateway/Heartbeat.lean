/-!
# Heartbeats

At each tick of a connection's heartbeat the client is asked for a sign of life, unless it has left
two ticks in a row without one.  An answer before a tick makes up for all that was missed
(`tick?_answer`), and the missed answers stay below the tolerance (`missed_lt_of_tick?`).
-/

namespace WhisperChat

/-- What is known of a client's answers. -/
structure Heartbeat where
  /-- Whether the client has answered since the last tick. -/
  answered : Bool := true
  /-- The ticks in a row before which no answer had come. -/
  missed : Nat := 0
  deriving DecidableEq

namespace Heartbeat

def interval : Nat := 15

/-- The number of missed answers at which a client is given up. -/
def tolerance : Nat := 2

def answer (h : Heartbeat) : Heartbeat := { h with answered := true }

/-- The heartbeat after a tick at which the client is asked again; nothing if it is given up. -/
def tick? (h : Heartbeat) : Option Heartbeat :=
  if h.answered then some { answered := false, missed := 0 }
  else if h.missed + 1 < tolerance then some { answered := false, missed := h.missed + 1 }
  else none

@[simp]
theorem tick?_answer (h : Heartbeat) : h.answer.tick? = some { answered := false, missed := 0 } :=
  rfl

theorem missed_lt_of_tick? {h h' : Heartbeat} (ht : h.tick? = some h') : h'.missed < tolerance := by
  unfold tick? at ht
  split at ht
  · cases ht
    decide
  · split at ht
    · cases ht
      assumption
    · cases ht

end Heartbeat

end WhisperChat
