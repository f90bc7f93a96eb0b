/-!
# Pipes

A pipe carries frames one way and holds so many bytes.  Who writes keeps what does not fit and waits
until the other side reads; who reads takes whole frames in order.
-/

namespace WhisperChat

/-- The frames that have been written and not been read, with their sizes, first come first. -/
structure Pipe (α : Type) where
  capacity : Nat
  frames : List (α × Nat) := []

namespace Pipe

variable {α : Type}

def totalSize : List (α × Nat) → Nat
  | [] => 0
  | (_, size) :: rest => size + totalSize rest

def load (p : Pipe α) : Nat := totalSize p.frames

/-- Whether all that was written has gone into the pipe. -/
def isFlushed (p : Pipe α) : Bool := p.load ≤ p.capacity

def write (p : Pipe α) (frame : α) (size : Nat) : Pipe α :=
  { p with frames := p.frames ++ [(frame, size)] }

def read? (p : Pipe α) : Option (α × Pipe α) :=
  match p.frames with
  | [] => none
  | (frame, _) :: frames => some (frame, { p with frames })

/-- The frames that fit, in whole, into so many bytes. -/
def fitting : (room : Nat) → List (α × Nat) → List (α × Nat)
  | _, [] => []
  | room, (frame, size) :: rest =>
    if size ≤ room then (frame, size) :: fitting (room - size) rest else []

/-- Who writes goes away: what had not gone into the pipe in whole is lost. -/
def sever (p : Pipe α) : Pipe α := { p with frames := fitting p.capacity p.frames }

@[simp]
theorem frames_write (p : Pipe α) (frame : α) (size : Nat) :
    (p.write frame size).frames = p.frames ++ [(frame, size)] := rfl

theorem totalSize_append (xs ys : List (α × Nat)) :
    totalSize (xs ++ ys) = totalSize xs + totalSize ys := by
  induction xs with
  | nil => simp [totalSize]
  | cons x xs ih => simp only [List.cons_append, totalSize, ih, Nat.add_assoc]

@[simp]
theorem load_write (p : Pipe α) (frame : α) (size : Nat) :
    (p.write frame size).load = p.load + size := by
  simp [load, totalSize_append, totalSize]

theorem fitting_prefix (room : Nat) (frames : List (α × Nat)) : fitting room frames <+: frames := by
  induction frames generalizing room with
  | nil => exact List.prefix_rfl
  | cons entry rest ih =>
    unfold fitting
    split
    · exact (List.prefix_cons_inj entry).2 (ih _)
    · exact List.nil_prefix

end Pipe

end WhisperChat
