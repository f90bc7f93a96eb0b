import WhisperChat.Store.Row

/-!
# The table of messages

The rows are kept by ascending identifier, each identifier once.  A window of a channel is a segment
of its rows, newest first below a bound or oldest first from a bound on.
-/

namespace WhisperChat

/-- A direction and a bound of a walk through a channel's history. -/
inductive Scan where
  /-- Newest first, below the bound; without a bound from the newest. -/
  | before (bound : Option MessageId)
  /-- Oldest first, from the bound on. -/
  | atOrAfter (bound : MessageId)
  deriving DecidableEq

namespace Scan

/-- The bound below which a walk backwards stays: without one, the greatest identifier. -/
def upperBound (bound : Option MessageId) : MessageId := bound.getD (.greatest .message)

def covers (scan : Scan) (id : MessageId) : Bool :=
  match scan with
  | before bound => id < upperBound bound
  | atOrAfter bound => bound ≤ id

/-- The number of identifiers that the walk can come past. -/
def width : Scan → Nat
  | before bound => ((upperBound bound).val + 0x8000000000000000).toNat
  | atOrAfter bound => (0x8000000000000000 - bound.val).toNat

/-- The walk that goes on after the given identifier.  Upwards it begins with the next identifier,
which the greatest one does not have. -/
def continueAfter (last : MessageId) : Scan → Option Scan
  | before _ => some (before (some last))
  | atOrAfter _ => last.next?.map atOrAfter

end Scan

structure MessageTable where
  rows : List MessageRow
  ascending : rows.Pairwise fun a b ↦ a.id < b.id

namespace MessageTable

def empty : MessageTable := ⟨[], .nil⟩

def find? (t : MessageTable) (id : MessageId) : Option MessageRow :=
  t.rows.find? fun row ↦ row.id = id

def contains (t : MessageTable) (id : MessageId) : Bool := t.rows.any fun row ↦ row.id = id

/-- The identifier of the next message: one more than the greatest so far, and positive. -/
def nextId? (t : MessageTable) : Option MessageId :=
  Ident.next? ((t.rows.map MessageRow.id).foldl (fun a b ↦ if a < b then b else a) (.zero .message))

/-- Puts a row at its place in ascending rows; a row that is there stays. -/
def place (row : MessageRow) : List MessageRow → List MessageRow
  | [] => [row]
  | r :: rest =>
    if row.id < r.id then row :: r :: rest
    else if r.id < row.id then r :: place row rest
    else r :: rest

theorem mem_place {row x : MessageRow} {rows : List MessageRow} (h : x ∈ place row rows) :
    x = row ∨ x ∈ rows := by
  induction rows with
  | nil => simpa [place] using h
  | cons r rest ih =>
    unfold place at h
    split at h
    · simpa using h
    · split at h
      · rcases List.mem_cons.1 h with rfl | h
        · simp
        · rcases ih h with h | h <;> simp [h]
      · exact .inr h

theorem pairwise_place {row : MessageRow} {rows : List MessageRow}
    (h : rows.Pairwise fun a b ↦ a.id < b.id) :
    (place row rows).Pairwise fun a b ↦ a.id < b.id := by
  induction rows with
  | nil => simp [place]
  | cons r rest ih =>
    have hr := List.pairwise_cons.1 h
    unfold place
    split
    · rename_i hlt
      refine List.pairwise_cons.2 ⟨fun x hx ↦ ?_, h⟩
      rcases List.mem_cons.1 hx with rfl | hx
      · exact hlt
      · exact Ident.lt_trans hlt (hr.1 x hx)
    · split
      · rename_i hgt
        refine List.pairwise_cons.2 ⟨fun x hx ↦ ?_, ih hr.2⟩
        rcases mem_place hx with rfl | hx
        · exact hgt
        · exact hr.1 x hx
      · exact h

/-- The table with one more row, unless its identifier is taken. -/
def insert (t : MessageTable) (row : MessageRow) : MessageTable :=
  ⟨place row t.rows, pairwise_place t.ascending⟩

/-- The rows of a channel that a walk comes past, in its order. -/
def walk (t : MessageTable) (channel : ChannelId) (scan : Scan) : List MessageRow :=
  let passed := t.rows.filter fun row ↦ row.channel = some channel && scan.covers row.id
  match scan with
  | .before _ => passed.reverse
  | .atOrAfter _ => passed

def window (t : MessageTable) (channel : ChannelId) (scan : Scan) (limit : Nat) : List MessageRow :=
  (t.walk channel scan).take limit

end MessageTable

end WhisperChat
