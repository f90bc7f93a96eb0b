import WhisperChat.Store.Work

/-!
# The database behind its lock

All use of the database goes through one lock.  A piece of work that breaks down while it holds the
lock leaves it poisoned, and from then on every use fails.
-/

namespace WhisperChat

/-- The database and the state of its lock. -/
structure SharedDatabase where
  contents : Database := {}
  poisoned : Bool := false

namespace SharedDatabase

variable {α : Type}

/-- How a use of the shared database went. -/
structure Outcome (α : Type) where
  answer : Except Failure α
  shared : SharedDatabase
  trace : List Call := []

/-- Uses the database unless the lock is poisoned; a use that breaks down poisons it. -/
def locked (s : SharedDatabase) (use : Database → Work.Outcome α) : Outcome α :=
  if s.poisoned then ⟨.error (.error (.store .poisoned)), s, []⟩
  else
    let outcome := use s.contents
    let poisoned := match outcome.answer with
      | .error failure => failure.isBreakdown
      | .ok _ => false
    ⟨outcome.answer, ⟨outcome.database, poisoned⟩, outcome.trace⟩

def read (s : SharedDatabase) (faults : List Method) (w : Work α) : Outcome α :=
  s.locked (w.run faults)

/-- Uses the database as a whole or not at all: when the use fails, whatever it has written before
is taken back. -/
def transact (s : SharedDatabase) (use : Database → Work.Outcome α) : Outcome α :=
  s.locked fun db ↦
    let outcome := use db
    match outcome.answer with
    | .ok _ => outcome
    | .error _ => { outcome with database := db }

/-- Runs a piece of work as a whole or not at all. -/
def atomic (s : SharedDatabase) (faults : List Method) (w : Work α) : Outcome α :=
  s.transact (w.run faults)

def execute (s : SharedDatabase) (statements : Database → Except StoreError α × Database) :
    Except StoreError α × SharedDatabase :=
  if s.poisoned then (.error .poisoned, s)
  else
    let (answer, contents) := statements s.contents
    (answer, { s with contents })

/-- Executes one statement on the database, which takes effect as a whole or not at all. -/
def statement (s : SharedDatabase) (f : Database → Except StoreError (α × Database)) :
    Except StoreError α × SharedDatabase :=
  s.execute fun db ↦
    match f db with
    | .error cause => (.error cause, db)
    | .ok (answer, db) => (.ok answer, db)

end SharedDatabase

end WhisperChat
