import WhisperChat.Error
import WhisperChat.Store.Call

/-!
# Pieces of work

A piece of work is a program whose only effects are calls on the store: it is done, it fails, or it
makes a call and goes on with the answer.  Being data, it can be run on any database, with any of
the store's methods out of order, and its calls can be listed.
-/

namespace WhisperChat

/-- How a piece of work ends without a result. -/
inductive Failure where
  | error (cause : WhisperError)
  /-- It asks for more memory than there is. -/
  | outOfMemory
  /-- It counts on from the greatest identifier. -/
  | overflow
  deriving DecidableEq

/-- Whether the work broke down, rather than having been refused. -/
def Failure.isBreakdown : Failure → Bool
  | error _ => false
  | outOfMemory | overflow => true

/-- A program whose only effects are calls on the store. -/
inductive Work (α : Type) where
  | done (result : α)
  | fail (failure : Failure)
  | call (call : Call) (continuation : call.Result → Work α)

namespace Work

variable {α β : Type}

def bind : Work α → (α → Work β) → Work β
  | done result, next => next result
  | fail failure, _ => fail failure
  | call c continuation, next => call c fun answer ↦ (continuation answer).bind next

instance : Monad Work where
  pure := done
  bind := bind

def ask (c : Call) : Work c.Result := call c done

def throw (cause : WhisperError) : Work α := fail (.error cause)

theorem bind_done (w : Work α) : w.bind done = w := by
  induction w with
  | done result => rfl
  | fail failure => rfl
  | call c continuation ih => simp only [bind, ih]

theorem bind_bind {γ : Type} (w : Work α) (f : α → Work β) (g : β → Work γ) :
    (w.bind f).bind g = w.bind fun a ↦ (f a).bind g := by
  induction w with
  | done result => rfl
  | fail failure => rfl
  | call c continuation ih => simp only [bind, ih]

instance : LawfulMonad Work := LawfulMonad.mk' Work bind_done (fun _ _ ↦ rfl) bind_bind

/-! ## Running -/

structure Outcome (α : Type) where
  answer : Except Failure α
  database : Database
  /-- The calls that were made, a failing one included. -/
  trace : List Call

/-- Runs a piece of work on a database.  The methods in `faults` fail when they are called. -/
def run (faults : List Method) : Work α → Database → Outcome α
  | done result, db => ⟨.ok result, db, []⟩
  | fail failure, db => ⟨.error failure, db, []⟩
  | call c continuation, db =>
    if faults.contains c.method then ⟨.error (.error (.store (.faulty c.method))), db, [c]⟩
    else
      match c.answer db with
      | (.error cause, db) => ⟨.error (.error (.store cause)), db, [c]⟩
      | (.ok result, db) =>
        let rest := (continuation result).run faults db
        { rest with trace := c :: rest.trace }

end Work

end WhisperChat
