import Warden.Database.Row
import Warden.Database.Statement

/-! # Dialogues with the database

A **`Dialogue`** is a computation that asks things of the database: a tree that branches on what the
database replies. Nothing is assumed of the replies. **`Dialogue.run`** leads a dialogue with a
**`Database`**, any function that replies to a command after the commands before it, and gives the
commands in order with the outcome; one dialogue after another is led by leading both in turn
(`Dialogue.run_bind`).

**`Dialogue.transaction`** is a dialogue on a connection of its own, as one transaction: it is
committed after the last statement, and rolled back if anything fails.
-/

namespace Warden

/-- What is asked of the database and of the pool of its connections. -/
inductive Command where
  /-- Open the pool. -/
  | openPool
  /-- Close the pool. -/
  | closePool
  /-- Take a connection. -/
  | connect
  /-- Execute a statement. -/
  | execute (s : Statement)
  /-- Make the changes last. -/
  | commit
  /-- Take the changes back. -/
  | rollback
  /-- Give the connection back. -/
  | release

/-- What the database replies: rows, or nothing if it failed. -/
abbrev Reply := Option (List Row)

/-- A computation that asks things of the database. -/
inductive Dialogue (α : Type) where
  /-- The computation has ended. -/
  | done (result : Outcome α)
  /-- The computation gives a command and goes on with the reply. -/
  | step (c : Command) (next : Reply → Dialogue α)

namespace Dialogue

variable {α β : Type}

/-! ## Composition -/

/-- One dialogue after another; the second one is left out if the first one fails. -/
def bind (f : α → Dialogue β) : Dialogue α → Dialogue β
  | done (.ok a) => f a
  | done (.error e) => done (.error e)
  | step c next => step c fun reply => bind f (next reply)

instance : Monad Dialogue where
  pure a := done (.ok a)
  bind d f := bind f d

instance : MonadLift (Except Failure) Dialogue where
  monadLift := done

theorem bind_assoc {γ : Type} (d : Dialogue α) (f : α → Dialogue β) (g : β → Dialogue γ) :
    bind g (bind f d) = bind (fun a => bind g (f a)) d := by
  induction d with
  | done result => cases result <;> rfl
  | step c next ih =>
    simp only [bind]
    exact congrArg (step c) (funext ih)

/-- The dialogue, with its failure as a result. -/
def attempt : Dialogue α → Dialogue (Outcome α)
  | done result => done (.ok result)
  | step c next => step c fun reply => attempt (next reply)

/-- A command whose reply is not looked at. -/
def tell (c : Command) : Dialogue Unit :=
  step c fun _ => done (.ok ())

/-- A command, and the rows it is replied with. -/
def ask (c : Command) : Dialogue (List Row) :=
  step c fun
    | some rows => done (.ok rows)
    | none => done (breakOff .storeFailure)

/-- The rows of a statement. -/
def execute (s : Statement) : Dialogue (List Row) :=
  ask (.execute s)

/-! ## Transactions -/

/-- Ends a transaction by what came of it. A failure is handled twice, each time by a rollback. If
the first one fails, that failure takes the place of the one that it handles; if the second one
does, the connection is not given back. -/
def finish : Outcome α → Dialogue α
  | .ok a => do
    tell .release
    return a
  | .error e => do
    let undone ← (ask .rollback).attempt
    let _ ← ask .rollback
    tell .release
    done (undone >>= fun _ => .error e)

/-- The dialogue as one transaction on a connection of its own. -/
def transaction (body : Dialogue α) : Dialogue α := do
  let _ ← ask .connect
  let committed : Dialogue α := do
    let a ← body
    let _ ← ask .commit
    return a
  finish (← committed.attempt)

end Dialogue

/-! ## Leading a dialogue -/

/-- What is replied to a command after those before it, the latest first. -/
abbrev Database := List Command → Command → Reply

/-- Leads a dialogue with a database after the given commands: all commands, the latest first, and
the outcome. -/
def Dialogue.run {α : Type} (db : Database) : Dialogue α → List Command → List Command × Outcome α
  | .done result, past => (past, result)
  | .step c next, past => run db (next (db past c)) (c :: past)

/-- One dialogue after another is led by leading the first and, unless it fails, the second. -/
theorem Dialogue.run_bind {α β : Type} (db : Database) (f : α → Dialogue β) (d : Dialogue α)
    (past : List Command) :
    (Dialogue.bind f d).run db past =
      match d.run db past with
      | (past, .ok a) => (f a).run db past
      | (past, .error e) => (past, .error e) := by
  induction d generalizing past with
  | done result => cases result <;> rfl
  | step c next ih => exact ih _ _

end Warden
