import RecordTree.Record.Error
import RecordTree.Store.Request

/-!
# Programs over a store

An operation is a program: it is done, or it makes a request and goes on with what comes of it. Who runs
a program decides what comes of its requests, so that one definition of an operation serves a store that
answers at once, stores that others change in between, and callers that give up.

A caller that gave up before a request spares the store the request. A caller that gives up while a
request is on its way does not learn what came of it, which matters only for a change.
-/

namespace RecordTree

/-- What comes of a request. -/
inductive Outcome (α : Type) where
  /-- The caller had given up, and the request was not made. -/
  | notStarted
  /-- The caller gave up before there was an answer. -/
  | abandoned
  | answered (answer : Except StoreError α)

/-- A program over a store. -/
inductive Program (α : Type) where
  | done (result : Except RecordError α)
  | call (r : Request) (next : Outcome r.Answer → Program α)

namespace Program

variable {α β σ : Type}

/-- The program that fails. -/
def fail (e : RecordError) : Program α := .done (.error e)

/-- The program that is done with a result. -/
def ofExcept (x : Except RecordError α) : Program α := .done x

/-- Goes on with the result of a program, unless it fails. -/
def bind : Program α → (α → Program β) → Program β
  | .done (.ok a), f => f a
  | .done (.error e), _ => .done (.error e)
  | .call r next, f => .call r fun o => (next o).bind f

instance : Monad Program where
  pure a := .done (.ok a)
  bind := bind

/-- The program that is never seen to fail: its result is what became of the given one. -/
def attempt : Program α → Program (Except RecordError α)
  | .done x => .done (.ok x)
  | .call r next => .call r fun o => (next o).attempt

/-- What comes of requests, given the state of the world. -/
abbrev Responder (σ : Type) := (r : Request) → σ → Outcome r.Answer × σ

/-- Runs a program. -/
def run (respond : Responder σ) : Program α → σ → Except RecordError α × σ
  | .done x, s => (x, s)
  | .call r next, s => (next (respond r s).1).run respond (respond r s).2

/-- The responder for a caller that never gives up: every request is answered by the store. -/
def answering (store : FileStore σ) : Responder σ := fun r s => (.answered (store r s).1, (store r s).2)

/-- Runs a program against a store. -/
def runOn (store : FileStore σ) (p : Program α) (s : σ) : Except RecordError α × σ :=
  p.run (answering store) s

/-! ### Single requests -/

/-- What a reader goes on with. That a store does not find a file means that there is none. -/
def found : Outcome (Option α) → Program (Option α)
  | .notStarted => fail .cancelled
  | .abandoned => fail .cancelled
  | .answered (.ok x) => pure x
  | .answered (.error e) => if e.isNotFound then pure none else fail (.store e)

/-- Looks into a file. -/
def peek (path : String) : Program (Option ByteArray) := .call (.peek path) found

/-- Reads a file with its revision. -/
def read (path : String) : Program (Option Snapshot) := .call (.read path) found

/-- Writes a file. -/
def write (path message : String) (content : ByteArray) (expected : Revision) : Program Revision :=
  .call (.write path message content expected) fun
    | .notStarted => fail .cancelled
    | .abandoned => fail (.outcomeUnknown path .write)
    | .answered x => ofExcept (x.mapError .store)

/-- Removes a file. -/
def delete (path message : String) (expected : Revision) : Program Unit :=
  .call (.delete path message expected) fun
    | .notStarted => fail .cancelled
    | .abandoned => fail (.outcomeUnknown path .delete)
    | .answered x => ofExcept (x.mapError .store)

/-- Lists a directory. -/
def list (path : String) : Program (List DirEntry) :=
  .call (.list path) fun
    | .notStarted => fail .cancelled
    | .abandoned => fail .cancelled
    | .answered x => ofExcept (x.mapError .store)

end Program

end RecordTree
