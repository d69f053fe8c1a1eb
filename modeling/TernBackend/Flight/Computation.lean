import TernBackend.Flight.Cell

/-!
# Computations

What the closure of a cell does: it ends with an answer or in a panic, looks at other cells, or calls
for their values. A call names the cell, the owner to be blamed for a cycle, and the closure to be run
should the caller be the first. Closures are named, not contained in one another, so that two of them
may call for each other's cells.
-/

namespace TernBackend

/-- A call of `OnceCompute::get_or_compute`. -/
structure Call (κ β : Type) where
  cell : κ
  /-- The name in the error, should the call be part of a cycle. -/
  owner : String
  /-- The closure to run if nobody has computed the value. -/
  body : β
  deriving DecidableEq

/-- What a closure over cells `κ` with closures `β` and values `α` does. -/
inductive Computation (κ β α : Type) where
  | finish (answer : Answer α)
  | panic (message : String)
  /-- Does something of its own, which touches no cell. -/
  | pause (next : Computation κ β α)
  /-- Looks whether a cell has an answer. -/
  | peek (cell : κ) (next : Option (Answer α) → Computation κ β α)
  /-- Calls for the value of a cell, and goes on also when computing it here has panicked. -/
  | attempt (call : Call κ β) (next : Outcome α → Computation κ β α)

/-- Calls for the value of a cell; a panic in there is a panic here. -/
def Computation.request {κ β α : Type} (call : Call κ β) (next : Answer α → Computation κ β α) :
    Computation κ β α :=
  .attempt call fun
    | .answered a => next a
    | .panicked message => .panic message

/-- A call that has not been answered, and how the caller goes on when it has ended. -/
structure Pending (κ β α : Type) where
  call : Call κ β
  next : Outcome α → Computation κ β α

end TernBackend
