import TernBackend.Library.Error

/-!
# Cells

A cell holds a value that is computed at most once. While it is empty it knows who is computing it,
if anybody is. Failures are stored like values, so that every caller gets the same answer; a
computation that panics stores nothing and leaves the cell to the next caller.
-/

namespace TernBackend

/-- An answer, or the error in its place. -/
abbrev Answer (α : Type) : Type := Except LibraryError α

inductive Outcome (α : Type) where
  | answered (answer : Answer α)
  | panicked (message : String)

/-- `OnceCompute`. A value that is computed at most once, by one of the threads `τ`; `runner` is its
`Flight`. -/
structure Cell (τ α : Type) where
  stored : Option (Answer α) := none
  runner : Option τ := none

instance {τ α : Type} : Inhabited (Cell τ α) := ⟨{}⟩

/-- What a caller is told by a cell. -/
inductive Verdict (τ α : Type) where
  | done (answer : Answer α)
  | compute
  | reentry
  | behind (runner : τ)

namespace Cell

variable {τ α : Type}

/-- What a cell tells the caller `me`. -/
def verdict [DecidableEq τ] (c : Cell τ α) (me : τ) : Verdict τ α :=
  match c.stored with
  | some answer => .done answer
  | none =>
    match c.runner with
    | none => .compute
    | some runner => if runner = me then .reentry else .behind runner

/-- `OnceCompute::is_complete`. -/
def isComplete (c : Cell τ α) : Bool := c.stored.isSome

def taken (c : Cell τ α) (me : τ) : Cell τ α := { c with runner := some me }

/-- The cell with an answer, unless it has one already. -/
def store (c : Cell τ α) (answer : Answer α) : Cell τ α := { c with stored := c.stored.or (some answer) }

def released (c : Cell τ α) : Cell τ α := { c with runner := none }

def land (c : Cell τ α) : Outcome α → Cell τ α
  | .answered answer => (c.store answer).released
  | .panicked _ => c.released

end Cell

end TernBackend
