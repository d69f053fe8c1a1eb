import TernBackend.Flight.Computation
import TernBackend.Flight.WaitTable

/-!
# Threads that share cells

The steps by which threads compute cells for one another. Every cell has a lock of its own for the
note who is computing it; the table of waits has one lock for all. A step of the machine touches what
one lock protects, or reads or stores an answer, so the runs of the machine are all the interleavings
of these.

A call first looks for an answer without the lock. Then, under the lock of its cell, it looks again
and finds out whether it is to compute, or has come back to its own computation, or is behind another
thread. In the last case it consults the table of waits: either waiting would close a cycle, and the
call fails, or it leaves an entry, gives up the lock and sleeps. A thread that wakes up takes the lock
again, removes its entry and looks once more.

When a closure ends, its answer is stored. Then, panic or not, the thread lands: under the lock of
the cell it notes that nobody is computing, and removes the entries of those who wait for it; after
that it wakes the sleepers.
-/

namespace TernBackend

/-- How far a call of `OnceCompute::get_or_compute` has come. -/
inductive Waypoint (τ : Type) where
  /-- About to look for an answer without the lock. -/
  | arrive
  /-- About to take the lock of the cell. -/
  | enter
  /-- Holding the lock, about to look at the cell. -/
  | inspect
  /-- Holding the lock, having found another thread computing, about to look at the table of waits. -/
  | consult (runner : τ)
  /-- Asleep until the cell is announced. -/
  | asleep
  /-- Awake again, about to take the lock. -/
  | woken
  /-- Holding the lock again, about to remove its entry from the table of waits. -/
  | unlist
  deriving DecidableEq

/-- How far the end of a computation, the drop of its `Landing`, has come. -/
inductive Descent where
  /-- About to take the lock of the cell and to note that nobody is computing. -/
  | land
  /-- Holding the lock, about to remove the entries of those who wait. -/
  | clear
  | announce
  deriving DecidableEq

/-- What a thread is doing. -/
inductive Stage (τ κ β α : Type) where
  /-- Running a closure, or what it was started with. -/
  | computing (rest : Computation κ β α)
  | calling (waypoint : Waypoint τ) (pending : Pending κ β α)
  /-- Ending the computation of the cell on top of the stack. -/
  | landing (descent : Descent) (outcome : Outcome α)
  | ended (outcome : Outcome α)

/-- A thread: the cells it is computing, the innermost first, each with the call that waits for it,
and what it is doing. -/
structure Thread (τ κ β α : Type) where
  stack : List (Pending κ β α) := []
  stage : Stage τ κ β α

structure State (τ κ β α : Type) where
  cells : κ → Cell τ α
  /-- Who holds the lock of a cell. -/
  locks : κ → Option τ
  waits : List (WaitEdge τ κ)
  threads : τ → Thread τ κ β α

/-- What can be seen of a step. -/
inductive Event (τ κ β α : Type) where
  | started (thread : τ) (cell : κ)
  | ended (thread : τ) (cell : κ) (outcome : Outcome α)
  | returned (thread : τ) (call : Call κ β) (answer : Answer α)

namespace State

variable {τ κ β α : Type}

/-- The state in which nothing has happened, with the given threads. -/
def initial (programs : τ → Computation κ β α) : State τ κ β α where
  cells _ := {}
  locks _ := none
  waits := []
  threads t := { stage := .computing (programs t) }

/-- The state with other threads over the same cells. -/
def restart (s : State τ κ β α) (programs : τ → Computation κ β α) : State τ κ β α :=
  { s with threads := fun t => { stage := .computing (programs t) } }

section

variable [DecidableEq τ] [DecidableEq κ]

/-! ## Changes -/

def withThread (s : State τ κ β α) (t : τ) (thread : Thread τ κ β α) : State τ κ β α :=
  { s with threads := fun u => if u = t then thread else s.threads u }

def withStage (s : State τ κ β α) (t : τ) (stage : Stage τ κ β α) : State τ κ β α :=
  s.withThread t { s.threads t with stage }

def withCell (s : State τ κ β α) (c : κ) (cell : Cell τ α) : State τ κ β α :=
  { s with cells := fun d => if d = c then cell else s.cells d }

def withLock (s : State τ κ β α) (c : κ) (holder : Option τ) : State τ κ β α :=
  { s with locks := fun d => if d = c then holder else s.locks d }

def withWaits (s : State τ κ β α) (waits : List (WaitEdge τ κ)) : State τ κ β α := { s with waits }

def wakeFor (c : κ) (thread : Thread τ κ β α) : Thread τ κ β α :=
  match thread.stage with
  | .calling .asleep p => if p.call.cell = c then { thread with stage := .calling .woken p } else thread
  | _ => thread

def announce (s : State τ κ β α) (c : κ) : State τ κ β α :=
  { s with threads := fun u => wakeFor c (s.threads u) }

/-- The state in which a thread goes on with the answer to its call. -/
def answer (s : State τ κ β α) (t : τ) (p : Pending κ β α) (a : Answer α) :
    State τ κ β α × Option (Event τ κ β α) :=
  (s.withStage t (.computing (p.next (.answered a))), some (.returned t p.call a))

/-- What a call is told that would wait for itself. -/
def cycle (call : Call κ β) : Answer α := .error (.cycle call.owner)

/-! ## Steps -/

def compute (s : State τ κ β α) (t : τ) : Computation κ β α → State τ κ β α × Option (Event τ κ β α)
  | .finish a =>
    match (s.threads t).stack with
    | [] => (s.withStage t (.ended (.answered a)), none)
    | p :: _ =>
      let cell := (s.cells p.call.cell).store a
      ((s.withCell p.call.cell cell).withStage t (.landing .land (.answered (cell.stored.getD a))),
        some (.ended t p.call.cell (.answered a)))
  | .panic message =>
    match (s.threads t).stack with
    | [] => (s.withStage t (.ended (.panicked message)), none)
    | p :: _ =>
      (s.withStage t (.landing .land (.panicked message)), some (.ended t p.call.cell (.panicked message)))
  | .pause next => (s.withStage t (.computing next), none)
  | .peek c next => (s.withStage t (.computing (next (s.cells c).stored)), none)
  | .attempt call next => (s.withStage t (.calling .arrive ⟨call, next⟩), none)

/-- A step of a thread that looks at its cell under the lock. -/
def inspect (bodies : β → Computation κ β α) (s : State τ κ β α) (t : τ) (p : Pending κ β α) :
    State τ κ β α × Option (Event τ κ β α) :=
  let c := p.call.cell
  match (s.cells c).verdict t with
  | .done a => (s.withLock c none).answer t p a
  | .reentry => (s.withLock c none).answer t p (cycle p.call)
  | .behind runner => (s.withStage t (.calling (.consult runner) p), none)
  | .compute =>
    (((s.withCell c ((s.cells c).taken t)).withLock c none).withThread t
        ⟨p :: (s.threads t).stack, .computing (bodies p.call.body)⟩,
      some (.started t c))

def consult (s : State τ κ β α) (t : τ) (p : Pending κ β α) (runner : τ) :
    State τ κ β α × Option (Event τ κ β α) :=
  let c := p.call.cell
  if WaitEdge.leadsTo s.waits runner t then (s.withLock c none).answer t p (cycle p.call)
  else
    (((s.withWaits (s.waits ++ [⟨t, runner, c⟩])).withLock c none).withStage t (.calling .asleep p), none)

/-- A step of a thread that calls for a cell, unless it has to wait. -/
def call (bodies : β → Computation κ β α) (s : State τ κ β α) (t : τ) (p : Pending κ β α) :
    Waypoint τ → Option (State τ κ β α × Option (Event τ κ β α))
  | .arrive =>
    match (s.cells p.call.cell).stored with
    | some a => some (s.answer t p a)
    | none => some (s.withStage t (.calling .enter p), none)
  | .enter =>
    match s.locks p.call.cell with
    | some _ => none
    | none => some ((s.withLock p.call.cell (some t)).withStage t (.calling .inspect p), none)
  | .inspect => some (s.inspect bodies t p)
  | .consult runner => some (s.consult t p runner)
  | .asleep => none
  | .woken =>
    match s.locks p.call.cell with
    | some _ => none
    | none => some ((s.withLock p.call.cell (some t)).withStage t (.calling .unlist p), none)
  | .unlist =>
    some ((s.withWaits (WaitEdge.withoutWaiter s.waits t)).withStage t (.calling .inspect p), none)

/-- What can be seen when a computation has ended for its caller. A panic is no answer. -/
def departure (t : τ) (p : Pending κ β α) : Outcome α → Option (Event τ κ β α)
  | .answered a => some (.returned t p.call a)
  | .panicked _ => none

/-- A step of a thread that has woken the sleepers of its cell and leaves it. -/
def leave (s : State τ κ β α) (t : τ) (p : Pending κ β α) (stack : List (Pending κ β α))
    (outcome : Outcome α) : State τ κ β α × Option (Event τ κ β α) :=
  (s.withThread t ⟨stack, .computing (p.next outcome)⟩, departure t p outcome)

/-- A step of a thread that ends the computation of a cell, unless it has to wait. -/
def land (s : State τ κ β α) (t : τ) (outcome : Outcome α) :
    Descent → Option (State τ κ β α × Option (Event τ κ β α))
  | descent =>
    match (s.threads t).stack with
    | [] => none
    | p :: stack =>
      let c := p.call.cell
      match descent with
      | .land =>
        match s.locks c with
        | some _ => none
        | none =>
          some (((s.withCell c (s.cells c).released).withLock c (some t)).withStage t
            (.landing .clear outcome), none)
      | .clear =>
        some (((s.withWaits (WaitEdge.withoutCell s.waits c)).withLock c none).withStage t
          (.landing .announce outcome), none)
      | .announce => some ((s.announce c).leave t p stack outcome)

/-- The next step of a thread, if it can take one. -/
def step (bodies : β → Computation κ β α) (s : State τ κ β α) (t : τ) :
    Option (State τ κ β α × Option (Event τ κ β α)) :=
  match (s.threads t).stage with
  | .computing c => some (s.compute t c)
  | .calling waypoint p => s.call bodies t p waypoint
  | .landing descent outcome => s.land t outcome descent
  | .ended _ => none

/-- A sleeper that wakes up though its cell was not announced. -/
def wake (s : State τ κ β α) (t : τ) : Option (State τ κ β α) :=
  match (s.threads t).stage with
  | .calling .asleep p => some (s.withStage t (.calling .woken p))
  | _ => none

end

end State

end TernBackend
