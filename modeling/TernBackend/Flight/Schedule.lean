import TernBackend.Flight.Machine

/-!
# A schedule

One way to run the machine: the first thread that can take a step takes it, except that pauses are put
off until no thread can do anything else, and then all paused threads go on. So threads that pause
meet there.
-/

namespace TernBackend.State

variable {τ κ β α : Type} [DecidableEq τ] [DecidableEq κ]

/-- Whether a thread is at a pause. -/
def isPaused (s : State τ κ β α) (t : τ) : Bool :=
  match (s.threads t).stage with
  | .computing (.pause _) => true
  | _ => false

/-- How a thread ended, if it has. -/
def outcome? (s : State τ κ β α) (t : τ) : Option (Outcome α) :=
  match (s.threads t).stage with
  | .ended outcome => some outcome
  | _ => none

/-- Lets every paused thread go on. -/
def resume (bodies : β → Computation κ β α) (s : State τ κ β α) (paused : List τ) : State τ κ β α :=
  paused.foldl (fun s t => (s.step bodies t).elim s (·.1)) s

/-- The next move of the schedule among the given threads. -/
def advance (bodies : β → Computation κ β α) (threads : List τ) (s : State τ κ β α) :
    Option (State τ κ β α × Option (Event τ κ β α)) :=
  match threads.findSome? fun t => if s.isPaused t then none else s.step bodies t with
  | some next => some next
  | none =>
    match threads.filter (s.isPaused ·) with
    | [] => none
    | paused => some (s.resume bodies paused, none)

/-- Runs the schedule until nobody can move, for at most the given number of moves. Also gives what
could be seen, in order. -/
def run (bodies : β → Computation κ β α) (threads : List τ) :
    Nat → State τ κ β α → State τ κ β α × List (Event τ κ β α)
  | 0, s => (s, [])
  | moves + 1, s =>
    match s.advance bodies threads with
    | none => (s, [])
    | some (next, event) =>
      let (last, events) := run bodies threads moves next
      (last, event.toList ++ events)

end TernBackend.State
