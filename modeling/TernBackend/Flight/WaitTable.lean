/-!
# The table of waits

While a thread waits for a cell that another thread is computing, an entry in one table for all cells
says so. A thread about to wait first follows the entries from the runner of its cell: if they lead
back to itself, waiting would never end.
-/

namespace TernBackend

/-- An entry of `WAITS_FOR`: the thread `waiter` waits for `cell`, which the thread `runner` is
computing. -/
structure WaitEdge (τ κ : Type) where
  waiter : τ
  runner : τ
  cell : κ
  deriving DecidableEq

namespace WaitEdge

variable {τ κ : Type} [DecidableEq τ]

/-- The thread that `t` waits for, by the first entry of `t`. -/
def next? (edges : List (WaitEdge τ κ)) (t : τ) : Option τ :=
  (edges.find? (·.waiter = t)).map (·.runner)

/-- Whether at most `rounds - 1` steps from `t` lead to `target`. -/
def leadsWithin (edges : List (WaitEdge τ κ)) (target : τ) : Nat → τ → Bool
  | 0, _ => false
  | rounds + 1, t =>
    if t = target then true
    else
      match next? edges t with
      | some t => leadsWithin edges target rounds t
      | none => false

/-- `leads_to`: whether the waits from `t` on lead to `target`. One round more than there are
entries is enough, for a longer walk has been somewhere twice. -/
def leadsTo (edges : List (WaitEdge τ κ)) (t target : τ) : Bool :=
  leadsWithin edges target (edges.length + 1) t

def withoutWaiter (edges : List (WaitEdge τ κ)) (t : τ) : List (WaitEdge τ κ) :=
  edges.filter (·.waiter ≠ t)

def withoutCell [DecidableEq κ] (edges : List (WaitEdge τ κ)) (c : κ) : List (WaitEdge τ κ) :=
  edges.filter (·.cell ≠ c)

end WaitEdge

end TernBackend
