import TernBackend.Proofs.Flight.Consistency
import TernBackend.Proofs.Flight.Schedule

/-!
# Freedom from deadlock

A sleeper is stuck when nobody who has begun to land its cell is still to announce it. Then its entry is
in the table of waits, so another thread is noted as computing the cell, and as the table has no cycle,
stuck threads do not wait for one another in a circle. Following the waits from a stuck thread ends at a
thread that is in a call of its own and not stuck, so the machine never stands still inside a call
(`calls_never_deadlock`).
-/

namespace TernBackend.State

open Relation

variable {τ κ β α : Type}

/-- The thread sleeps until the cell is announced, and nobody who has begun to land the cell is still to
announce it. -/
def Stuck (s : State τ κ β α) (t : τ) (c : κ) : Prop :=
  (s.standing t).sleeps = some c ∧ ∀ u, (s.standing u).notifies ≠ some c

/-- The thread `t` is stuck on a cell that `r` computes. -/
def StuckBehind (s : State τ κ β α) (t r : τ) : Prop := ∃ c, s.Stuck t c ∧ (s.cells c).runner = some r

/-- The thread has made a call that has not ended. -/
def InCall (s : State τ κ β α) (t : τ) : Prop :=
  (s.threads t).stack ≠ [] ∨ ∃ w p, (s.threads t).stage = .calling w p

/-! ## Stuck threads and the table -/

theorem Stuck.entry {s : State τ κ β α} {t : τ} {c : κ} (hs : s.Consistent) (h : s.Stuck t c) :
    ∃ r, ⟨t, r, c⟩ ∈ s.waits ∧ r ≠ t ∧ (s.cells c).runner = some r := by
  rcases hs.listed t c h.1 with ⟨r, hr⟩ | ⟨u, hu⟩
  · obtain ⟨-, hne, hrun | ⟨hnot, -⟩⟩ := hs.entry t r c hr
    · exact ⟨r, hr, hne, hrun⟩
    · exact absurd hnot (h.2 r)
  · exact absurd hu (h.2 u)

theorem StuckBehind.waits {s : State τ κ β α} {t r : τ} (hs : s.Consistent) (h : s.StuckBehind t r) :
    WaitEdge.Waits s.waits t r := by
  obtain ⟨c, hstuck, hrun⟩ := h
  obtain ⟨r', hmem, -, hrun'⟩ := hstuck.entry hs
  obtain rfl : r' = r := Option.some.inj (hrun'.symm.trans hrun)
  exact ⟨c, hmem⟩

theorem not_stuckBehind_self {s : State τ κ β α} (hs : s.Consistent) (t : τ) :
    ¬ TransGen s.StuckBehind t t :=
  fun h => hs.acyclic t (TransGen.mono (fun _ _ => StuckBehind.waits hs) _ _ h)

/-! ## Threads in calls -/

theorem inCall_of_marked {s : State τ κ β α} {t : τ} {c : κ} (h : c ∈ (s.standing t).marked) :
    s.InCall t := by
  left
  intro hnil
  unfold standing at h
  rcases ht : s.threads t with ⟨stack, stage⟩
  rw [ht] at h hnil
  obtain rfl : stack = [] := hnil
  cases stage with
  | calling w p => cases w <;> simp [Thread.standing, Thread.cellsOf] at h
  | landing d o => cases d <;> simp [Thread.standing] at h
  | computing rest => simp [Thread.standing, Thread.cellsOf] at h
  | ended o => simp [Thread.standing, Thread.cellsOf] at h

/-- A thread that is to announce a cell can go on. -/
theorem step_of_notifies [DecidableEq τ] [DecidableEq κ] (bodies : β → Computation κ β α)
    {s : State τ κ β α} {t : τ} {c : κ} (h : (s.standing t).notifies = some c) :
    s.InCall t ∧ (s.step bodies t).isSome := by
  unfold standing at h
  rcases ht : s.threads t with ⟨stack, stage⟩
  rw [ht] at h
  cases stage with
  | landing d o =>
    cases stack with
    | nil => cases d <;> simp [Thread.standing] at h
    | cons p stack =>
      refine ⟨.inl (by simp [ht]), ?_⟩
      cases d with
      | land => simp [Thread.standing] at h
      | clear => simp [step, ht, State.land]
      | announce => simp [step, ht, State.land]
  | calling w p => cases w <;> simp [Thread.standing] at h
  | computing rest => simp [Thread.standing] at h
  | ended o => simp [Thread.standing] at h

/-- A thread that holds a lock can go on. -/
theorem step_of_holds [DecidableEq τ] [DecidableEq κ] (bodies : β → Computation κ β α)
    {s : State τ κ β α} {t : τ} {c : κ} (h : (s.standing t).holds = some c) :
    s.InCall t ∧ (s.step bodies t).isSome := by
  unfold standing at h
  rcases ht : s.threads t with ⟨stack, stage⟩
  rw [ht] at h
  cases stage with
  | calling w p =>
    refine ⟨.inr ⟨w, p, by rw [ht]⟩, ?_⟩
    cases w <;> simp [Thread.standing] at h <;> simp [step, ht, State.call]
  | landing d o =>
    cases stack with
    | nil => cases d <;> simp [Thread.standing] at h
    | cons p stack =>
      refine ⟨.inl (by simp [ht]), ?_⟩
      cases d <;> simp [Thread.standing] at h
      simp [step, ht, State.land]
  | computing rest => simp [Thread.standing] at h
  | ended o => simp [Thread.standing] at h

variable [DecidableEq τ] [DecidableEq κ] {bodies : β → Computation κ β α} {s s' : State τ κ β α} {t : τ}

/-- A thread whose next step wants the lock of `c` goes on, or the holder of the lock does. -/
theorem step_or_holder (hs : s.Consistent) {c : κ} (hcall : s.InCall t)
    (hfree : s.locks c = none → (s.step bodies t).isSome) :
    ∃ u, s.InCall u ∧ (s.step bodies u).isSome := by
  cases hl : s.locks c with
  | none => exact ⟨t, hcall, hfree hl⟩
  | some u => exact ⟨u, step_of_holds bodies ((hs.lock_iff c u).1 hl)⟩

theorem waits_inCall (hs : s.Consistent) {u : τ} (h : WaitEdge.Waits s.waits t u) : s.InCall u := by
  obtain ⟨c, hc⟩ := h
  obtain ⟨-, -, hrun | ⟨hnot, -⟩⟩ := hs.entry t u c hc
  · exact inCall_of_marked ((hs.runner_iff c u).1 hrun)
  · exact (step_of_notifies (fun _ => .panic "") hnot).1

/-- Following the waits from a call ends at a call that is not stuck. -/
theorem exists_not_stuck (hs : s.Consistent) (h : s.InCall t) : ∃ u, s.InCall u ∧ ∀ c, ¬ s.Stuck u c := by
  obtain ⟨u, hu, hend⟩ := hs.acyclic.exists_end t
  have hcall : s.InCall u := by
    rcases hu.cases_tail with rfl | ⟨v, -, hv⟩
    · exact h
    · exact waits_inCall hs hv
  refine ⟨u, hcall, fun c hstuck => ?_⟩
  obtain ⟨r, hr, -⟩ := hstuck.entry hs
  exact hend r ⟨c, hr⟩

/-- A thread ends only outside all closures. -/
theorem Move.ended_alone {e : Option (Event τ κ β α)} (h : Move bodies s t s' e)
    (hs : ∀ u stack o, s.threads u = ⟨stack, .ended o⟩ → stack = []) :
    ∀ u stack o, s'.threads u = ⟨stack, .ended o⟩ → stack = [] := by
  intro u stack o hu
  have hold := hs u stack o
  by_cases hut : u = t
  · subst hut
    cases h <;> simp_all
  -- only a landing changes the stages of others, and it makes sleepers wake
  · cases h with
    | @leave p stack' o' ht =>
      refine hold ?_
      simp only [withThread_threads, hut, if_false, announce_threads] at hu
      unfold wakeFor at hu
      split at hu
      · split at hu
        · simp at hu
        · exact hu
      · exact hu
    | _ => exact hold (by simpa [hut] using hu)

theorem Reachable.ended_alone (h : Reachable bodies s) {stack : List (Pending κ β α)} {o : Outcome α}
    (ht : s.threads t = ⟨stack, .ended o⟩) : stack = [] := by
  obtain ⟨programs, es, hruns⟩ := h
  refine hruns.preserves (P := fun _ s => ∀ u stack o, s.threads u = ⟨stack, .ended o⟩ → stack = [])
    ?_ (fun hs hm => hm.ended_alone hs) t stack o ht
  simp [initial]

/-- A call that is not stuck can go on, or somebody can that it waits for. -/
theorem exists_step_of_not_stuck (h : Reachable bodies s) (hcall : s.InCall t)
    (hstuck : ∀ c, ¬ s.Stuck t c) : ∃ u, s.InCall u ∧ (s.step bodies u).isSome := by
  have hs := h.consistent
  rcases ht : s.threads t with ⟨stack, stage⟩
  cases stage with
  | computing rest => exact ⟨t, hcall, by simp [step, ht]⟩
  | calling w p =>
    cases w with
    | arrive =>
      refine ⟨t, hcall, ?_⟩
      cases hc : (s.cells p.call.cell).stored <;> simp [step, ht, State.call, hc]
    | enter | woken =>
      exact step_or_holder hs (c := p.call.cell) hcall fun hl => by simp [step, ht, State.call, hl]
    | inspect | consult | unlist => exact ⟨t, hcall, by simp [step, ht, State.call]⟩
    -- a sleeper has no step of its own, but somebody is still to announce its cell
    | asleep =>
      have hsleeps : (s.standing t).sleeps = some p.call.cell := by simp [standing, ht, Thread.standing]
      by_cases hnotify : ∃ u, (s.standing u).notifies = some p.call.cell
      · obtain ⟨u, hu⟩ := hnotify
        exact ⟨u, step_of_notifies bodies hu⟩
      · exact absurd ⟨hsleeps, fun u hu => hnotify ⟨u, hu⟩⟩ (hstuck p.call.cell)
  | landing d o =>
    cases stack with
    | nil => rcases hcall with hcall | ⟨w, p, hcall⟩ <;> simp [ht] at hcall
    | cons p stack =>
      cases d with
      | land =>
        exact step_or_holder hs (c := p.call.cell) hcall fun hl => by simp [step, ht, State.land, hl]
      | clear | announce => exact ⟨t, hcall, by simp [step, ht, State.land]⟩
  | ended o =>
    obtain rfl := h.ended_alone ht
    rcases hcall with hcall | ⟨w, p, hcall⟩ <;> simp [ht] at hcall

/-- **Freedom from deadlock.** In every reachable state a stuck thread's cell is being computed by
another thread, waiting of stuck threads for one another goes in no circle, not all threads that are in
a call are stuck, and one of those that are in a call can take a step. -/
theorem calls_never_deadlock (h : Reachable bodies s) :
    (∀ t c, s.Stuck t c → ∃ r, r ≠ t ∧ (s.cells c).runner = some r) ∧
    (∀ t, ¬ TransGen s.StuckBehind t t) ∧
    ¬ ((∃ t, s.InCall t) ∧ ∀ t, s.InCall t → ∃ c, s.Stuck t c) ∧
    ((∃ t, s.InCall t) → ∃ t, s.InCall t ∧ (s.step bodies t).isSome) := by
  have hs := h.consistent
  refine ⟨fun t c hstuck => ?_, not_stuckBehind_self hs, fun ⟨⟨t, ht⟩, hall⟩ => ?_, fun ⟨t, ht⟩ => ?_⟩
  · obtain ⟨r, -, hne, hrun⟩ := hstuck.entry hs
    exact ⟨r, hne, hrun⟩
  · obtain ⟨u, hu, hfree⟩ := exists_not_stuck hs ht
    obtain ⟨c, hc⟩ := hall u hu
    exact hfree c hc
  · obtain ⟨u, hu, hfree⟩ := exists_not_stuck hs ht
    exact exists_step_of_not_stuck h hu hfree

/-- Two threads call for the one cell there is, and the second sleeps while the first is in the closure. -/
theorem calls_never_deadlock_two_callers :
    let bodies : Unit → Computation Unit Unit Nat := fun _ => .pause (.pause (.finish (.ok 1)))
    let programs : Bool → Computation Unit Unit Nat := fun _ => .request ⟨(), "c", ()⟩ .finish
    let s := ((initial programs).run bodies [false, true] 12).1
    s.Stuck true () ∧ (∃ r, r ≠ true ∧ (s.cells ()).runner = some r) ∧
      ∃ t, s.InCall t ∧ (s.step bodies t).isSome := by
  intro bodies programs s
  have hreach : Reachable bodies s := ⟨programs, _, runs_run (by decide) 12 _⟩
  have hsleeps : (s.standing true).sleeps = some () := rfl
  have hstuck : s.Stuck true () := ⟨hsleeps, by intro u; cases u <;> exact nofun⟩
  obtain ⟨hrunner, -, -, hstep⟩ := calls_never_deadlock hreach
  exact ⟨hstuck, hrunner true () hstuck, hstep ⟨true, .inr ⟨_, _, rfl⟩⟩⟩

end TernBackend.State
