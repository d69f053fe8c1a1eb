import TernBackend.Proofs.Flight.Move

/-!
# The schedule is one of the runs

`runs_run`: what the schedule does is a run of the machine, so all that is true of every run is true of
it. Pauses show nothing, and letting one thread go on leaves the others at their pauses.
-/

namespace TernBackend.State

variable {τ κ β α : Type} [DecidableEq τ] [DecidableEq κ] {bodies : β → Computation κ β α}
  {s : State τ κ β α}

theorem step_of_isPaused {t : τ} (h : s.isPaused t = true) :
    ∃ th, s.step bodies t = some (s.withThread t th, none) := by
  unfold isPaused at h
  split at h
  next next ht => exact ⟨{ s.threads t with stage := .computing next }, by simp [step, ht, compute, withStage]⟩
  next => cases h

omit [DecidableEq κ] in
theorem isPaused_withThread {t u : τ} (th : Thread τ κ β α) (h : u ≠ t) :
    (s.withThread t th).isPaused u = s.isPaused u := by
  simp [isPaused, h]

theorem runs_resume : ∀ {paused : List τ} {s : State τ κ β α}, paused.Nodup →
    (∀ t ∈ paused, s.isPaused t = true) → Runs bodies s [] (s.resume bodies paused)
  | [], _, _, _ => .refl
  | t :: paused, s, hn, hp => by
    obtain ⟨ht, hn⟩ := List.nodup_cons.1 hn
    obtain ⟨th, hstep⟩ : ∃ th, s.step bodies t = some (s.withThread t th, none) :=
      step_of_isPaused (hp t List.mem_cons_self)
    have hrest : ∀ u ∈ paused, (s.withThread t th).isPaused u = true := fun u hu => by
      have hne : u ≠ t := fun h => ht (h ▸ hu)
      rw [isPaused_withThread th hne]
      exact hp u (List.mem_cons_of_mem _ hu)
    have hgo : s.resume bodies (t :: paused) = (s.withThread t th).resume bodies paused := by
      simp [resume, hstep]
    rw [hgo]
    exact (Runs.refl.step hstep).append (runs_resume hn hrest)

theorem runs_advance {threads : List τ} (hn : threads.Nodup) {s' : State τ κ β α}
    {e : Option (Event τ κ β α)} (h : s.advance bodies threads = some (s', e)) :
    Runs bodies s e.toList s' := by
  unfold advance at h
  split at h
  next next hnext =>
    obtain rfl := Option.some.inj h
    obtain ⟨t, -, ht⟩ := List.exists_of_findSome?_eq_some hnext
    split at ht
    · cases ht
    · exact Runs.refl.step ht
  next =>
    split at h
    next => cases h
    next =>
      obtain ⟨rfl, rfl⟩ : _ = s' ∧ none = e := by simpa using h
      exact runs_resume (hn.filter _) fun t ht => (List.mem_filter.1 ht).2

/-- The schedule does what some run does. -/
theorem runs_run {threads : List τ} (hn : threads.Nodup) :
    ∀ (moves : Nat) (s : State τ κ β α),
      Runs bodies s (s.run bodies threads moves).2 (s.run bodies threads moves).1
  | 0, _ => .refl
  | moves + 1, s => by
    unfold run
    split
    next => exact .refl
    next s' e h => exact (runs_advance hn h).append (runs_run hn moves s')

end TernBackend.State
