import TernBackend.Proofs.Flight.Ring

/-!
# Single flight

A cell is only touched in three ways: its closure starts, its closure ends with an answer, and the
thread that computed it lands (`Move.cell_cases`). So the answers that closures of the cell have ended
with, in order, are just the stored one, if there is one; every call that has returned was told that
answer or of a cycle; and a closure that panics leaves the cell as it was before (`single_flight`).
-/

namespace TernBackend.State

variable {τ κ β α : Type}

/-- The answers with which closures of the cell have ended, in order. -/
def answersOf [DecidableEq κ] (c : κ) (es : List (Event τ κ β α)) : List (Answer α) :=
  es.filterMap fun
    | .ended _ d (.answered a) => if d = c then some a else none
    | _ => none

@[simp] theorem answersOf_append [DecidableEq κ] (c : κ) (es es' : List (Event τ κ β α)) :
    answersOf c (es ++ es') = answersOf c es ++ answersOf c es' := List.filterMap_append

variable [DecidableEq τ] [DecidableEq κ] {bodies : β → Computation κ β α} {s s' : State τ κ β α} {t : τ}

/-! ## What a move does to a cell -/

/-- A move leaves a cell alone, or ends its closure with an answer, or starts its closure, or lands it. -/
theorem Move.cell_cases {e : Option (Event τ κ β α)} (h : Move bodies s t s' e) (hs : s.Consistent)
    (c : κ) :
    (s'.cells c = s.cells c ∧ answersOf c e.toList = [] ∧ ∀ u, e ≠ some (.started u c)) ∨
    (∃ a, c ∈ (s.standing t).inside ∧ s'.cells c = ⟨some a, some t⟩ ∧
      e = some (.ended t c (.answered a))) ∨
    (s.cells c = {} ∧ s'.cells c = ⟨none, some t⟩ ∧ e = some (.started t c)) ∨
    (∃ o, (s.standing t).ends = some (c, o) ∧ c ∈ (s.standing t).marked ∧
      s'.cells c = (s.cells c).released ∧ e = none) := by
  have hst : s.standing t = (s.threads t).standing := rfl
  cases h with
  | @finish p stack a ht =>
    by_cases hc : c = p.call.cell
    · subst hc
      have hmem : p.call.cell ∈ (s.standing t).inside := by
        simp [hst, ht, Thread.standing, Thread.cellsOf]
      have hstored := hs.unstored t _ hmem
      have hrunner := (hs.runner_iff _ t).2 (Thread.inside_subset_marked _ hmem)
      exact .inr (.inl ⟨a, hmem, by simp [Cell.store, hstored, hrunner], rfl⟩)
    · exact .inl ⟨by simp [hc], by simp [answersOf, Ne.symm hc], by simp⟩
  | @start stack p ht hnone hrunner =>
    by_cases hc : c = p.call.cell
    · subst hc
      have hcell : s.cells p.call.cell = {} := by
        rw [← hnone, ← hrunner]
      exact .inr (.inr (.inl ⟨hcell, by simp [Cell.taken, hnone], rfl⟩))
    · exact .inl ⟨by simp [hc], by simp [answersOf], by simp [Ne.symm hc]⟩
  | @land p stack o ht =>
    by_cases hc : c = p.call.cell
    · subst hc
      refine .inr (.inr (.inr ⟨o, ?_, ?_, by simp, rfl⟩)) <;> simp [hst, ht, Thread.standing]
    · exact .inl ⟨by simp [hc], by simp [answersOf], by simp⟩
  | @leave p stack o ht => cases o <;> exact .inl ⟨by simp, by simp [departure, answersOf], by simp [departure]⟩
  | _ => exact .inl ⟨by simp, by simp [answersOf], by simp⟩

theorem Move.stored_mono {e : Option (Event τ κ β α)} (h : Move bodies s t s' e) (hs : s.Consistent)
    {c : κ} {a : Answer α} (ha : (s.cells c).stored = some a) :
    (s'.cells c).stored = some a ∧ ∀ u, e ≠ some (.started u c) := by
  rcases h.cell_cases hs c with ⟨hkeep, -, hno⟩ | ⟨b, hin, -, -⟩ | ⟨hempty, -, -⟩ | ⟨o, -, -, hland, rfl⟩
  · exact ⟨by rw [hkeep, ha], hno⟩
  -- inside the closure and at its start nothing is stored yet
  · have hnone := hs.unstored t c hin
    rw [ha] at hnone
    cases hnone
  · rw [hempty] at ha
    cases ha
  · exact ⟨by rw [hland]; exact ha, by simp⟩

/-- Who returns was told the stored answer, or of a cycle while somebody was computing. -/
theorem Move.returned {u : τ} {call : Call κ β} {a : Answer α}
    (h : Move bodies s t s' (some (.returned u call a))) (hs : s.Consistent) :
    (s.cells call.cell).stored = some a ∨ a = cycle call ∧ (s.cells call.cell).runner ≠ none := by
  rcases h.returned_or_refused hs with hstored | ⟨rfl, p, r, rfl, hrefuse⟩
  · exact .inl hstored
  · exact .inr ⟨rfl, by simp [(hs.reaches_of_refuses hrefuse).1]⟩

/-! ## What a run does to a cell -/

/-- A stored answer stays, and the closure is not started again. -/
theorem Runs.stored_mono {es : List (Event τ κ β α)} (h : Runs bodies s es s') (hs : s.Consistent)
    {c : κ} {a : Answer α} (ha : (s.cells c).stored = some a) :
    (s'.cells c).stored = some a ∧ ∀ u, .started u c ∉ es := by
  refine (h.maintains (P := fun es s => (s.cells c).stored = some a ∧ ∀ u, .started u c ∉ es)
    hs ⟨ha, by simp⟩ ?_).2
  rintro es s t s' e hs ⟨ha, hes⟩ hm
  obtain ⟨ha', he⟩ := hm.stored_mono hs ha
  refine ⟨ha', fun u hmem => ?_⟩
  rcases List.mem_append.1 hmem with hmem | hmem
  · exact hes u hmem
  · exact he u (Option.mem_toList.1 hmem)

/-- The closures of a cell that have ended with an answer: the one whose answer is stored. -/
theorem Runs.answersOf_eq {programs : τ → Computation κ β α} {es : List (Event τ κ β α)}
    (h : Runs bodies (initial programs) es s) (c : κ) :
    answersOf c es = (s.cells c).stored.toList := by
  refine (h.maintains (P := fun es s => answersOf c es = (s.cells c).stored.toList)
    (consistent_initial programs) rfl ?_).2
  intro es s t s' e hs hes hm
  rw [answersOf_append, hes]
  rcases hm.cell_cases hs c with ⟨hkeep, hno, -⟩ | ⟨a, hin, hcell, rfl⟩ | ⟨hempty, hcell, rfl⟩ |
    ⟨o, -, -, hland, rfl⟩
  · rw [hkeep, hno, List.append_nil]
  · rw [hs.unstored t c hin, hcell]
    simp [answersOf]
  · rw [hempty, hcell]
    simp [answersOf]
  · rw [hland]
    simp [answersOf, Cell.released]

/-- Every call that has returned was told the stored answer, or of a cycle with its own owner. -/
theorem Runs.returned_eq {programs : τ → Computation κ β α} {es : List (Event τ κ β α)}
    (h : Runs bodies (initial programs) es s) :
    ∀ u call a, .returned u call a ∈ es → (s.cells call.cell).stored = some a ∨ a = cycle call := by
  refine (h.maintains (P := fun es s => ∀ u call a, .returned u call a ∈ es →
    (s.cells call.cell).stored = some a ∨ a = cycle call) (consistent_initial programs) (by simp) ?_).2
  intro es s t s' e hs hes hm u call a hmem
  rcases List.mem_append.1 hmem with hmem | hmem
  · exact (hes u call a hmem).imp_left fun ha => (hm.stored_mono hs ha).1
  · rw [Option.mem_toList] at hmem
    obtain rfl : e = some (.returned u call a) := hmem
    exact (hm.returned hs).imp (fun ha => (hm.stored_mono hs ha).1) And.left

/-! ## Panics -/

/-- An empty cell stays empty, and no call for it returns, until a caller starts its closure. -/
theorem Runs.empty {es : List (Event τ κ β α)} (h : Runs bodies s es s') (hs : s.Consistent) {c : κ}
    (hc : s.cells c = {}) (hno : ∀ u, .started u c ∉ es) :
    s'.cells c = {} ∧ ∀ u call a, .returned u call a ∈ es → call.cell ≠ c := by
  refine (h.maintains (P := fun es s => (∀ u, .started u c ∉ es) →
    s.cells c = {} ∧ ∀ u call a, .returned u call a ∈ es → call.cell ≠ c) hs (fun _ => ⟨hc, by simp⟩) ?_).2 hno
  intro es s t s' e hs ih hm hno
  obtain ⟨hc, hes⟩ := ih fun u hu => hno u (List.mem_append_left _ hu)
  -- nobody computes the cell, so only a start, which is excluded, could change it
  have hunmarked : ∀ u, c ∉ (s.standing u).marked := fun u hu => by
    have hrunner := (hs.runner_iff c u).2 hu
    rw [hc] at hrunner
    cases hrunner
  constructor
  · rcases hm.cell_cases hs c with ⟨hkeep, -, -⟩ | ⟨a, hin, -, -⟩ | ⟨-, -, rfl⟩ | ⟨o, -, hmark, -, -⟩
    · rw [hkeep, hc]
    · exact absurd (Thread.inside_subset_marked _ hin) (hunmarked t)
    · exact absurd (List.mem_append_right _ (by simp)) (hno t)
    · exact absurd hmark (hunmarked t)
  · intro u call a hmem hcall
    rcases List.mem_append.1 hmem with hmem | hmem
    · exact hes u call a hmem hcall
    · rw [Option.mem_toList] at hmem
      obtain rfl : e = some (.returned u call a) := hmem
      rcases hm.returned hs with hstored | ⟨-, hrunner⟩
      · rw [hcall, hc] at hstored
        cases hstored
      · rw [hcall, hc] at hrunner
        exact hrunner rfl

/-- The state in which the thread has just left the closure of `c` by a panic. -/
structure Panicked (s : State τ κ β α) (t : τ) (c : κ) : Prop where
  cell : s.cells c = ⟨none, some t⟩
  landing : ∃ p stack m, s.threads t = ⟨p :: stack, .landing .land (.panicked m)⟩ ∧ p.call.cell = c

theorem Move.panicked {u : τ} {c : κ} {m : String}
    (h : Move bodies s t s' (some (.ended u c (.panicked m)))) (hs : s.Consistent) :
    u = t ∧ s'.Panicked t c := by
  have hst : s.standing t = (s.threads t).standing := rfl
  generalize he : some (Event.ended u c (.panicked m)) = e at h
  cases h with
  | @panic p stack m ht =>
    cases he
    have hmem : p.call.cell ∈ (s.standing t).inside := by
      simp [hst, ht, Thread.standing, Thread.cellsOf]
    have hstored := hs.unstored t _ hmem
    have hrunner := (hs.runner_iff _ t).2 (Thread.inside_subset_marked _ hmem)
    refine ⟨rfl, ?_, p, stack, m, by simp, rfl⟩
    simp [← hstored, ← hrunner]
  | @leave p stack o => cases o <;> cases he
  | _ => cases he

/-- After a panic, the other threads leave the cell alone, and the next step of the thread empties it. -/
theorem Panicked.move {e : Option (Event τ κ β α)} {u : τ} {c : κ} (hp : s.Panicked t c)
    (hs : s.Consistent) (h : Move bodies s u s' e) : s'.Panicked t c ∨ u = t ∧ s'.cells c = {} := by
  obtain ⟨hcell, p, stack, m, ht, rfl⟩ := hp
  by_cases hu : u = t
  · subst hu
    right
    cases h <;> simp_all [Cell.released]
  · left
    constructor
    case cell =>
      have hunmarked : p.call.cell ∉ (s.standing u).marked := fun hmark => by
        have hrunner := (hs.runner_iff _ u).2 hmark
        rw [hcell] at hrunner
        exact hu (Option.some.inj hrunner).symm
      rcases h.cell_cases hs p.call.cell with ⟨hkeep, -⟩ | ⟨a, hin, -⟩ | ⟨hempty, -⟩ | ⟨o, -, hmark, -⟩
      · rw [hkeep, hcell]
      · exact absurd (Thread.inside_subset_marked _ hin) hunmarked
      · rw [hcell] at hempty
        cases hempty
      · exact absurd hmark hunmarked
    case landing =>
      refine ⟨p, stack, m, ?_, rfl⟩
      cases h with
      | leave hu' => simp [Ne.symm hu, ht, wakeFor]
      | _ => simpa [Ne.symm hu] using ht

/-- A run that comes after a panic has not moved the thread, or has passed through a state in which the
cell is empty. -/
theorem Runs.panicked {es : List (Event τ κ β α)} {c : κ} (h : Runs bodies s es s') (hs : s.Consistent)
    (hp : s.Panicked t c) :
    s'.Panicked t c ∨ ∃ es₁ es₂ mid, es = es₁ ++ es₂ ∧ Runs bodies s es₁ mid ∧ Runs bodies mid es₂ s' ∧
      mid.cells c = {} := by
  -- the run is cut where the thread first moves: the cell is empty there
  induction h with
  | refl => exact .inl hp
  | @step es s₁ s₂ u e hrun hstep ih =>
    rcases ih with hp | ⟨es₁, es₂, mid, rfl, hbefore, hafter, hempty⟩
    · rcases hp.move (hrun.consistent_of hs) (move_of_step hstep) with hp | ⟨-, hempty⟩
      · exact .inl hp
      · exact .inr ⟨_, [], s₂, by simp, hrun.step hstep, .refl, hempty⟩
    · exact .inr ⟨es₁, es₂ ++ e.toList, mid, by simp, hbefore, hafter.step hstep, hempty⟩
  | @wake es s₁ s₂ u hrun hwake ih =>
    rcases ih with hp | ⟨es₁, es₂, mid, rfl, hbefore, hafter, hempty⟩
    · have hm : Move bodies s₁ u s₂ none := move_of_wake hwake
      rcases hp.move (hrun.consistent_of hs) hm with hp | ⟨-, hempty⟩
      · exact .inl hp
      · exact .inr ⟨_, [], s₂, by simp, hrun.wake hwake, .refl, hempty⟩
    · exact .inr ⟨es₁, es₂, mid, rfl, hbefore, hafter.wake hwake, hempty⟩

/-- A caller that looks at an empty cell, under the lock, starts the closure. -/
theorem step_of_empty {p : Pending κ β α} {stack : List (Pending κ β α)} (bodies : β → Computation κ β α)
    (ht : s.threads t = ⟨stack, .calling .inspect p⟩) (hc : s.cells p.call.cell = {}) :
    ∃ s', s.step bodies t = some (s', some (.started t p.call.cell)) := by
  simp [step, ht, State.call, inspect, Cell.verdict, hc]

/-! ## The result -/

omit [DecidableEq τ] [DecidableEq κ] in
/-- Whoever is inside the closure of a cell is noted as computing it, so it is only one. -/
theorem Consistent.inside_unique {u : τ} {c : κ} (hs : s.Consistent) (ht : c ∈ (s.standing t).inside)
    (hu : c ∈ (s.standing u).inside) : t = u := by
  have hrt := (hs.runner_iff c t).2 (Thread.inside_subset_marked _ ht)
  have hru := (hs.runner_iff c u).2 (Thread.inside_subset_marked _ hu)
  rw [hrt] at hru
  exact Option.some.inj hru

/-- **Single flight.** In every run: one thread at most is inside the closure of a cell, and only once;
a stored answer stays, and no closure of its cell starts any more; the answers with which closures of a
cell have ended are the stored one, if there is one, and no others; a call that has returned was told the
stored answer or of a cycle with the owner it named; and when a closure panics, the cell has no answer,
the next step of the thread leaves it as if nothing had happened, and from then on no call for it returns
until a caller, finding it so, starts the closure. -/
theorem single_flight {programs : τ → Computation κ β α} {es : List (Event τ κ β α)}
    (h : Runs bodies (initial programs) es s) :
    (∀ c t u, c ∈ (s.standing t).inside → c ∈ (s.standing u).inside → t = u) ∧
    (∀ t, (s.standing t).inside.Nodup) ∧
    (∀ c a es' s', (s.cells c).stored = some a → Runs bodies s es' s' →
      (s'.cells c).stored = some a ∧ ∀ t, .started t c ∉ es') ∧
    (∀ c, answersOf c es = (s.cells c).stored.toList) ∧
    (∀ t call a, .returned t call a ∈ es → (s.cells call.cell).stored = some a ∨ a = cycle call) ∧
    (∀ t c m s₁, s.step bodies t = some (s₁, some (.ended t c (.panicked m))) →
      s₁.Panicked t c ∧ ∀ es' s', Runs bodies s₁ es' s' → s'.Panicked t c ∨
        ∃ es₁ es₂ mid, es' = es₁ ++ es₂ ∧ Runs bodies s₁ es₁ mid ∧ Runs bodies mid es₂ s' ∧
          mid.cells c = {}) ∧
    (∀ c es' s', s.cells c = {} → Runs bodies s es' s' → (∀ t, .started t c ∉ es') →
      s'.cells c = {} ∧ ∀ t call a, .returned t call a ∈ es' → call.cell ≠ c) ∧
    (∀ t stack p, s.threads t = ⟨stack, .calling .inspect p⟩ → s.cells p.call.cell = {} →
      ∃ s', s.step bodies t = some (s', some (.started t p.call.cell))) := by
  have hs := h.consistent
  refine ⟨fun c t u => hs.inside_unique, fun t => ?_, fun c a es' s' ha hruns => hruns.stored_mono hs ha,
    h.answersOf_eq, h.returned_eq, fun t c m s₁ hstep => ?_,
    fun c es' s' hc hruns hno => hruns.empty hs hc hno, fun t stack p => step_of_empty bodies⟩
  · exact (Thread.inside_sublist_marked _).nodup (hs.nodup t)
  · have hm := move_of_step hstep
    have hp := (hm.panicked hs).2
    exact ⟨hp, fun es' s' hruns => hruns.panicked (hs.move hm) hp⟩

/-- Of two callers the first panics in the closure and the second computes. -/
theorem single_flight_second_caller :
    let bodies : Bool → Computation Unit Bool Nat := fun b => if b then .finish (.ok 1) else .panic "broken"
    let programs : Bool → Computation Unit Bool Nat := fun b => .request ⟨(), "c", b⟩ .finish
    let r := (initial programs).run bodies [false, true] 30
    (r.1.cells ()).stored = some (.ok 1) ∧ answersOf () r.2 = [.ok 1] := by
  intro bodies programs r
  have hruns : Runs bodies (initial programs) r.2 r.1 := runs_run (by decide) 30 _
  have hstored : (r.1.cells ()).stored = some (.ok 1) := rfl
  obtain ⟨-, -, -, hanswers, -⟩ := single_flight hruns
  refine ⟨hstored, ?_⟩
  rw [hanswers, hstored]
  rfl

end TernBackend.State
