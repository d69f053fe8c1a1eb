import TernBackend.Flight.Schedule

/-!
# Moves and runs

`Move` lists what a thread can do next, one constructor for each way, with what must be the case and
what becomes of the state. `move_of_step` and `move_of_wake` say that the machine does nothing else.
What holds at the start and is kept by every move holds in every run (`Runs.preserves`).
-/

namespace TernBackend.State

variable {τ κ β α : Type}

/-! ## Changes, seen part by part -/

section
variable [DecidableEq τ] (s : State τ κ β α) (t u : τ) (c : κ) (th : Thread τ κ β α)

@[simp] theorem withThread_threads :
    (s.withThread t th).threads u = if u = t then th else s.threads u := rfl

@[simp] theorem withThread_cells : (s.withThread t th).cells c = s.cells c := rfl

@[simp] theorem withThread_locks : (s.withThread t th).locks c = s.locks c := rfl

@[simp] theorem withThread_waits : (s.withThread t th).waits = s.waits := rfl

end

section
variable [DecidableEq κ] (s : State τ κ β α) (u : τ) (c d : κ) (x : Cell τ α) (o : Option τ)

@[simp] theorem withCell_cells :
    (s.withCell c x).cells d = if d = c then x else s.cells d := rfl

@[simp] theorem withCell_threads : (s.withCell c x).threads u = s.threads u := rfl

@[simp] theorem withCell_locks : (s.withCell c x).locks d = s.locks d := rfl

@[simp] theorem withCell_waits : (s.withCell c x).waits = s.waits := rfl

@[simp] theorem withLock_locks :
    (s.withLock c o).locks d = if d = c then o else s.locks d := rfl

@[simp] theorem withLock_threads : (s.withLock c o).threads u = s.threads u := rfl

@[simp] theorem withLock_cells : (s.withLock c o).cells d = s.cells d := rfl

@[simp] theorem withLock_waits : (s.withLock c o).waits = s.waits := rfl

@[simp] theorem announce_threads : (s.announce c).threads u = wakeFor c (s.threads u) := rfl

@[simp] theorem announce_cells : (s.announce c).cells d = s.cells d := rfl

@[simp] theorem announce_locks : (s.announce c).locks d = s.locks d := rfl

@[simp] theorem announce_waits : (s.announce c).waits = s.waits := rfl

end

section
variable (s : State τ κ β α) (u : τ) (c : κ) (w : List (WaitEdge τ κ))

@[simp] theorem withWaits_waits : (s.withWaits w).waits = w := rfl

@[simp] theorem withWaits_threads : (s.withWaits w).threads u = s.threads u := rfl

@[simp] theorem withWaits_cells : (s.withWaits w).cells c = s.cells c := rfl

@[simp] theorem withWaits_locks : (s.withWaits w).locks c = s.locks c := rfl

end

variable [DecidableEq τ] [DecidableEq κ]

/-! ## Moves -/

/-- `Move bodies s t s' e`: in `s` the thread `t` can move, which leads to `s'` and shows `e`. -/
inductive Move (bodies : β → Computation κ β α) (s : State τ κ β α) (t : τ) :
    State τ κ β α → Option (Event τ κ β α) → Prop
  | finishAlone {a} (ht : s.threads t = ⟨[], .computing (.finish a)⟩) :
      Move bodies s t (s.withThread t ⟨[], .ended (.answered a)⟩) none
  | panicAlone {m} (ht : s.threads t = ⟨[], .computing (.panic m)⟩) :
      Move bodies s t (s.withThread t ⟨[], .ended (.panicked m)⟩) none
  | finish {p stack a} (ht : s.threads t = ⟨p :: stack, .computing (.finish a)⟩) :
      Move bodies s t
        ((s.withCell p.call.cell ((s.cells p.call.cell).store a)).withThread t
          ⟨p :: stack, .landing .land (.answered (((s.cells p.call.cell).store a).stored.getD a))⟩)
        (some (.ended t p.call.cell (.answered a)))
  | panic {p stack m} (ht : s.threads t = ⟨p :: stack, .computing (.panic m)⟩) :
      Move bodies s t (s.withThread t ⟨p :: stack, .landing .land (.panicked m)⟩)
        (some (.ended t p.call.cell (.panicked m)))
  | pause {stack next} (ht : s.threads t = ⟨stack, .computing (.pause next)⟩) :
      Move bodies s t (s.withThread t ⟨stack, .computing next⟩) none
  | peek {stack c next} (ht : s.threads t = ⟨stack, .computing (.peek c next)⟩) :
      Move bodies s t (s.withThread t ⟨stack, .computing (next (s.cells c).stored)⟩) none
  | attempt {stack call next} (ht : s.threads t = ⟨stack, .computing (.attempt call next)⟩) :
      Move bodies s t (s.withThread t ⟨stack, .calling .arrive ⟨call, next⟩⟩) none
  | hit {stack p a} (ht : s.threads t = ⟨stack, .calling .arrive p⟩)
      (hs : (s.cells p.call.cell).stored = some a) :
      Move bodies s t (s.withThread t ⟨stack, .computing (p.next (.answered a))⟩)
        (some (.returned t p.call a))
  | miss {stack p} (ht : s.threads t = ⟨stack, .calling .arrive p⟩)
      (hs : (s.cells p.call.cell).stored = none) :
      Move bodies s t (s.withThread t ⟨stack, .calling .enter p⟩) none
  | enter {stack p} (ht : s.threads t = ⟨stack, .calling .enter p⟩)
      (hl : s.locks p.call.cell = none) :
      Move bodies s t
        ((s.withLock p.call.cell (some t)).withThread t ⟨stack, .calling .inspect p⟩) none
  | found {stack p a} (ht : s.threads t = ⟨stack, .calling .inspect p⟩)
      (hs : (s.cells p.call.cell).stored = some a) :
      Move bodies s t
        ((s.withLock p.call.cell none).withThread t ⟨stack, .computing (p.next (.answered a))⟩)
        (some (.returned t p.call a))
  | start {stack p} (ht : s.threads t = ⟨stack, .calling .inspect p⟩)
      (hs : (s.cells p.call.cell).stored = none) (hr : (s.cells p.call.cell).runner = none) :
      Move bodies s t
        (((s.withCell p.call.cell ((s.cells p.call.cell).taken t)).withLock p.call.cell none).withThread t
          ⟨p :: stack, .computing (bodies p.call.body)⟩)
        (some (.started t p.call.cell))
  | reentry {stack p} (ht : s.threads t = ⟨stack, .calling .inspect p⟩)
      (hs : (s.cells p.call.cell).stored = none) (hr : (s.cells p.call.cell).runner = some t) :
      Move bodies s t
        ((s.withLock p.call.cell none).withThread t ⟨stack, .computing (p.next (.answered (cycle p.call)))⟩)
        (some (.returned t p.call (cycle p.call)))
  | behind {stack p r} (ht : s.threads t = ⟨stack, .calling .inspect p⟩)
      (hs : (s.cells p.call.cell).stored = none) (hr : (s.cells p.call.cell).runner = some r)
      (hne : r ≠ t) :
      Move bodies s t (s.withThread t ⟨stack, .calling (.consult r) p⟩) none
  | refuse {stack p r} (ht : s.threads t = ⟨stack, .calling (.consult r) p⟩)
      (hw : WaitEdge.leadsTo s.waits r t = true) :
      Move bodies s t
        ((s.withLock p.call.cell none).withThread t ⟨stack, .computing (p.next (.answered (cycle p.call)))⟩)
        (some (.returned t p.call (cycle p.call)))
  | sleep {stack p r} (ht : s.threads t = ⟨stack, .calling (.consult r) p⟩)
      (hw : ¬ WaitEdge.leadsTo s.waits r t = true) :
      Move bodies s t
        (((s.withWaits (s.waits ++ [⟨t, r, p.call.cell⟩])).withLock p.call.cell none).withThread t
          ⟨stack, .calling .asleep p⟩) none
  | wake {stack p} (ht : s.threads t = ⟨stack, .calling .asleep p⟩) :
      Move bodies s t (s.withThread t ⟨stack, .calling .woken p⟩) none
  | rise {stack p} (ht : s.threads t = ⟨stack, .calling .woken p⟩)
      (hl : s.locks p.call.cell = none) :
      Move bodies s t
        ((s.withLock p.call.cell (some t)).withThread t ⟨stack, .calling .unlist p⟩) none
  | unlist {stack p} (ht : s.threads t = ⟨stack, .calling .unlist p⟩) :
      Move bodies s t
        ((s.withWaits (WaitEdge.withoutWaiter s.waits t)).withThread t ⟨stack, .calling .inspect p⟩) none
  | land {p stack o} (ht : s.threads t = ⟨p :: stack, .landing .land o⟩)
      (hl : s.locks p.call.cell = none) :
      Move bodies s t
        (((s.withCell p.call.cell (s.cells p.call.cell).released).withLock p.call.cell (some t)).withThread t
          ⟨p :: stack, .landing .clear o⟩) none
  | clear {p stack o} (ht : s.threads t = ⟨p :: stack, .landing .clear o⟩) :
      Move bodies s t
        (((s.withWaits (WaitEdge.withoutCell s.waits p.call.cell)).withLock p.call.cell none).withThread t
          ⟨p :: stack, .landing .announce o⟩) none
  | leave {p stack o} (ht : s.threads t = ⟨p :: stack, .landing .announce o⟩) :
      Move bodies s t ((s.announce p.call.cell).withThread t ⟨stack, .computing (p.next o)⟩)
        (departure t p o)

variable {bodies : β → Computation κ β α} {s s' : State τ κ β α} {t : τ} {e : Option (Event τ κ β α)}

omit [DecidableEq κ] in
private theorem withStage_eq {stack : List (Pending κ β α)} {old new : Stage τ κ β α}
    (ht : s.threads t = ⟨stack, old⟩) : s.withStage t new = s.withThread t ⟨stack, new⟩ := by
  rw [withStage, ht]

theorem move_compute (bodies : β → Computation κ β α) {stack : List (Pending κ β α)}
    {rest : Computation κ β α}
    (ht : s.threads t = ⟨stack, .computing rest⟩) :
    Move bodies s t (s.compute t rest).1 (s.compute t rest).2 := by
  cases rest with
  | finish a =>
    cases stack with
    | nil => simpa [compute, ht, withStage] using Move.finishAlone ht
    | cons p stack => simpa [compute, ht, withStage] using Move.finish ht
  | panic m =>
    cases stack with
    | nil => simpa [compute, ht, withStage] using Move.panicAlone ht
    | cons p stack => simpa [compute, ht, withStage] using Move.panic ht
  | pause next => simpa [compute, withStage_eq ht] using Move.pause ht
  | peek c next => simpa [compute, withStage_eq ht] using Move.peek ht
  | attempt call next => simpa [compute, withStage_eq ht] using Move.attempt ht

theorem move_inspect (bodies : β → Computation κ β α) {stack : List (Pending κ β α)}
    {p : Pending κ β α}
    (ht : s.threads t = ⟨stack, .calling .inspect p⟩) :
    Move bodies s t (s.inspect bodies t p).1 (s.inspect bodies t p).2 := by
  cases hs : (s.cells p.call.cell).stored with
  | some a => simpa [inspect, Cell.verdict, hs, answer, withStage, ht] using Move.found ht hs
  | none =>
    cases hr : (s.cells p.call.cell).runner with
    | none => simpa [inspect, Cell.verdict, hs, hr, ht] using Move.start ht hs hr
    | some r =>
      by_cases hrt : r = t
      · subst hrt
        simpa [inspect, Cell.verdict, hs, hr, answer, withStage, ht] using Move.reentry ht hs hr
      · simpa [inspect, Cell.verdict, hs, hr, hrt, withStage, ht] using Move.behind ht hs hr hrt

theorem move_consult (bodies : β → Computation κ β α) {stack : List (Pending κ β α)}
    {p : Pending κ β α} {r : τ}
    (ht : s.threads t = ⟨stack, .calling (.consult r) p⟩) :
    Move bodies s t (s.consult t p r).1 (s.consult t p r).2 := by
  by_cases hw : WaitEdge.leadsTo s.waits r t = true
  · simpa [consult, hw, answer, withStage, ht] using Move.refuse ht hw
  · simpa [consult, hw, withStage, ht] using Move.sleep ht hw

theorem move_call {stack : List (Pending κ β α)} {w : Waypoint τ} {p : Pending κ β α}
    (ht : s.threads t = ⟨stack, .calling w p⟩) (h : s.call bodies t p w = some (s', e)) :
    Move bodies s t s' e := by
  cases w with
  | arrive =>
    cases hs : (s.cells p.call.cell).stored with
    | some a =>
      obtain ⟨rfl, rfl⟩ : _ = s' ∧ _ = e := by simpa [call, hs, answer, withStage_eq ht] using h
      exact .hit ht hs
    | none =>
      obtain ⟨rfl, rfl⟩ : _ = s' ∧ _ = e := by simpa [call, hs, withStage_eq ht] using h
      exact .miss ht hs
  | enter =>
    cases hl : s.locks p.call.cell with
    | some _ => simp [call, hl] at h
    | none =>
      obtain ⟨rfl, rfl⟩ : _ = s' ∧ _ = e := by simpa [call, hl, withStage, ht] using h
      exact .enter ht hl
  | inspect =>
    have := move_inspect bodies ht
    rwa [Option.some.inj (show some (s.inspect bodies t p) = some (s', e) from h)] at this
  | consult r =>
    have := move_consult bodies ht
    rwa [Option.some.inj (show some (s.consult t p r) = some (s', e) from h)] at this
  | asleep => simp [call] at h
  | woken =>
    cases hl : s.locks p.call.cell with
    | some _ => simp [call, hl] at h
    | none =>
      obtain ⟨rfl, rfl⟩ : _ = s' ∧ _ = e := by simpa [call, hl, withStage, ht] using h
      exact .rise ht hl
  | unlist =>
    obtain ⟨rfl, rfl⟩ : _ = s' ∧ _ = e := by simpa [call, withStage, ht] using h
    exact .unlist ht

theorem move_land {stack : List (Pending κ β α)} {d : Descent} {o : Outcome α}
    (ht : s.threads t = ⟨stack, .landing d o⟩) (h : s.land t o d = some (s', e)) :
    Move bodies s t s' e := by
  cases stack with
  | nil => simp [land, ht] at h
  | cons p stack =>
    cases d with
    | land =>
      cases hl : s.locks p.call.cell with
      | some _ => simp [land, ht, hl] at h
      | none =>
        obtain ⟨rfl, rfl⟩ : _ = s' ∧ _ = e := by simpa [land, ht, hl, withStage] using h
        exact .land ht hl
    | clear =>
      obtain ⟨rfl, rfl⟩ : _ = s' ∧ _ = e := by simpa [land, ht, withStage] using h
      exact .clear ht
    | announce =>
      obtain ⟨rfl, rfl⟩ : _ = s' ∧ _ = e := by simpa [land, ht, State.leave] using h
      exact .leave ht

theorem move_of_step (h : s.step bodies t = some (s', e)) : Move bodies s t s' e := by
  rcases ht : s.threads t with ⟨stack, stage⟩
  cases stage with
  | computing rest =>
    have := move_compute bodies ht
    rwa [Option.some.inj (show some (s.compute t rest) = some (s', e) by simpa [step, ht] using h)] at this
  | calling w p => exact move_call ht (by simpa [step, ht] using h)
  | landing d o => exact move_land ht (by simpa [step, ht] using h)
  | ended o => simp [step, ht] at h

theorem move_of_wake (h : s.wake t = some s') : Move bodies s t s' none := by
  rcases ht : s.threads t with ⟨stack, stage⟩
  unfold wake at h
  split at h
  next p hp =>
    obtain rfl : stage = .calling .asleep p := by simpa [ht] using hp
    obtain rfl : _ = s' := by simpa [withStage_eq ht] using h
    exact .wake ht
  next => cases h

/-! ## Runs -/

/-- `Runs bodies s es s'`: threads taking steps, in whatever order, and sleepers waking up unannounced
lead from `s` to `s'` and show `es`. -/
inductive Runs (bodies : β → Computation κ β α) (s : State τ κ β α) :
    List (Event τ κ β α) → State τ κ β α → Prop
  | refl : Runs bodies s [] s
  | step {es s₁ s₂ t e} : Runs bodies s es s₁ → s₁.step bodies t = some (s₂, e) →
      Runs bodies s (es ++ e.toList) s₂
  | wake {es s₁ s₂ t} : Runs bodies s es s₁ → s₁.wake t = some s₂ → Runs bodies s es s₂

/-- What can come of threads with programs of their own, when nothing has happened before. -/
def Reachable (bodies : β → Computation κ β α) (s : State τ κ β α) : Prop :=
  ∃ programs es, Runs bodies (initial programs) es s

theorem Runs.append {es es' : List (Event τ κ β α)} {s₁ s₂ : State τ κ β α}
    (h : Runs bodies s es s₁) (h' : Runs bodies s₁ es' s₂) : Runs bodies s (es ++ es') s₂ := by
  induction h' with
  | refl => simpa using h
  | step _ hstep ih => rw [← List.append_assoc]; exact ih.step hstep
  | wake _ hwake ih => exact ih.wake hwake

/-- What every move keeps, given the events so far, is kept by every run. -/
theorem Runs.preserves {P : List (Event τ κ β α) → State τ κ β α → Prop} {es : List (Event τ κ β α)}
    (h : Runs bodies s es s') (start : P [] s)
    (move : ∀ {es s t s' e}, P es s → Move bodies s t s' e → P (es ++ e.toList) s') : P es s' := by
  induction h with
  | refl => exact start
  | step _ hstep ih => exact move ih (move_of_step hstep)
  | wake _ hwake ih => simpa using move ih (move_of_wake hwake)

end TernBackend.State
