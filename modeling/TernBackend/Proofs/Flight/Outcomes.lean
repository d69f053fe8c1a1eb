import TernBackend.Proofs.Flight.Family
import TernBackend.Proofs.Flight.Ring

/-!
# What the cells of a family hold

Threads call for cells of a family, in any order and on any schedule. Along the stack of a thread every
cell is needed by the one below it, so a call that comes back to a cell of the same stack has found a
cycle of needs. When it is behind another thread, the entries in the table of waits lead from stack to
stack in the same way, so a refused call has found a cycle too (`reachesCycle_of_refuses`). Hence every
answer is sound, and since the sound answers of a cell all agree, neither the order of the calls nor the
schedule matters (`family_outcomes`).
-/

namespace TernBackend

open Relation

variable {τ κ α : Type}

/-- The program calls for each cell with the closure of that cell. -/
inductive Computation.Asks : Computation κ κ α → Prop
  | finish {a} : Asks (.finish a)
  | panic {m} : Asks (.panic m)
  | pause {next} (h : Asks next) : Asks (.pause next)
  | peek {c next} (h : ∀ o, Asks (next o)) : Asks (.peek c next)
  | attempt {call next} (hbody : call.body = call.cell) (h : ∀ a, Asks (next (.answered a))) :
      Asks (.attempt call next)

namespace Family

variable (F : Family κ α)

/-! ## Faithful threads -/

/-- `Faithful who rest`: what is left of the closure of `who`, or of a program when there is none, calls
only for what it needs, and ends with a sound answer if it is given sound answers. -/
inductive Faithful (who : Option κ) : Computation κ κ α → Prop
  | finish {a} (h : ∀ i ∈ who, F.Sound i a) : Faithful who (.finish a)
  | panic {m} (h : who = none) : Faithful who (.panic m)
  | pause {next} (h : Faithful who next) : Faithful who (.pause next)
  | peek {c next} (h : ∀ o, Faithful who (next o)) : Faithful who (.peek c next)
  | attempt {call next} (hbody : call.body = call.cell) (hneeds : ∀ i ∈ who, F.Needs i call.cell)
      (h : ∀ a, F.Sound call.cell a → Faithful who (next (.answered a))) : Faithful who (.attempt call next)

/-- A call by the closure of `who`, or by a program. -/
structure FaithfulCall (who : Option κ) (p : Pending κ κ α) : Prop where
  body : p.call.body = p.call.cell
  needs : ∀ i ∈ who, F.Needs i p.call.cell
  next : ∀ a, F.Sound p.call.cell a → F.Faithful who (p.next (.answered a))

def innermost (stack : List (Pending κ κ α)) : Option κ := stack.head?.map (·.call.cell)

/-- Every call of a stack was made by the closure below it. -/
def FaithfulStack : List (Pending κ κ α) → Prop
  | [] => True
  | p :: stack => F.FaithfulCall (innermost stack) p ∧ FaithfulStack stack

/-- What a thread does on behalf of the closure of `who`. -/
def FaithfulStage (who : Option κ) : Stage τ κ κ α → Prop
  | .computing rest => F.Faithful who rest
  | .calling _ p => F.FaithfulCall who p
  | .landing _ outcome => ∀ i ∈ who, ∃ a, outcome = .answered a ∧ F.Sound i a
  | .ended _ => True

structure FaithfulThread (th : Thread τ κ κ α) : Prop where
  stack : F.FaithfulStack th.stack
  stage : F.FaithfulStage (innermost th.stack) th.stage

/-- All threads are faithful, and all stored answers are sound. -/
structure Trusted (s : State τ κ κ α) : Prop where
  thread : ∀ t, F.FaithfulThread (s.threads t)
  stored : ∀ c a, (s.cells c).stored = some a → F.Sound c a

variable {F}

theorem faithful_of_asks {program : Computation κ κ α} (h : program.Asks) : F.Faithful none program := by
  induction h with
  | finish => exact .finish nofun
  | panic => exact .panic rfl
  | pause _ ih => exact .pause ih
  | peek _ ih => exact .peek ih
  | attempt hbody _ ih => exact .attempt hbody nofun fun a _ => ih a

theorem Faithful.call {who : Option κ} {call : Call κ κ} {next : Outcome α → Computation κ κ α}
    (h : F.Faithful who (.attempt call next)) : F.FaithfulCall who ⟨call, next⟩ := by
  cases h with
  | attempt hbody hneeds h => exact ⟨hbody, hneeds, h⟩

/-- The closure of a cell is faithful while it collects: what it has found are values. -/
theorem faithful_collect {i : κ} : ∀ {rest done : List κ} {found : List α},
    F.needs i = done ++ rest → List.Forall₂ F.HasValue done found →
    F.Faithful (some i) (F.collect i found rest)
  -- `done` is what has been called for so far, and `found` are the values of it, in order
  | [], done, found, hneeds, hfound => by
    refine .finish fun k hk => ?_
    obtain rfl := Option.some.inj hk
    rw [List.append_nil] at hneeds
    rw [← hneeds] at hfound
    exact .inl ⟨_, .of_forall₂ hfound, rfl⟩
  | j :: rest, done, found, hneeds, hfound => by
    have hij : F.Needs i j := by
      have hmem : j ∈ done ++ j :: rest := by simp
      rwa [← hneeds] at hmem
    refine .attempt rfl (fun k hk => Option.some.inj hk ▸ hij) fun a ha => ?_
    cases a with
    | ok v =>
      have hsplit : F.needs i = (done ++ [j]) ++ rest := by simp [hneeds]
      exact faithful_collect hsplit (List.rel_append hfound (.cons ha.of_ok .nil))
    | error e =>
      refine .finish fun k hk => ?_
      obtain rfl := Option.some.inj hk
      exact ha.of_error hij

theorem faithful_body (F : Family κ α) (i : κ) : F.Faithful (some i) (F.body i) :=
  faithful_collect rfl .nil

/-! ## Stacks and needs -/

/-- Every cell of a stack needs, directly or through others, the one on top, or is it. -/
theorem FaithfulStack.needs_innermost : ∀ {stack : List (Pending κ κ α)} {c i : κ},
    F.FaithfulStack stack → c ∈ Thread.cellsOf stack → innermost stack = some i →
    ReflTransGen F.Needs c i
  | p :: stack, c, i, ⟨hp, hstack⟩, hc, hi => by
    obtain rfl : p.call.cell = i := Option.some.inj hi
    rcases List.mem_cons.1 hc with rfl | hc
    · exact .refl
    · obtain ⟨j, hj⟩ : ∃ j, innermost stack = some j := by
        cases stack with
        | nil => cases hc
        | cons q stack => exact ⟨q.call.cell, rfl⟩
      exact (hstack.needs_innermost hc hj).tail (hp.needs j hj)

/-- The cells of a stack need the cell that the thread calls for. -/
theorem FaithfulThread.needs_called {stack : List (Pending κ κ α)} {w : Waypoint τ} {p : Pending κ κ α}
    {c : κ} (h : F.FaithfulThread ⟨stack, .calling w p⟩) (hc : c ∈ Thread.cellsOf stack) :
    TransGen F.Needs c p.call.cell := by
  have hp : F.FaithfulCall (innermost stack) p := h.stage
  cases stack with
  | nil => cases hc
  | cons q stack =>
    exact .tail' (h.stack.needs_innermost hc rfl) (hp.needs q.call.cell rfl)

/-- A call is no less faithful when it has come further. -/
theorem FaithfulThread.onward {stack : List (Pending κ κ α)} {w w' : Waypoint τ} {p : Pending κ κ α}
    (h : F.FaithfulThread ⟨stack, .calling w p⟩) : F.FaithfulThread ⟨stack, .calling w' p⟩ :=
  ⟨h.stack, h.stage⟩

theorem FaithfulThread.answered {stack : List (Pending κ κ α)} {w : Waypoint τ} {p : Pending κ κ α}
    {a : Answer α} (h : F.FaithfulThread ⟨stack, .calling w p⟩) (ha : F.Sound p.call.cell a) :
    F.FaithfulThread (⟨stack, .computing (p.next (.answered a))⟩ : Thread τ κ κ α) :=
  have hp : F.FaithfulCall (innermost stack) p := h.stage
  ⟨h.stack, hp.next a ha⟩

theorem FaithfulThread.needs_awaited {th : Thread τ κ κ α} {c d : κ} (h : F.FaithfulThread th)
    (hd : th.standing.awaits = some d) (hc : c ∈ th.standing.marked) : TransGen F.Needs c d := by
  obtain ⟨stack, w, p, rfl, rfl⟩ := Thread.calling_of_awaits hd
  rw [Thread.marked_calling] at hc
  exact h.needs_called hc

/-- Where a chain of waits leads from a thread that computes `c`, some cell is being computed that `c`
needs. -/
theorem Trusted.needs_of_reaches {s : State τ κ κ α} {t u : τ} (hf : F.Trusted s) (hs : s.Consistent)
    (hchain : ReflTransGen s.WaitsFor u t) :
    ∀ c ∈ (s.standing u).marked, ∃ x ∈ (s.standing t).marked, ReflTransGen F.Needs c x := by
  -- `u` waits for a cell that `v` computes, and whatever `u` computes needs that cell
  induction hchain using ReflTransGen.head_induction_on with
  | refl => exact fun c hc => ⟨c, hc, .refl⟩
  | @head u v huv _ ih =>
    intro c hc
    obtain ⟨d, hawaits, hcell⟩ := huv
    obtain ⟨x, hx, hdx⟩ := ih d ((hs.runner_iff d v).1 (by rw [hcell]))
    exact ⟨x, hx, ((hf.thread u).needs_awaited hawaits hc).to_reflTransGen.trans hdx⟩

/-- A call that is refused is part of a cycle of needs. -/
theorem reachesCycle_of_refuses [DecidableEq τ] {s : State τ κ κ α} {t r : τ} {p : Pending κ κ α}
    (hf : F.Trusted s) (hs : s.Consistent) (h : s.Refuses t p r) : F.ReachesCycle p.call.cell := by
  obtain ⟨stack, w, ht⟩ := h.calling
  obtain ⟨hcell, hchain⟩ := hs.reaches_of_refuses h
  have hth : F.FaithfulThread ⟨stack, .calling w p⟩ := ht ▸ hf.thread t
  obtain ⟨x, hx, hreach⟩ := hf.needs_of_reaches hs hchain p.call.cell
    ((hs.runner_iff _ r).1 (by rw [hcell]))
  rw [State.standing, ht, Thread.marked_calling] at hx
  exact .of_transGen (.trans_right hreach (hth.needs_called hx))

section

variable [DecidableEq τ]

/-! ## Moves -/

theorem Trusted.withThread {s : State τ κ κ α} {t : τ} {th : Thread τ κ κ α} (hf : F.Trusted s)
    (hth : F.FaithfulThread th) : F.Trusted (s.withThread t th) where
  thread u := by
    by_cases hu : u = t
    · simpa [hu] using hth
    · simpa [hu] using hf.thread u
  stored := hf.stored

variable [DecidableEq κ]

omit [DecidableEq τ] in
theorem Trusted.withCell {s : State τ κ κ α} {c : κ} {x : Cell τ α} (hf : F.Trusted s)
    (hx : ∀ a, x.stored = some a → F.Sound c a) : F.Trusted (s.withCell c x) where
  thread := hf.thread
  stored d a h := by
    by_cases hd : d = c
    · subst hd
      exact hx a (by simpa using h)
    · exact hf.stored d a (by simpa [hd] using h)

omit [DecidableEq τ] in
theorem Trusted.withLock {s : State τ κ κ α} {c : κ} {o : Option τ} (hf : F.Trusted s) :
    F.Trusted (s.withLock c o) := ⟨hf.thread, hf.stored⟩

omit [DecidableEq τ] [DecidableEq κ] in
theorem Trusted.withWaits {s : State τ κ κ α} {w : List (WaitEdge τ κ)} (hf : F.Trusted s) :
    F.Trusted (s.withWaits w) := ⟨hf.thread, hf.stored⟩

omit [DecidableEq τ] in
theorem Trusted.announce {s : State τ κ κ α} {c : κ} (hf : F.Trusted s) : F.Trusted (s.announce c) where
  thread u := by
    have hu := hf.thread u
    rw [State.announce_threads]
    unfold State.wakeFor
    split
    next p hp =>
      split
      · have hcall : F.FaithfulStage (innermost (s.threads u).stack) (.calling .asleep p) := hp ▸ hu.stage
        exact ⟨hu.stack, hcall⟩
      · exact hu
    next => exact hu
  stored := hf.stored

omit [DecidableEq τ] [DecidableEq κ] in
theorem sound_of_returned {t u : τ} {call call' : Call κ κ} {a b : Answer α} (ha : F.Sound call.cell a)
    (he : some (Event.returned t call a) = some (.returned u call' b)) : F.Sound call'.cell b := by
  cases he
  exact ha

variable {s s' : State τ κ κ α} {t : τ}

/-- Every move keeps trust, and shows no answer but a sound one. -/
theorem Trusted.move {e : Option (Event τ κ κ α)} (hf : F.Trusted s) (hs : s.Consistent)
    (h : State.Move F.body s t s' e) :
    F.Trusted s' ∧ ∀ u call a, e = some (.returned u call a) → F.Sound call.cell a := by
  have hth := hf.thread t
  cases h with
  | finishAlone ht | panicAlone ht =>
    rw [ht] at hth
    exact ⟨hf.withThread ⟨hth.stack, trivial⟩, nofun⟩
  | @finish p stack a ht =>
    rw [ht] at hth
    have ha : F.Sound p.call.cell a := by
      cases hth.stage with
      | finish h => exact h _ rfl
    have hstore : ∀ b, ((s.cells p.call.cell).store a).stored = some b → F.Sound p.call.cell b := by
      intro b hb
      cases hold : (s.cells p.call.cell).stored with
      | none =>
        obtain rfl : a = b := by simpa [Cell.store, hold] using hb
        exact ha
      | some old =>
        obtain rfl : old = b := by simpa [Cell.store, hold] using hb
        exact hf.stored _ _ hold
    refine ⟨(hf.withCell hstore).withThread ⟨hth.stack, fun i hi => ?_⟩, fun u call b he => by cases he⟩
    obtain rfl : p.call.cell = i := Option.some.inj hi
    refine ⟨_, rfl, ?_⟩
    cases hnew : ((s.cells p.call.cell).store a).stored with
    | none => exact ha
    | some b => exact hstore b hnew
  | panic ht =>
    rw [ht] at hth
    cases hth.stage with
    | panic h => cases h
  | pause ht =>
    rw [ht] at hth
    cases hth.stage with
    | pause h => exact ⟨hf.withThread ⟨hth.stack, h⟩, nofun⟩
  | peek ht =>
    rw [ht] at hth
    cases hth.stage with
    | peek h => exact ⟨hf.withThread ⟨hth.stack, h _⟩, nofun⟩
  | attempt ht =>
    rw [ht] at hth
    exact ⟨hf.withThread ⟨hth.stack, Faithful.call hth.stage⟩, nofun⟩
  | hit ht hstored =>
    rw [ht] at hth
    have ha := hf.stored _ _ hstored
    exact ⟨hf.withThread (hth.answered ha), fun _ _ _ => sound_of_returned ha⟩
  | found ht hstored =>
    rw [ht] at hth
    have ha := hf.stored _ _ hstored
    exact ⟨hf.withLock.withThread (hth.answered ha), fun _ _ _ => sound_of_returned ha⟩
  | @reentry stack p ht hnone hr =>
    have ha : F.Sound p.call.cell (State.cycle p.call) :=
      .inr ⟨reachesCycle_of_refuses hf hs (.of_runner ht hnone hr), _, rfl⟩
    rw [ht] at hth
    exact ⟨hf.withLock.withThread (hth.answered ha), fun _ _ _ => sound_of_returned ha⟩
  | @refuse stack p r ht hw =>
    have ha : F.Sound p.call.cell (State.cycle p.call) :=
      .inr ⟨reachesCycle_of_refuses hf hs (.consult ht hw), _, rfl⟩
    rw [ht] at hth
    exact ⟨hf.withLock.withThread (hth.answered ha), fun _ _ _ => sound_of_returned ha⟩
  | miss ht | behind ht | wake ht =>
    rw [ht] at hth
    exact ⟨hf.withThread hth.onward, nofun⟩
  | enter ht | rise ht =>
    rw [ht] at hth
    exact ⟨hf.withLock.withThread hth.onward, nofun⟩
  | sleep ht =>
    rw [ht] at hth
    exact ⟨hf.withWaits.withLock.withThread hth.onward, nofun⟩
  | unlist ht =>
    rw [ht] at hth
    exact ⟨hf.withWaits.withThread hth.onward, nofun⟩
  | @start stack p ht =>
    rw [ht] at hth
    have hp : F.FaithfulCall (innermost stack) p := hth.stage
    have hbody : F.Faithful (some p.call.cell) (F.body p.call.body) := by
      rw [hp.body]
      exact faithful_body F _
    have hkeep : ∀ a, ((s.cells p.call.cell).taken t).stored = some a → F.Sound p.call.cell a :=
      fun a ha => hf.stored _ _ ha
    exact ⟨(hf.withCell hkeep).withLock.withThread ⟨⟨hp, hth.stack⟩, hbody⟩, fun u call b he => by cases he⟩
  | @land p stack o ht =>
    rw [ht] at hth
    have hkeep : ∀ a, (s.cells p.call.cell).released.stored = some a → F.Sound p.call.cell a :=
      fun a ha => hf.stored _ _ ha
    exact ⟨(hf.withCell hkeep).withLock.withThread ⟨hth.stack, hth.stage⟩, nofun⟩
  | clear ht =>
    rw [ht] at hth
    exact ⟨hf.withWaits.withLock.withThread ⟨hth.stack, hth.stage⟩, nofun⟩
  | @leave p stack o ht =>
    rw [ht] at hth
    obtain ⟨hp, hstack⟩ : F.FaithfulCall (innermost stack) p ∧ F.FaithfulStack stack := hth.stack
    obtain ⟨a, rfl, ha⟩ : ∃ a, o = .answered a ∧ F.Sound p.call.cell a := hth.stage _ rfl
    exact ⟨hf.announce.withThread ⟨hstack, hp.next a ha⟩, fun _ _ _ => sound_of_returned ha⟩

end

/-! ## Runs -/

section

variable [DecidableEq τ] [DecidableEq κ] {programs : τ → Computation κ κ α} {es : List (Event τ κ κ α)}
  {s : State τ κ κ α}

omit [DecidableEq τ] [DecidableEq κ] in
theorem trusted_initial (hask : ∀ t, (programs t).Asks) : F.Trusted (State.initial programs) where
  thread t := ⟨trivial, faithful_of_asks (hask t)⟩
  stored _ _ h := nomatch h

theorem trusted_of_runs (hask : ∀ t, (programs t).Asks) (h : State.Runs F.body (.initial programs) es s) :
    F.Trusted s ∧ ∀ t call a, .returned t call a ∈ es → F.Sound call.cell a := by
  refine (h.maintains (P := fun es s => F.Trusted s ∧ ∀ t call a, .returned t call a ∈ es →
    F.Sound call.cell a) (State.consistent_initial programs) ⟨trusted_initial hask, by simp⟩ ?_).2
  rintro es s t s' e hs ⟨hf, hes⟩ hm
  obtain ⟨hf', he⟩ := hf.move hs hm
  refine ⟨hf', fun u call a hmem => ?_⟩
  rcases List.mem_append.1 hmem with hmem | hmem
  · exact hes u call a hmem
  · exact he u call a (Option.mem_toList.1 hmem)

/-- **Outcomes of a family.** In every run of threads that call for cells of a family: a stored answer is
the value of its cell if the cell reaches no cycle of needs, and otherwise reports a cycle, and so is
every answer that a call was given; in any two runs, of whatever threads, a cell holds the same value or
reports a cycle in both; and when the family has no cycle, no call is ever given an error. -/
theorem family_outcomes (hask : ∀ t, (programs t).Asks) (h : State.Runs F.body (.initial programs) es s) :
    (∀ i a, (s.cells i).stored = some a →
      (¬ F.ReachesCycle i → ∃ v, F.HasValue i v ∧ a = .ok v) ∧
      (F.ReachesCycle i → ∃ owner, a = .error (.cycle owner))) ∧
    (∀ t call a, .returned t call a ∈ es →
      (¬ F.ReachesCycle call.cell → ∃ v, F.HasValue call.cell v ∧ a = .ok v) ∧
      (F.ReachesCycle call.cell → ∃ owner, a = .error (.cycle owner))) ∧
    (∀ {σ : Type} [DecidableEq σ] (programs' : σ → Computation κ κ α) es' s', (∀ t, (programs' t).Asks) →
      State.Runs F.body (.initial programs') es' s' →
      ∀ i a b, (s.cells i).stored = some a → (s'.cells i).stored = some b →
        (∃ v, a = .ok v ∧ b = .ok v) ∨
          ∃ owner owner', a = .error (.cycle owner) ∧ b = .error (.cycle owner')) ∧
    ((∀ i, ¬ F.ReachesCycle i) → (∀ t call a, .returned t call a ∈ es → ∃ v, a = .ok v) ∧
      ∀ i a, (s.cells i).stored = some a → ∃ v, a = .ok v) := by
  obtain ⟨hf, hes⟩ := trusted_of_runs hask h
  refine ⟨fun i a ha => ?_, fun t call a ha => ?_, fun programs' es' s' hask' h' i a b ha hb => ?_,
    fun hfree => ⟨fun t call a ha => ?_, fun i a ha => ?_⟩⟩
  · exact ⟨(hf.stored i a ha).of_not_reachesCycle, (hf.stored i a ha).of_reachesCycle⟩
  · exact ⟨(hes t call a ha).of_not_reachesCycle, (hes t call a ha).of_reachesCycle⟩
  · exact (hf.stored i a ha).agree ((trusted_of_runs hask' h').1.stored i b hb)
  · obtain ⟨v, -, rfl⟩ := (hes t call a ha).of_not_reachesCycle (hfree _)
    exact ⟨v, rfl⟩
  · obtain ⟨v, -, rfl⟩ := (hf.stored i a ha).of_not_reachesCycle (hfree i)
    exact ⟨v, rfl⟩

end

/-- Cell 0 needs cell 1, which needs cell 0, and both threads call into this circle; cell 2 is outside it. -/
theorem family_outcomes_two_callers :
    let F : Family (Fin 3) Nat :=
      { needs := fun i => if i = 0 then [2, 1] else if i = 1 then [0] else []
        combine := fun _ vs => vs.sum + 5
        owner := fun _ _ => "dep" }
    let programs : Bool → Computation (Fin 3) (Fin 3) Nat
      | false => .request ⟨0, "zero", 0⟩ .finish
      | true => .request ⟨1, "one", 1⟩ .finish
    let s := ((State.initial programs).run F.body [false, true] 80).1
    (∃ v, F.HasValue 2 v ∧ (s.cells 2).stored = some (.ok v)) ∧
      F.ReachesCycle 0 ∧ ∃ owner, (s.cells 0).stored = some (.error (.cycle owner)) := by
  intro F programs s
  have hask : ∀ t, (programs t).Asks := fun t => by cases t <;> exact .attempt rfl fun _ => .finish
  have hruns : State.Runs F.body (.initial programs) _ s := State.runs_run (by decide) 80 _
  obtain ⟨hstored, -⟩ := family_outcomes hask hruns
  have htwo : (s.cells 2).stored = some (.ok 5) := rfl
  have hzero : (s.cells 0).stored = some (.error (.cycle "dep")) := rfl
  have hfree : ¬ F.ReachesCycle 2 := fun h => by
    obtain ⟨j, hj, -⟩ := reachesCycle_iff.1 h
    cases hj
  have hcycle : F.ReachesCycle 0 := by
    have h01 : F.Needs 0 1 := List.mem_cons_of_mem _ List.mem_cons_self
    have h10 : F.Needs 1 0 := List.mem_cons_self
    exact .of_transGen (.head h01 (.single h10))
  obtain ⟨v, hv, heq⟩ := (hstored 2 _ htwo).1 hfree
  obtain ⟨owner, heq'⟩ := (hstored 0 _ hzero).2 hcycle
  exact ⟨⟨v, hv, heq ▸ htwo⟩, hcycle, owner, heq' ▸ hzero⟩

end Family

end TernBackend
