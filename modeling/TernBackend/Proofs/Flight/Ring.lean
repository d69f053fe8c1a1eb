import TernBackend.Proofs.Flight.Consistency
import TernBackend.Proofs.Flight.Schedule

/-!
# Refused calls

A call is told of a cycle in two places: where the caller finds itself computing the cell, and where the
table of waits leads from the thread that computes the cell back to the caller. The table may hold entries
of threads that have been woken and have not run yet, and while a cell lands, entries about that cell. Such
an entry ends a chain, since the thread that it names waits for nobody, and the chain that was found goes
on to the caller, which is in a call. So every entry of that chain tells of a computation that has not
landed (`reaches_of_refuses`).

The threads of the chain form a knot: each is in a call for a cell that one of them is computing. Nobody
outside can untie it, and inside only by refusing a call (`Knot.move`, `Knot.runs`). So the caller, had it
waited, would have waited until one of them is told of a cycle, and without that for ever
(`refused_only_on_ring`).
-/

namespace TernBackend

open Relation

variable {τ κ β α : Type}

theorem Cell.verdict_eq_reentry [DecidableEq τ] {c : Cell τ α} {me : τ} :
    c.verdict me = .reentry ↔ c = ⟨none, some me⟩ := by
  rcases c with ⟨_ | a, _ | r⟩
  · simp [Cell.verdict]
  · by_cases hr : r = me <;> simp [Cell.verdict, hr]
  · simp [Cell.verdict]
  · simp [Cell.verdict]

namespace State

variable {s s' : State τ κ β α} {t u v : τ}

/-! ## Chains of waits -/

/-- `t` waits for a cell without an answer whose computation by `u` has not landed. -/
def WaitsFor (s : State τ κ β α) (t u : τ) : Prop :=
  ∃ d, (s.standing t).awaits = some d ∧ s.cells d = ⟨none, some u⟩

/-- What a thread in a call computes has no answer yet, and the thread is noted as its runner. -/
theorem Consistent.cell_of_marked (hs : s.Consistent) {stack : List (Pending κ β α)} {w : Waypoint τ}
    {p : Pending κ β α} (ht : s.threads t = ⟨stack, .calling w p⟩) {c : κ}
    (hr : (s.cells c).runner = some t) : s.cells c = ⟨none, some t⟩ := by
  have hmarked : c ∈ Thread.cellsOf stack := by
    have h := (hs.runner_iff c t).1 hr
    rwa [standing, ht, Thread.marked_calling] at h
  have hstored : (s.cells c).stored = none :=
    hs.unstored t c (by rwa [standing, ht, Thread.inside_calling])
  rw [← hstored, ← hr]

theorem Consistent.calling_of_waits (hs : s.Consistent) (h : WaitEdge.Waits s.waits t u) :
    ∃ stack w p, s.threads t = ⟨stack, .calling w p⟩ := by
  obtain ⟨d, hd⟩ := h
  obtain ⟨stack, w, p, ht, -⟩ := Thread.calling_of_awaits (hs.entry t u d hd).1
  exact ⟨stack, w, p, ht⟩

/-- An entry about a thread that is in a call is about a computation that has not landed. -/
theorem Consistent.waitsFor_of_waits (hs : s.Consistent) (h : WaitEdge.Waits s.waits t u)
    {stack : List (Pending κ β α)} {w : Waypoint τ} {p : Pending κ β α}
    (hu : s.threads u = ⟨stack, .calling w p⟩) : s.WaitsFor t u := by
  obtain ⟨d, hd⟩ := h
  obtain ⟨hawaits, -, hrunner | ⟨hnotifies, -⟩⟩ := hs.entry t u d hd
  · exact ⟨d, hawaits, hs.cell_of_marked hu hrunner⟩
  · rw [standing, hu, Thread.notifies_calling] at hnotifies
    cases hnotifies

/-- A chain of entries that ends at a thread in a call holds none about a computation that has landed:
every thread on it is in a call, the last one by assumption and the others because they wait. -/
theorem Consistent.reaches_of_waits (hs : s.Consistent) {stack : List (Pending κ β α)} {w : Waypoint τ}
    {p : Pending κ β α} (ht : s.threads t = ⟨stack, .calling w p⟩)
    (h : ReflTransGen (WaitEdge.Waits s.waits) u t) : ReflTransGen s.WaitsFor u t := by
  induction h using ReflTransGen.head_induction_on with
  | refl => exact .refl
  | @head u v huv hvt ih =>
    obtain ⟨stack', w', p', hv⟩ : ∃ stack w p, s.threads v = ⟨stack, .calling w p⟩ := by
      rcases hvt.cases_head with rfl | ⟨v', hv', -⟩
      · exact ⟨stack, w, p, ht⟩
      · exact hs.calling_of_waits hv'
    exact ih.head (hs.waitsFor_of_waits huv hv)

/-! ## Refusals -/

variable [DecidableEq τ]

/-- The next step of `t` tells it, in answer to `p`, of a cycle, having found `r` computing the cell. -/
inductive Refuses (s : State τ κ β α) (t : τ) : Pending κ β α → τ → Prop
  | reentry {stack p} (ht : s.threads t = ⟨stack, .calling .inspect p⟩)
      (h : (s.cells p.call.cell).verdict t = .reentry) : Refuses s t p t
  | consult {stack p r} (ht : s.threads t = ⟨stack, .calling (.consult r) p⟩)
      (h : WaitEdge.leadsTo s.waits r t = true) : Refuses s t p r

theorem Refuses.of_runner {stack : List (Pending κ β α)} {p : Pending κ β α}
    (ht : s.threads t = ⟨stack, .calling .inspect p⟩) (hnone : (s.cells p.call.cell).stored = none)
    (hr : (s.cells p.call.cell).runner = some t) : s.Refuses t p t :=
  .reentry ht (Cell.verdict_eq_reentry.2 (by rw [← hnone, ← hr]))

theorem Refuses.calling {p : Pending κ β α} {r : τ} (h : s.Refuses t p r) :
    ∃ stack w, s.threads t = ⟨stack, .calling w p⟩ := by
  cases h with
  | reentry ht => exact ⟨_, _, ht⟩
  | consult ht => exact ⟨_, _, ht⟩

/-- Who is refused is computing the cell itself, or is at the end of a chain of waits that starts where
the cell is being computed. -/
theorem Consistent.reaches_of_refuses (hs : s.Consistent) {p : Pending κ β α} {r : τ}
    (h : s.Refuses t p r) : s.cells p.call.cell = ⟨none, some r⟩ ∧ ReflTransGen s.WaitsFor r t := by
  cases h with
  | reentry ht h => exact ⟨Cell.verdict_eq_reentry.1 h, .refl⟩
  | @consult stack p r ht hleads =>
    have hbehind : (s.standing t).behind = some (p.call.cell, r) := by rw [standing, ht]; rfl
    obtain ⟨hrunner, hne⟩ := hs.behind t p.call.cell r hbehind
    have hwaits : ReflTransGen (WaitEdge.Waits s.waits) r t :=
      (WaitEdge.leadsTo_iff_waits hs.single).1 hleads
    obtain ⟨stack', w', p', hr⟩ : ∃ stack w p, s.threads r = ⟨stack, .calling w p⟩ := by
      rcases hwaits.cases_head with rfl | ⟨v, hv, -⟩
      · exact absurd rfl hne
      · exact hs.calling_of_waits hv
    exact ⟨hs.cell_of_marked hr hrunner, hs.reaches_of_waits ht hwaits⟩

variable [DecidableEq κ] {bodies : β → Computation κ β α} {e : Option (Event τ κ β α)}

/-- Who returns was told the stored answer, or has been refused. -/
theorem Move.returned_or_refused {call : Call κ β} {a : Answer α}
    (h : Move bodies s t s' (some (.returned u call a))) (hs : s.Consistent) :
    (s.cells call.cell).stored = some a ∨ a = cycle call ∧ ∃ p r, p.call = call ∧ s.Refuses t p r := by
  generalize he : some (Event.returned u call a) = e at h
  cases h with
  | hit ht hstored | found ht hstored =>
    cases he
    exact .inl hstored
  | @reentry stack p ht hnone hrunner =>
    cases he
    exact .inr ⟨rfl, p, t, rfl, .of_runner ht hnone hrunner⟩
  | @refuse stack p r ht hleads =>
    cases he
    exact .inr ⟨rfl, p, r, rfl, .consult ht hleads⟩
  | @leave p stack o ht =>
    cases o with
    | answered b =>
      cases he
      exact .inl (hs.answered t _ _ (by rw [standing, ht]; rfl))
    | panicked m => cases he
  | _ => cases he

theorem Move.thread_of_returned {call : Call κ β} {a : Answer α}
    (h : Move bodies s t s' (some (.returned u call a))) : u = t := by
  generalize he : some (Event.returned u call a) = e at h
  cases h with
  | @leave p stack o => cases o <;> cases he; rfl
  | _ => cases he <;> rfl

/-! ## Knots -/

/-- A call that has not been answered, with what waits below it. -/
structure HeldCall (τ κ β α : Type) where
  thread : τ
  stack : List (Pending κ β α)
  pending : Pending κ β α

/-- Calls of which each waits for a cell that the thread of one of them is computing. -/
structure Knot (s : State τ κ β α) (K : Set (HeldCall τ κ β α)) : Prop where
  calling : ∀ k ∈ K, ∃ w, s.threads k.thread = ⟨k.stack, .calling w k.pending⟩
  cell : ∀ k ∈ K, ∃ l ∈ K, s.cells k.pending.call.cell = ⟨none, some l.thread⟩
  /-- No other thread computes the cell. -/
  marked : ∀ k ∈ K, ∀ u, k.pending.call.cell ∈ (s.standing u).marked → ∃ l ∈ K, l.thread = u

/-- A thread in a call for a cell that is being computed stays in it, unless it is told of a cycle. -/
theorem Move.calling_self {stack : List (Pending κ β α)} {w : Waypoint τ} {p : Pending κ β α} {r : τ}
    (h : Move bodies s t s' e) (ht : s.threads t = ⟨stack, .calling w p⟩)
    (hcell : s.cells p.call.cell = ⟨none, some r⟩) :
    (e = none ∧ (∀ c, s'.cells c = s.cells c) ∧ ∃ w', s'.threads t = ⟨stack, .calling w' p⟩) ∨
      e = some (.returned t p.call (cycle p.call)) := by
  cases h <;> simp_all

/-- A thread in a call moves by itself, but for being woken. -/
theorem Move.calling_other {stack : List (Pending κ β α)} {w : Waypoint τ} {p : Pending κ β α}
    (h : Move bodies s t s' e) (hu : u ≠ t) (hcall : s.threads u = ⟨stack, .calling w p⟩) :
    ∃ w', s'.threads u = ⟨stack, .calling w' p⟩ := by
  cases h with
  | @leave q stack' o ht =>
    rw [withThread_threads, if_neg hu, announce_threads, hcall]
    cases w with
    | asleep =>
      by_cases hq : p.call.cell = q.call.cell
      · exact ⟨.woken, if_pos hq⟩
      · exact ⟨.asleep, if_neg hq⟩
    | _ => exact ⟨_, rfl⟩
  | _ => exact ⟨w, by simpa [hu] using hcall⟩

/-- A thread that is not noted as computing a cell does not touch it while another one is. -/
theorem Move.cells_of_not_marked {c : κ} {r : τ} (h : Move bodies s t s' e)
    (hc : c ∉ (s.standing t).marked) (hr : (s.cells c).runner = some r) : s'.cells c = s.cells c := by
  have hst : s.standing t = (s.threads t).standing := rfl
  cases h with
  | @finish p stack a ht | @land p stack o ht =>
    have hne : c ≠ p.call.cell := fun hcp => hc (by simp [hst, ht, Thread.standing, Thread.cellsOf, hcp])
    simp [hne]
  | @start stack p ht hnone hrunner =>
    have hne : c ≠ p.call.cell := fun hcp => by
      rw [hcp, hrunner] at hr
      cases hr
    simp [hne]
  | _ => rfl

/-- Nobody takes a cell that is being computed. -/
theorem Move.marked_of_runner {c : κ} {r : τ} (h : Move bodies s t s' e)
    (hr : (s.cells c).runner = some r) (hc : c ∈ (s'.standing u).marked) : c ∈ (s.standing u).marked := by
  have hst : s.standing t = (s.threads t).standing := rfl
  by_cases hu : u = t
  · subst hu
    cases h with
    | @start stack p ht hnone hrunner =>
      have hne : c ≠ p.call.cell := fun hcp => by
        rw [hcp, hrunner] at hr
        cases hr
      simpa [hst, ht, Thread.standing, Thread.cellsOf, hne] using hc
    | @land p stack o ht =>
      have hc : c ∈ Thread.cellsOf stack := by simpa [Thread.standing] using hc
      simp [hst, ht, Thread.standing, hc]
    | _ => simp_all [Thread.standing, Thread.cellsOf]
  · cases h with
    | leave ht =>
      simp only [standing_withThread, if_neg hu, standing_announce] at hc
      split at hc <;> exact hc
    | _ => simpa [hu] using hc

/-- A knot stays as long as none of its calls is told of a cycle, and none of them is answered. -/
theorem Knot.move {K : Set (HeldCall τ κ β α)} (hk : s.Knot K) (h : Move bodies s t s' e)
    (hno : ∀ k ∈ K, e ≠ some (.returned k.thread k.pending.call (cycle k.pending.call))) :
    s'.Knot K ∧ ∀ k ∈ K, ∀ call a, e ≠ some (.returned k.thread call a) := by
  have hmarked : ∀ k ∈ K, ∀ u, k.pending.call.cell ∈ (s'.standing u).marked → ∃ l ∈ K, l.thread = u :=
    fun k hkK u hu =>
      have ⟨_, _, hcell⟩ := hk.cell k hkK
      hk.marked k hkK u (h.marked_of_runner (congrArg Cell.runner hcell) hu)
  -- a thread of the knot only moves on inside its call; any other computes none of its cells
  by_cases hmem : ∃ k ∈ K, k.thread = t
  · obtain ⟨k, hkK, rfl⟩ := hmem
    obtain ⟨w, ht⟩ := hk.calling k hkK
    obtain ⟨l, -, hcell⟩ := hk.cell k hkK
    obtain ⟨rfl, hcells, w', ht'⟩ := (h.calling_self ht hcell).resolve_right (hno k hkK)
    refine ⟨⟨fun m hm => ?_, fun m hm => ?_, hmarked⟩, fun _ _ _ _ => nofun⟩
    · obtain ⟨wm, htm⟩ := hk.calling m hm
      by_cases hmk : m.thread = k.thread
      · rw [hmk] at htm ⊢
        obtain ⟨hstack, -, hpending⟩ : k.stack = m.stack ∧ w = wm ∧ k.pending = m.pending := by
          simpa [ht] using htm
        exact ⟨w', by rw [ht', hstack, hpending]⟩
      · exact h.calling_other hmk htm
    · rw [hcells]
      exact hk.cell m hm
  · have hother : ∀ k ∈ K, k.thread ≠ t := fun k hkK hkt => hmem ⟨k, hkK, hkt⟩
    refine ⟨⟨fun k hkK => ?_, fun k hkK => ?_, hmarked⟩, fun k hkK call a he => ?_⟩
    · obtain ⟨w, ht⟩ := hk.calling k hkK
      exact h.calling_other (hother k hkK) ht
    · obtain ⟨l, hlK, hcell⟩ := hk.cell k hkK
      refine ⟨l, hlK, ?_⟩
      rw [h.cells_of_not_marked (fun hc => hmem (hk.marked k hkK t hc)) (congrArg Cell.runner hcell)]
      exact hcell
    · subst he
      exact hother k hkK h.thread_of_returned

theorem Knot.runs {K : Set (HeldCall τ κ β α)} {es : List (Event τ κ β α)} (hk : s.Knot K)
    (h : Runs bodies s es s')
    (hno : ∀ k ∈ K, .returned k.thread k.pending.call (cycle k.pending.call) ∉ es) :
    s'.Knot K ∧ ∀ k ∈ K, ∀ call a, .returned k.thread call a ∉ es := by
  refine h.preserves (P := fun es s =>
    (∀ k ∈ K, .returned k.thread k.pending.call (cycle k.pending.call) ∉ es) →
      s.Knot K ∧ ∀ k ∈ K, ∀ call a, .returned k.thread call a ∉ es) (fun _ => ⟨hk, by simp⟩) ?_ hno
  intro es s t s' e ih hm hno
  obtain ⟨hk, hes⟩ := ih fun k hkK hmem => hno k hkK (List.mem_append_left _ hmem)
  obtain ⟨hk', he⟩ := hk.move hm fun k hkK he =>
    hno k hkK (List.mem_append_right _ (by simp [he]))
  refine ⟨hk', fun k hkK call a hmem => ?_⟩
  rcases List.mem_append.1 hmem with hmem | hmem
  · exact hes k hkK call a hmem
  · exact he k hkK call a (Option.mem_toList.1 hmem)

/-! ## Waiting instead -/

omit [DecidableEq κ] in
/-- The calls of the threads on the way from `r` back to `t`. -/
def ring (s : State τ κ β α) (t r : τ) : Set (HeldCall τ κ β α) :=
  {k | ReflTransGen s.WaitsFor r k.thread ∧ ReflTransGen s.WaitsFor k.thread t ∧
    ∃ w, s.threads k.thread = ⟨k.stack, .calling w k.pending⟩}

/-- The state in which `t` waits after all for the cell of its call, which `r` is computing. -/
def waiting (s : State τ κ β α) (t : τ) (p : Pending κ β α) (r : τ) : State τ κ β α :=
  ((s.withWaits (s.waits ++ [⟨t, r, p.call.cell⟩])).withLock p.call.cell none).withStage t
    (.calling .asleep p)

omit [DecidableEq κ] in
/-- A thread on the way is in a call. -/
theorem exists_mem_ring {p : Pending κ β α} {r : τ} (h : s.Refuses t p r)
    (hru : ReflTransGen s.WaitsFor r u) (hut : ReflTransGen s.WaitsFor u t) :
    ∃ k ∈ s.ring t r, k.thread = u := by
  obtain ⟨stack, w, q, hu⟩ : ∃ stack w q, s.threads u = ⟨stack, .calling w q⟩ := by
    rcases hut.cases_head with rfl | ⟨v, ⟨d, hawaits, -⟩, -⟩
    · obtain ⟨stack, w, ht⟩ := h.calling
      exact ⟨stack, w, p, ht⟩
    · obtain ⟨stack, w, q, hu, -⟩ := Thread.calling_of_awaits hawaits
      exact ⟨stack, w, q, hu⟩
  exact ⟨⟨u, stack, q⟩, ⟨hru, hut, w, hu⟩, rfl⟩

omit [DecidableEq κ] in
/-- Each call on the way is for a cell that the next thread is computing; that of `t`, for the one that
`r` is computing. -/
theorem cell_of_mem_ring {p : Pending κ β α} {r : τ} (hs : s.Consistent) (h : s.Refuses t p r)
    {k : HeldCall τ κ β α} (hk : k ∈ s.ring t r) :
    ∃ l ∈ s.ring t r, s.cells k.pending.call.cell = ⟨none, some l.thread⟩ := by
  obtain ⟨hcell, hrt⟩ := hs.reaches_of_refuses h
  obtain ⟨hrk, hkt, w, hthread⟩ := hk
  suffices hnext : ∃ v, s.cells k.pending.call.cell = ⟨none, some v⟩ ∧
      ReflTransGen s.WaitsFor r v ∧ ReflTransGen s.WaitsFor v t by
    obtain ⟨v, hv, hrv, hvt⟩ := hnext
    obtain ⟨l, hl, rfl⟩ := exists_mem_ring h hrv hvt
    exact ⟨l, hl, hv⟩
  rcases hkt.cases_head with hkt | ⟨v, hkv, hvt⟩
  · obtain ⟨stack, w', ht⟩ := h.calling
    obtain ⟨-, -, rfl⟩ : stack = k.stack ∧ w' = w ∧ p = k.pending := by
      simpa [← hkt, hthread, eq_comm] using ht
    exact ⟨r, hcell, .refl, hrt⟩
  · obtain ⟨d, hawaits, hd⟩ := hkv
    obtain ⟨stack, w', q, hq, rfl⟩ := Thread.calling_of_awaits hawaits
    obtain ⟨-, -, rfl⟩ : k.stack = stack ∧ w = w' ∧ k.pending = q := by simpa [hthread] using hq
    exact ⟨v, hd, hrk.tail ⟨_, hawaits, hd⟩, hvt⟩

/-- Had it waited, the caller would have closed a knot. -/
theorem knot_waiting {p : Pending κ β α} {r : τ} (hs : s.Consistent) (h : s.Refuses t p r) :
    (s.waiting t p r).Knot (s.ring t r) := by
  obtain ⟨stack, w, ht⟩ := h.calling
  have hthreads : ∀ u, (s.waiting t p r).threads u =
      if u = t then ⟨stack, .calling .asleep p⟩ else s.threads u := by
    intro u
    simp [waiting, withStage, ht]
  have hmarked : ∀ u, ((s.waiting t p r).standing u).marked = (s.standing u).marked := by
    intro u
    rw [standing, hthreads, standing]
    split
    next hu => rw [hu, ht, Thread.marked_calling, Thread.marked_calling]
    next => rfl
  -- waiting changes neither the cells nor what any thread is noted for
  constructor
  case calling =>
    rintro k ⟨-, -, wk, hk⟩
    rw [hthreads]
    split
    next hkt =>
      obtain ⟨hstack, -, hpending⟩ : k.stack = stack ∧ wk = w ∧ k.pending = p := by
        simpa [hkt, ht, eq_comm] using hk
      exact ⟨.asleep, by rw [hstack, hpending]⟩
    next => exact ⟨wk, hk⟩
  case cell => exact fun k => cell_of_mem_ring hs h
  case marked =>
    intro k hk u hu
    obtain ⟨l, hl, hcell⟩ := cell_of_mem_ring hs h hk
    rw [hmarked] at hu
    have hrunner := (hs.runner_iff _ u).2 hu
    rw [hcell] at hrunner
    exact ⟨l, hl, Option.some.inj hrunner⟩

/-! ## The result -/

/-- **No false cycle.** When a call returns in a reachable state, it is told the answer stored in the
cell, or it is refused. When it is refused, the cell has no answer and is being computed, by the caller
itself or by a thread from which a chain of threads, each waiting for a cell without an answer that the
next one has not landed, leads to the caller. Then the calls of these threads, the refused one among them,
are held for ever: had the caller waited, none of them would be answered in any run in which none of them
is told of a cycle, and the cells that they are for would get no answer. -/
theorem refused_only_on_ring (h : Reachable bodies s) :
    (∀ t u call a s', s.step bodies t = some (s', some (.returned u call a)) → u = t ∧
      ((s.cells call.cell).stored = some a ∨
        a = cycle call ∧ ∃ p r, p.call = call ∧ s.Refuses t p r)) ∧
    ∀ t p r, s.Refuses t p r →
      s.cells p.call.cell = ⟨none, some r⟩ ∧
      ReflTransGen s.WaitsFor r t ∧
      (∃ k ∈ s.ring t r, k.thread = t ∧ k.pending = p) ∧
      ∀ es s', Runs bodies (s.waiting t p r) es s' →
        (∀ k ∈ s.ring t r, .returned k.thread k.pending.call (cycle k.pending.call) ∉ es) →
        ∀ k ∈ s.ring t r, (∃ w, s'.threads k.thread = ⟨k.stack, .calling w k.pending⟩) ∧
          (s'.cells k.pending.call.cell).stored = none ∧ ∀ call a, .returned k.thread call a ∉ es := by
  have hs := h.consistent
  constructor
  · intro t u call a s' hstep
    have hm : Move bodies s t s' (some (.returned u call a)) := move_of_step hstep
    exact ⟨hm.thread_of_returned, hm.returned_or_refused hs⟩
  · intro t p r hrefuse
    obtain ⟨hcell, hchain⟩ := hs.reaches_of_refuses hrefuse
    refine ⟨hcell, hchain, ?_, fun es s' hruns hno k hk => ?_⟩
    · obtain ⟨stack, w, ht⟩ := hrefuse.calling
      exact ⟨⟨t, stack, p⟩, ⟨hchain, .refl, w, ht⟩, rfl, rfl⟩
    · obtain ⟨hknot, hreturned⟩ := (knot_waiting hs hrefuse).runs hruns hno
      obtain ⟨l, -, hstored⟩ := hknot.cell k hk
      exact ⟨hknot.calling k hk, by rw [hstored], hreturned k hk⟩

/-- Two cells need each other, and each of two threads computes one. The first waits for the second,
which is refused and would have waited for the first. -/
theorem refused_only_on_ring_crossing :
    let bodies : Bool → Computation Bool Bool Nat := fun c => .pause (.request ⟨!c, "cell", !c⟩ .finish)
    let programs : Bool → Computation Bool Bool Nat := fun t => .request ⟨t, "cell", t⟩ .finish
    let s := ((initial programs).run bodies [false, true] 18).1
    ∃ p : Pending Bool Bool Nat, s.Refuses true p false ∧ p.call.cell = false ∧
      s.cells false = ⟨none, some false⟩ ∧ ReflTransGen s.WaitsFor false true ∧
      (∃ k ∈ s.ring true false, k.thread = true ∧ k.pending = p) ∧
      ∀ es s', Runs bodies (s.waiting true p false) es s' →
        (∀ k ∈ s.ring true false, .returned k.thread k.pending.call (cycle k.pending.call) ∉ es) →
        (s'.cells false).stored = none := by
  intro bodies programs s
  have hreach : Reachable bodies s := ⟨programs, _, runs_run (by decide) 18 _⟩
  have hrefuse : s.Refuses true ⟨⟨false, "cell", false⟩, _⟩ false := .consult rfl rfl
  obtain ⟨hcell, hchain, ⟨k, hk, hkt, hkp⟩, hheld⟩ := (refused_only_on_ring hreach).2 _ _ _ hrefuse
  refine ⟨_, hrefuse, rfl, hcell, hchain, ⟨k, hk, hkt, hkp⟩, fun es s' hruns hno => ?_⟩
  obtain ⟨-, hstored, -⟩ := hheld es s' hruns hno k hk
  rwa [hkp] at hstored

end State
end TernBackend
