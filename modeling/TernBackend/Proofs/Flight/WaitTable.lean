import TernBackend.Proofs.Flight.Deadlock

/-!
# What the table of waits says

Every entry of the table is true: its waiter is in the part of a call that waits, and its runner is computing the cell
or is about to remove the entry. No thread has two entries, those who are stuck have one, and the entries go in no
circle. When all calls have ended the table is empty, no lock is held and nobody is noted as computing, so what comes
later finds everything as at the start, but for the answers that are stored (`waits_exact`).
-/

namespace TernBackend.State

open Relation

variable {τ κ β α : Type} {s : State τ κ β α} {t : τ} {c : κ}

/-- The thread is in the part of a call for the cell that waits: asleep, or awake with its entry to be removed. -/
def WaitsAt (s : State τ κ β α) (t : τ) (c : κ) : Prop :=
  ∃ stack w p, s.threads t = ⟨stack, .calling w p⟩ ∧ p.call.cell = c ∧ (w = .asleep ∨ w = .woken ∨ w = .unlist)

/-- The thread is landing the cell. It has noted that nobody computes it, and is about to remove the entries. -/
def Clears (s : State τ κ β α) (t : τ) (c : κ) : Prop :=
  ∃ p stack o, s.threads t = ⟨p :: stack, .landing .clear o⟩ ∧ p.call.cell = c

/-! ## Entries -/

theorem waitsAt_of_awaits (h : (s.standing t).awaits = some c) : s.WaitsAt t c := by
  unfold standing at h
  rcases ht : s.threads t with ⟨stack, stage⟩
  rw [ht] at h
  cases stage with
  | calling w p =>
    refine ⟨stack, w, p, ht, ?_⟩
    cases w with
    | asleep | woken | unlist => exact ⟨Option.some.inj h, by simp⟩
    | _ => cases h
  | landing d o => cases d <;> cases stack <;> cases h
  | computing rest => cases h
  | ended o => cases h

/-- Who is still to announce a cell and holds its lock has not removed the entries. -/
theorem clears_of_notifies (hn : (s.standing t).notifies = some c) (hh : (s.standing t).holds = some c) :
    s.Clears t c := by
  unfold standing at hn hh
  rcases ht : s.threads t with ⟨stack, stage⟩
  rw [ht] at hn hh
  cases stage with
  | landing d o =>
    cases stack with
    | nil => cases d <;> cases hn
    | cons p stack =>
      cases d with
      | land => cases hn
      | clear => exact ⟨p, stack, o, ht, Option.some.inj hn⟩
      | announce => cases hh
  | calling w p => cases w <;> cases hn
  | computing rest => cases hn
  | ended o => cases hn

theorem WaitsAt.inCall (h : s.WaitsAt t c) : s.InCall t := by
  obtain ⟨stack, w, p, ht, -⟩ := h
  exact .inr ⟨w, p, by rw [ht]⟩

/-! ## When all calls have ended -/

theorem Consistent.waits_of_idle (hs : s.Consistent) (hidle : ∀ t, ¬ s.InCall t) : s.waits = [] := by
  refine List.eq_nil_iff_forall_not_mem.2 fun ⟨w, r, c⟩ hmem => hidle w ?_
  exact (waitsAt_of_awaits (hs.entry w r c hmem).1).inCall

theorem Consistent.runner_of_idle (hs : s.Consistent) (hidle : ∀ t, ¬ s.InCall t) (c : κ) :
    (s.cells c).runner = none := by
  refine Option.eq_none_iff_forall_ne_some.2 fun t hrunner => hidle t ?_
  exact inCall_of_marked ((hs.runner_iff c t).1 hrunner)

variable [DecidableEq τ] [DecidableEq κ] {bodies : β → Computation κ β α}

theorem Consistent.locks_of_idle (bodies : β → Computation κ β α) (hs : s.Consistent)
    (hidle : ∀ t, ¬ s.InCall t) (c : κ) : s.locks c = none := by
  refine Option.eq_none_iff_forall_ne_some.2 fun t hlock => hidle t ?_
  exact (step_of_holds bodies ((hs.lock_iff c t).1 hlock)).1

/-- What comes after all calls have ended differs from a start in the stored answers only. -/
theorem Consistent.restart_of_idle (bodies : β → Computation κ β α) (hs : s.Consistent)
    (hidle : ∀ t, ¬ s.InCall t) (programs : τ → Computation κ β α) :
    s.restart programs = { initial programs with cells := fun c => { stored := (s.cells c).stored } } := by
  have hcells : s.cells = fun c => { stored := (s.cells c).stored } := by
    funext c
    rw [← hs.runner_of_idle hidle c]
  have hlocks : s.locks = fun _ => none := funext (hs.locks_of_idle bodies hidle)
  rw [restart, hs.waits_of_idle hidle, hlocks]
  exact congrArg (fun cells => { initial programs with cells }) hcells

/-! ## The result -/

/-- **The table is exact.** In every reachable state no thread has two entries. The waiter of an entry is in the part
of a call for its cell that waits, and its runner is another thread, which is noted as computing the cell or is just
landing it. A thread that is stuck has an entry. Following the entries from a thread never leads back to it. And when
no thread is in a call the table is empty, and other threads start over the same cells as if nothing had happened, but
that some of the cells have answers. -/
theorem waits_exact (h : Reachable bodies s) :
    (s.waits.map (·.waiter)).Nodup ∧
    (∀ w r c, ⟨w, r, c⟩ ∈ s.waits →
      s.WaitsAt w c ∧ r ≠ w ∧ ((s.cells c).runner = some r ∨ s.Clears r c)) ∧
    (∀ t c, s.Stuck t c → ∃ r, ⟨t, r, c⟩ ∈ s.waits) ∧
    (∀ t, ¬ TransGen (WaitEdge.Waits s.waits) t t) ∧
    ((∀ t, ¬ s.InCall t) → s.waits = [] ∧ ∀ programs : τ → Computation κ β α,
      s.restart programs = { initial programs with cells := fun c => { stored := (s.cells c).stored } }) := by
  have hs := h.consistent
  refine ⟨List.pairwise_map.2 hs.single, fun w r c hmem => ?_, fun t c hstuck => ?_, hs.acyclic, fun hidle => ?_⟩
  · obtain ⟨hawaits, hne, hrunner⟩ := hs.entry w r c hmem
    refine ⟨waitsAt_of_awaits hawaits, hne, hrunner.imp_right fun ⟨hnotifies, hholds⟩ => ?_⟩
    exact clears_of_notifies hnotifies hholds
  · obtain ⟨r, hmem, -⟩ := hstuck.entry hs
    exact ⟨r, hmem⟩
  · exact ⟨hs.waits_of_idle hidle, hs.restart_of_idle bodies hidle⟩

/-- The second caller sleeps while the first is in the closure, which then panics. The second computes, and no entry
is left. -/
theorem waits_exact_panic :
    let bodies : Bool → Computation Unit Bool Nat := fun b =>
      .pause (.pause (if b then .finish (.ok 1) else .panic "broken"))
    let programs : Bool → Computation Unit Bool Nat := fun b => .request ⟨(), "c", b⟩ .finish
    let s := ((initial programs).run bodies [false, true] 12).1
    let last := ((initial programs).run bodies [false, true] 40).1
    s.waits = [⟨true, false, ()⟩] ∧ s.WaitsAt true () ∧ ((s.cells ()).runner = some false ∨ s.Clears false ()) ∧
      (last.cells ()).stored = some (.ok 1) ∧ last.waits = [] := by
  intro bodies programs s last
  have hs : Reachable bodies s := ⟨programs, _, runs_run (by decide) 12 _⟩
  have hlast : Reachable bodies last := ⟨programs, _, runs_run (by decide) 40 _⟩
  have hwaits : s.waits = [⟨true, false, ()⟩] := rfl
  obtain ⟨-, hentry, -⟩ := waits_exact hs
  obtain ⟨-, -, -, -, hidle⟩ := waits_exact hlast
  have hended : ∀ t, ¬ last.InCall t := by
    rintro t (hstack | ⟨w, p, hcall⟩)
    · cases t <;> exact hstack rfl
    · cases t <;> cases hcall
  obtain ⟨hat, -, hrunner⟩ := hentry true false () (hwaits ▸ List.mem_cons_self)
  exact ⟨hwaits, hat, hrunner, rfl, (hidle hended).1⟩

end TernBackend.State
