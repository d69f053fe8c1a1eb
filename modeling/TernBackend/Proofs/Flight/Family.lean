import Mathlib
import TernBackend.Flight.Machine

/-!
# Families of cells

The closure of a cell may call for other cells: for fixed ones, in a fixed order, giving up at the first
error and otherwise combining the values. Which value such a cell ought to have is then a matter of the
family alone (`HasValue`), and over finitely many cells it has one unless some cell that it needs,
directly or through others, needs itself (`exists_value_iff`).
-/

namespace TernBackend

open Relation

/-- Cells whose values are combined from values of other cells. -/
structure Family (κ α : Type) where
  /-- The cells that the closure of a cell calls for, in order. -/
  needs : κ → List κ
  /-- The value of a cell, from the values of the cells it needs. -/
  combine : κ → List α → α
  /-- The owner that the closure of one cell names when it calls for another. -/
  owner : κ → κ → String

namespace Family

variable {κ α : Type} (F : Family κ α)

/-- What is left of the closure of `i` when some values have been found and others are still needed. -/
def collect (i : κ) (found : List α) : List κ → Computation κ κ α
  | [] => .finish (.ok (F.combine i found))
  | j :: rest =>
    .request ⟨j, F.owner i j, j⟩ fun
      | .ok v => collect i (found ++ [v]) rest
      | .error e => .finish (.error e)

def body (i : κ) : Computation κ κ α := F.collect i [] (F.needs i)

def Needs (i j : κ) : Prop := j ∈ F.needs i

/-- Some cell that `i` needs, directly or through others, or `i` itself, needs itself. -/
def ReachesCycle (i : κ) : Prop := ∃ j, ReflTransGen F.Needs i j ∧ TransGen F.Needs j j

/-- `HasValue i v`: the value of `i` is `v`, by recursion on what it needs. -/
inductive HasValue : κ → α → Prop
  | intro {i} (val : κ → α) (h : ∀ j ∈ F.needs i, HasValue j (val j)) :
      HasValue i (F.combine i ((F.needs i).map val))

/-- The answer is what `i` ought to be answered: its value, or that there is a cycle if it reaches one. -/
def Sound (i : κ) (a : Answer α) : Prop :=
  (∃ v, F.HasValue i v ∧ a = .ok v) ∨ (F.ReachesCycle i ∧ ∃ owner, a = .error (.cycle owner))

variable {F}

/-! ## Cycles -/

theorem ReachesCycle.of_transGen {i : κ} (h : TransGen F.Needs i i) : F.ReachesCycle i := ⟨i, .refl, h⟩

theorem ReachesCycle.head {i j : κ} (hij : F.Needs i j) (h : F.ReachesCycle j) : F.ReachesCycle i :=
  let ⟨k, hjk, hk⟩ := h
  ⟨k, .head hij hjk, hk⟩

theorem reachesCycle_iff {i : κ} : F.ReachesCycle i ↔ ∃ j, F.Needs i j ∧ F.ReachesCycle j := by
  refine ⟨fun ⟨k, hik, hk⟩ => ?_, fun ⟨j, hij, hj⟩ => hj.head hij⟩
  rcases ReflTransGen.cases_head hik with rfl | ⟨j, hij, hjk⟩
  · obtain ⟨j, hij, hji⟩ := TransGen.head'_iff.1 hk
    exact ⟨j, hij, i, hji, hk⟩
  · exact ⟨j, hij, k, hjk, hk⟩

/-! ## Values -/

theorem HasValue.unique {i : κ} {v w : α} (hv : F.HasValue i v) (hw : F.HasValue i w) : v = w := by
  induction hv generalizing w with
  | @intro i val h ih =>
    obtain ⟨val', h'⟩ := hw
    have hval : (F.needs i).map val = (F.needs i).map val' :=
      List.map_congr_left fun j hj => ih j hj (h' j hj)
    rw [hval]

theorem HasValue.not_reachesCycle {i : κ} {v : α} (h : F.HasValue i v) : ¬ F.ReachesCycle i := by
  induction h with
  | intro val h ih =>
    intro hcycle
    obtain ⟨j, hij, hj⟩ := reachesCycle_iff.1 hcycle
    exact ih j hij hj

/-- One function gives the values of all cells that have one. -/
theorem exists_val (F : Family κ α) (default : α) :
    ∃ val : κ → α, ∀ j v, F.HasValue j v → val j = v := by
  classical
  refine ⟨fun j => if h : ∃ v, F.HasValue j v then h.choose else default, fun j v hv => ?_⟩
  have h : ∃ v, F.HasValue j v := ⟨v, hv⟩
  calc (if h : ∃ v, F.HasValue j v then h.choose else default) = h.choose := dif_pos h
    _ = v := h.choose_spec.unique hv

theorem HasValue.of_forall₂ {i : κ} {vs : List α} (h : List.Forall₂ F.HasValue (F.needs i) vs) :
    F.HasValue i (F.combine i vs) := by
  obtain ⟨val, hval⟩ := F.exists_val (F.combine i vs)
  have hmap : (F.needs i).map val = vs := by
    rw [← List.forall₂_eq_eq_eq, List.forall₂_map_left_iff]
    exact h.imp fun j v => hval j v
  rw [← hmap, List.forall₂_map_right_iff, List.forall₂_same] at h
  rw [← hmap]
  exact .intro val h

/-- Over finitely many cells, a cell has a value unless it reaches a cycle. -/
theorem exists_value_iff [Finite κ] {i : κ} : (∃ v, F.HasValue i v) ↔ ¬ F.ReachesCycle i := by
  refine ⟨fun ⟨v, hv⟩ => hv.not_reachesCycle, fun hi => ?_⟩
  let below (j i : κ) : Prop := ¬ F.ReachesCycle i ∧ TransGen F.Needs i j
  have : IsTrans κ below := ⟨fun _ _ _ h h' => ⟨h'.1, h'.2.trans h.2⟩⟩
  have : Std.Irrefl below := ⟨fun _ h => h.1 (.of_transGen h.2)⟩
  induction i using (Finite.wellFounded_of_trans_of_irrefl below).induction with
  | _ i ih =>
    obtain ⟨val, hval⟩ := F.exists_val (F.combine i [])
    refine ⟨_, .intro val fun j hj => ?_⟩
    obtain ⟨v, hv⟩ := ih j ⟨hi, .single hj⟩ fun hcycle => hi (hcycle.head hj)
    rw [hval j v hv]
    exact hv

/-! ## Sound answers -/

theorem Sound.of_not_reachesCycle {i : κ} {a : Answer α} (h : F.Sound i a) (hi : ¬ F.ReachesCycle i) :
    ∃ v, F.HasValue i v ∧ a = .ok v :=
  h.resolve_right fun h => hi h.1

theorem Sound.of_reachesCycle {i : κ} {a : Answer α} (h : F.Sound i a) (hi : F.ReachesCycle i) :
    ∃ owner, a = .error (.cycle owner) :=
  h.elim (fun ⟨_, hv, _⟩ => absurd hi hv.not_reachesCycle) And.right

theorem Sound.of_ok {i : κ} {v : α} (h : F.Sound i (.ok v)) : F.HasValue i v := by
  rcases h with ⟨w, hw, heq⟩ | ⟨-, owner, heq⟩
  · rw [Except.ok.inj heq]
    exact hw
  · cases heq

/-- An error is passed on to the cells that need the one that has failed. -/
theorem Sound.of_error {i j : κ} {e : LibraryError} (hij : F.Needs i j) (h : F.Sound j (.error e)) :
    F.Sound i (.error e) := by
  rcases h with ⟨w, -, heq⟩ | ⟨hcycle, owner, heq⟩
  · cases heq
  · exact .inr ⟨hcycle.head hij, owner, congrArg Except.error (Except.error.inj heq)⟩

/-- Two sound answers of one cell are the same value or both report a cycle. -/
theorem Sound.agree {i : κ} {a b : Answer α} (ha : F.Sound i a) (hb : F.Sound i b) :
    (∃ v, a = .ok v ∧ b = .ok v) ∨
      ∃ owner owner', a = .error (.cycle owner) ∧ b = .error (.cycle owner') := by
  rcases ha with ⟨v, hv, rfl⟩ | ⟨hcycle, owner, rfl⟩
  · obtain ⟨w, hw, rfl⟩ := hb.of_not_reachesCycle hv.not_reachesCycle
    rw [hv.unique hw]
    exact .inl ⟨w, rfl, rfl⟩
  · obtain ⟨owner', rfl⟩ := hb.of_reachesCycle hcycle
    exact .inr ⟨owner, owner', rfl, rfl⟩

end Family

end TernBackend
