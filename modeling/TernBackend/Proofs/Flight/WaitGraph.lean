import Mathlib.Logic.Relation
import TernBackend.Flight.WaitTable

/-!
# The table of waits as a graph

Following first entries is a walk in a graph in which every thread has at most one edge out.
`leadsTo_iff` says that the bounded walk of `leadsTo` decides reachability in it: a walk that comes back
to a thread can leave out the loop, so removing the entries of each thread that has been left loses
nothing, and there are no more such threads than entries. `leadsTo_decides` says the same of the list alone: first
entries are told by what stands before them, and no number of rounds finds more.

A table grows by one entry at a time. `Acyclic.append` says when that closes no cycle.
-/

namespace TernBackend.WaitEdge

open Relation

variable {τ κ : Type}

/-- Some entry says that `t` waits for `u`. -/
def Waits (edges : List (WaitEdge τ κ)) (t u : τ) : Prop := ∃ c, ⟨t, u, c⟩ ∈ edges

/-- No thread waits for itself, through whatever others. -/
def Acyclic (edges : List (WaitEdge τ κ)) : Prop := ∀ t, ¬ TransGen (Waits edges) t t

/-- No thread has two entries. -/
def Single (edges : List (WaitEdge τ κ)) : Prop := edges.Pairwise fun e f => e.waiter ≠ f.waiter

theorem Waits.mono {edges edges' : List (WaitEdge τ κ)} (h : edges ⊆ edges') {t u : τ} :
    Waits edges t u → Waits edges' t u
  | ⟨c, hc⟩ => ⟨c, h hc⟩

theorem Acyclic.mono {edges edges' : List (WaitEdge τ κ)} (h : edges ⊆ edges') (ha : Acyclic edges') :
    Acyclic edges :=
  fun t ht => ha t (TransGen.mono (fun _ _ => Waits.mono h) _ _ ht)

/-! ## A new entry -/

theorem waits_append {edges : List (WaitEdge τ κ)} {e : WaitEdge τ κ} {t u : τ} :
    Waits (edges ++ [e]) t u ↔ Waits edges t u ∨ t = e.waiter ∧ u = e.runner := by
  simp only [Waits, List.mem_append, List.mem_singleton, exists_or]
  constructor
  · rintro (h | ⟨c, rfl⟩)
    · exact .inl h
    · exact .inr ⟨rfl, rfl⟩
  · rintro (h | ⟨rfl, rfl⟩)
    · exact .inl h
    · exact .inr ⟨e.cell, rfl⟩

/-- A walk in the longer table stays in the shorter one or goes through the new entry. -/
theorem transGen_append {edges : List (WaitEdge τ κ)} {e : WaitEdge τ κ}
    (hback : ¬ ReflTransGen (Waits edges) e.runner e.waiter) {t u : τ}
    (h : TransGen (Waits (edges ++ [e])) t u) :
    TransGen (Waits edges) t u ∨
      ReflTransGen (Waits edges) t e.waiter ∧ ReflTransGen (Waits edges) e.runner u := by
  induction h with
  | single hw =>
    rcases waits_append.1 hw with hw | ⟨rfl, rfl⟩
    · exact .inl (.single hw)
    · exact .inr ⟨.refl, .refl⟩
  | tail _ hw ih =>
    rcases waits_append.1 hw with hw | ⟨rfl, rfl⟩
    · exact ih.imp (·.tail hw) fun ⟨h1, h2⟩ => ⟨h1, h2.tail hw⟩
    · rcases ih with ih | ⟨_, ih⟩
      · exact .inr ⟨ih.to_reflTransGen, .refl⟩
      · exact absurd ih hback

theorem Acyclic.append {edges : List (WaitEdge τ κ)} {e : WaitEdge τ κ} (ha : Acyclic edges)
    (hback : ¬ ReflTransGen (Waits edges) e.runner e.waiter) : Acyclic (edges ++ [e]) := by
  intro t ht
  rcases transGen_append hback ht with ht | ⟨h1, h2⟩
  · exact ha t ht
  · exact hback (h2.trans h1)

/-! ## Following first entries -/

variable [DecidableEq τ]

/-- The first entry of `t` says that it waits for `u`. -/
def Follows (edges : List (WaitEdge τ κ)) (t u : τ) : Prop := next? edges t = some u

theorem Follows.waits {edges : List (WaitEdge τ κ)} {t u : τ} (h : Follows edges t u) :
    Waits edges t u := by
  obtain ⟨e, he, rfl⟩ := Option.map_eq_some_iff.1 h
  obtain rfl : e.waiter = t := by simpa using List.find?_some he
  exact ⟨e.cell, List.mem_of_find?_eq_some he⟩

theorem Waits.follows {edges : List (WaitEdge τ κ)} (hs : Single edges) {t u : τ}
    (h : Waits edges t u) : Follows edges t u := by
  induction edges with
  | nil => simp [Waits] at h
  | cons e edges ih =>
    obtain ⟨hhead, htail⟩ := List.pairwise_cons.1 hs
    obtain ⟨c, hc⟩ := h
    rcases List.mem_cons.1 hc with rfl | hc
    · simp [Follows, next?]
    · have hne : e.waiter ≠ t := hhead _ hc
      simpa [Follows, next?, hne] using ih htail ⟨c, hc⟩

theorem next?_withoutWaiter {edges : List (WaitEdge τ κ)} {t u : τ} :
    next? (withoutWaiter edges t) u = if u = t then none else next? edges u := by
  unfold next? withoutWaiter
  rw [List.find?_filter]
  split
  next h =>
    subst h
    simp
  next h =>
    congr 2
    funext e
    by_cases he : e.waiter = u <;> simp [he, h]

theorem length_withoutWaiter_lt {edges : List (WaitEdge τ κ)} {t u : τ} (h : Follows edges t u) :
    (withoutWaiter edges t).length < edges.length := by
  obtain ⟨c, hc⟩ := h.waits
  exact List.length_filter_lt_length_iff_exists.2 ⟨_, hc, by simp⟩

/-- A walk can be cut so that it does not come back to `v`, unless it starts there. -/
theorem reaches_avoiding {edges : List (WaitEdge τ κ)} {t target : τ} (v : τ)
    (h : ReflTransGen (Follows edges) t target) :
    ReflTransGen (Follows (withoutWaiter edges v)) t target ∨
      ∃ u, Follows edges v u ∧ ReflTransGen (Follows (withoutWaiter edges v)) u target := by
  induction h using ReflTransGen.head_induction_on with
  | refl => exact .inl .refl
  | @head t u hstep _ ih =>
    rcases ih with ih | ih
    · by_cases htv : t = v
      · exact .inr ⟨u, htv ▸ hstep, ih⟩
      · exact .inl (ih.head (by simpa [Follows, next?_withoutWaiter, htv] using hstep))
    · exact .inr ih

theorem reaches_of_leadsWithin {edges : List (WaitEdge τ κ)} {target : τ} :
    ∀ {rounds : Nat} {t : τ}, leadsWithin edges target rounds t = true →
      ReflTransGen (Follows edges) t target
  | 0, _, h => by simp [leadsWithin] at h
  | rounds + 1, t, h => by
    unfold leadsWithin at h
    split at h
    next ht => exact ht ▸ .refl
    next =>
      split at h
      next u hu => exact (reaches_of_leadsWithin h).head hu
      next => exact absurd h Bool.false_ne_true

theorem leadsWithin_mono {edges : List (WaitEdge τ κ)} {target : τ} :
    ∀ {rounds more : Nat} {t : τ}, rounds ≤ more → leadsWithin edges target rounds t = true →
      leadsWithin edges target more t = true
  | 0, _, _, _, h => by simp [leadsWithin] at h
  | rounds + 1, 0, _, hle, _ => absurd hle (by omega)
  | rounds + 1, more + 1, t, hle, h => by
    unfold leadsWithin at h ⊢
    split
    next => rfl
    next hne =>
      rw [if_neg hne] at h
      split at h
      next u hu => exact leadsWithin_mono (by omega) h
      next => exact absurd h Bool.false_ne_true

/-- A walk in the table without the entries of `v` is a walk in the whole table. -/
theorem leadsWithin_of_withoutWaiter {edges : List (WaitEdge τ κ)} {target v : τ} :
    ∀ {rounds : Nat} {t : τ}, leadsWithin (withoutWaiter edges v) target rounds t = true →
      leadsWithin edges target rounds t = true
  | 0, _, h => by simp [leadsWithin] at h
  | rounds + 1, t, h => by
    unfold leadsWithin at h ⊢
    split
    next => rfl
    next hne =>
      rw [if_neg hne, next?_withoutWaiter] at h
      split at h
      next u hu =>
        have hnext : next? edges t = some u := by
          split at hu
          · cases hu
          · exact hu
        rw [hnext]
        exact leadsWithin_of_withoutWaiter h
      next => exact absurd h Bool.false_ne_true

/-- The bound is large enough: each step out of a thread removes its entries from the walk's future. -/
theorem leadsWithin_of_reaches {target : τ} :
    ∀ {edges : List (WaitEdge τ κ)} {t : τ}, ReflTransGen (Follows edges) t target →
      leadsWithin edges target (edges.length + 1) t = true
  | edges, t, h => by
    unfold leadsWithin
    split
    next => rfl
    next hne =>
      obtain ⟨u, hu, hrest⟩ : ∃ u, Follows edges t u ∧
          ReflTransGen (Follows (withoutWaiter edges t)) u target := by
        rcases reaches_avoiding t h with h | h
        · rcases h.cases_head with heq | ⟨u, hu, _⟩
          · exact absurd heq hne
          · simp [Follows, next?_withoutWaiter] at hu
        · exact h
      rw [show next? edges t = some u from hu]
      have hlt := length_withoutWaiter_lt hu
      exact leadsWithin_mono (by omega) (leadsWithin_of_withoutWaiter (leadsWithin_of_reaches hrest))
termination_by edges => edges.length

theorem leadsTo_iff {edges : List (WaitEdge τ κ)} {t target : τ} :
    leadsTo edges t target = true ↔ ReflTransGen (Follows edges) t target :=
  ⟨reaches_of_leadsWithin, leadsWithin_of_reaches⟩

/-- While no thread has two entries, nothing depends on their order. -/
theorem leadsTo_iff_waits {edges : List (WaitEdge τ κ)} (hs : Single edges) {t target : τ} :
    leadsTo edges t target = true ↔ ReflTransGen (Waits edges) t target :=
  leadsTo_iff.trans
    ⟨ReflTransGen.mono (fun _ _ => Follows.waits) _ _, ReflTransGen.mono (fun _ _ => Waits.follows hs) _ _⟩

/-- An entry says that `t` waits for `u`, and no entry before it is one of `t`. -/
def FirstEntry (edges : List (WaitEdge τ κ)) (t u : τ) : Prop :=
  ∃ before c after, edges = before ++ ⟨t, u, c⟩ :: after ∧ ∀ e ∈ before, e.waiter ≠ t

theorem follows_iff {edges : List (WaitEdge τ κ)} {t u : τ} : Follows edges t u ↔ FirstEntry edges t u := by
  unfold Follows next?
  rw [Option.map_eq_some_iff]
  simp only [List.find?_eq_some_iff_append]
  constructor
  · rintro ⟨⟨w, r, c⟩, ⟨hw, before, after, rfl, hbefore⟩, rfl⟩
    obtain rfl : w = t := by simpa using hw
    exact ⟨before, c, after, rfl, fun e he => by simpa using hbefore e he⟩
  · rintro ⟨before, c, after, rfl, hbefore⟩
    exact ⟨⟨t, u, c⟩, ⟨by simp, before, after, rfl, fun e he => by simpa using hbefore e he⟩, rfl⟩

/-- **The walk decides what can be reached.** For any list of entries, whatever waiters it repeats and whatever
circles it has, the walk answers yes just if steps by first entries lead to the target. Its bound cuts nothing off: no
other number of rounds finds more. -/
theorem leadsTo_decides (edges : List (WaitEdge τ κ)) (t target : τ) :
    (leadsTo edges t target = true ↔ ReflTransGen (FirstEntry edges) t target) ∧
    (leadsTo edges t target = true ↔ ∃ rounds, leadsWithin edges target rounds t = true) := by
  have hfollows : Follows edges = FirstEntry edges := funext₂ fun _ _ => propext follows_iff
  refine ⟨hfollows ▸ leadsTo_iff, fun h => ⟨_, h⟩, fun ⟨rounds, h⟩ => ?_⟩
  exact leadsTo_iff.2 (reaches_of_leadsWithin h)

/-- The last round is needed where each entry leads on to the next. -/
example :
    let edges : List (WaitEdge Nat Unit) := [⟨0, 1, ()⟩, ⟨1, 2, ()⟩, ⟨2, 3, ()⟩]
    leadsTo edges 0 3 = true ∧ leadsWithin edges 3 edges.length 0 = false := by decide

/-- The second entry of a thread leads nowhere, and a circle that misses the target ends the walk. -/
example : leadsTo [⟨0, 1, ()⟩, ⟨0, 2, ()⟩, ⟨1, 0, ()⟩] 0 2 = false := by decide

/-- Following the waits of an acyclic table ends at a thread that waits for nobody. -/
theorem Acyclic.exists_end {edges : List (WaitEdge τ κ)} (ha : Acyclic edges) (t : τ) :
    ∃ u, ReflTransGen (Waits edges) t u ∧ ∀ v, ¬ Waits edges u v := by
  by_cases hout : ∃ v, Waits edges t v
  · obtain ⟨v, c, hc⟩ := hout
    have hsub : withoutWaiter edges t ⊆ edges := List.filter_sublist.subset
    have hlt : (withoutWaiter edges t).length < edges.length :=
      List.length_filter_lt_length_iff_exists.2 ⟨_, hc, by simp⟩
    obtain ⟨u, hu, hend⟩ := (ha.mono hsub).exists_end v
    have hvu : ReflTransGen (Waits edges) v u := ReflTransGen.mono (fun _ _ => Waits.mono hsub) _ _ hu
    refine ⟨u, hvu.head ⟨c, hc⟩, fun w ⟨d, hd⟩ => ?_⟩
    have hut : u ≠ t := fun h => ha t (TransGen.head' ⟨c, hc⟩ (h ▸ hvu))
    exact hend w ⟨d, List.mem_filter.2 ⟨hd, by simpa using hut⟩⟩
  · exact ⟨t, .refl, fun v hv => hout ⟨v, hv⟩⟩
termination_by edges.length

end TernBackend.WaitEdge
