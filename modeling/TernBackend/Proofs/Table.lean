import Mathlib.Data.List.Induction
import Mathlib.Data.List.Sort
import TernBackend.Table

/-!
# Looking up in sorted tables

What a table holds is what was put in last under each key (`get?_insert`, `get?_ofList`). Its keys are in
strictly increasing order, so each occurs once.
-/

namespace TernBackend.Table

variable {κ α : Type} [Ord κ]

theorem pairwise_keys (t : Table κ α) : t.keys.Pairwise fun k l => compare k l = .lt :=
  List.pairwise_map.2 t.sorted

theorem nodup_keys [Std.ReflOrd κ] (t : Table κ α) : t.keys.Nodup := by
  refine t.pairwise_keys.imp fun {k l} hlt heq => ?_
  have hrefl : compare l l = .eq := Std.ReflCmp.compare_self
  rw [heq, hrefl] at hlt
  cases hlt

theorem ofList_concat [Std.TransOrd κ] (es : List (κ × α)) (e : κ × α) :
    ofList (es ++ [e]) = (ofList es).insert e.1 e.2 := by
  simp [ofList]

section

variable [BEq κ] [LawfulBEq κ]

omit [LawfulBEq κ] in
@[simp] theorem get?_empty (key : κ) : (empty : Table κ α).get? key = none := rfl

/-- The entries before and after the one of a key. -/
theorem get?_eq_some_iff {t : Table κ α} {key : κ} {value : α} :
    t.get? key = some value ↔
      ∃ before after, t.entries = before ++ (key, value) :: after ∧ ∀ e ∈ before, e.1 ≠ key := by
  rw [get?, List.lookup_eq_some_iff]
  constructor
  · rintro ⟨before, after, hsplit, hbefore⟩
    refine ⟨before, after, hsplit, fun e he heq => ?_⟩
    have hne := hbefore e he
    rw [heq, bne_self_eq_false] at hne
    cases hne
  · rintro ⟨before, after, hsplit, hbefore⟩
    exact ⟨before, after, hsplit, fun e he => bne_iff_ne.2 (hbefore e he).symm⟩

theorem get?_of_mem [Std.ReflOrd κ] {t : Table κ α} {e : κ × α} (he : e ∈ t.entries) :
    t.get? e.1 = some e.2 := by
  obtain ⟨before, after, hsplit⟩ := List.append_of_mem he
  refine get?_eq_some_iff.2 ⟨before, after, hsplit, fun f hf heq => ?_⟩
  have hnodup := t.nodup_keys
  rw [keys, hsplit, List.map_append, List.map_cons] at hnodup
  exact (List.nodup_append.1 hnodup).2.2 f.1 (List.mem_map_of_mem hf) e.1 List.mem_cons_self heq

theorem mem_of_get?_eq_some {t : Table κ α} {key : κ} {value : α} (h : t.get? key = some value) :
    (key, value) ∈ t.entries := by
  obtain ⟨before, after, hsplit, -⟩ := get?_eq_some_iff.1 h
  simp [hsplit]

/-- A table is determined by what it holds under each key. -/
theorem ext_get? [Std.TransOrd κ] {t t' : Table κ α} (h : ∀ key, t.get? key = t'.get? key) : t = t' := by
  have hmem : ∀ (t : Table κ α) (e : κ × α), e ∈ t.entries ↔ t.get? e.1 = some e.2 :=
    fun t e => ⟨get?_of_mem, mem_of_get?_eq_some⟩
  have hirrefl : Std.Irrefl fun a b : κ × α => compare a.1 b.1 = .lt := ⟨fun a => by
    simp [Std.ReflCmp.compare_self]⟩
  have hantisymm : Std.Antisymm fun a b : κ × α => compare a.1 b.1 = .lt := ⟨fun a b hab hba => by
    rw [Std.OrientedCmp.gt_of_lt hab] at hba
    cases hba⟩
  have hentries : t.entries = t'.entries := t.sorted.eq_of_mem_iff t'.sorted fun e => by
    rw [hmem, hmem, h]
  cases t
  cases t'
  simpa using hentries

/-- What is under a key is found first among what is under keys that are not below it. -/
theorem atLeast?_of_get?_eq_some [Std.ReflOrd κ] {t : Table κ α} {key : κ} {value : α}
    (h : t.get? key = some value) : t.atLeast? key = some value := by
  obtain ⟨before, after, hsplit, -⟩ := get?_eq_some_iff.1 h
  have hsorted := t.sorted
  rw [hsplit] at hsorted
  have hbelow : ∀ e ∈ before, compare e.1 key = .lt := fun e he =>
    (List.pairwise_append.1 hsorted).2.2 e he _ List.mem_cons_self
  have hfirst : t.entries.find? (fun e => (compare e.1 key).isGE) = some (key, value) := by
    rw [List.find?_eq_some_iff_append]
    refine ⟨by simp [Std.ReflCmp.compare_self], before, after, hsplit, fun e he => ?_⟩
    simp [hbelow e he]
  rw [atLeast?, hfirst]
  rfl

theorem mem_keys_iff {t : Table κ α} {key : κ} : key ∈ t.keys ↔ t.get? key ≠ none := by
  rw [get?, keys, ne_eq, List.lookup_eq_none_iff]
  constructor
  · intro hmem hnone
    obtain ⟨e, he, rfl⟩ := List.mem_map.1 hmem
    have hne := hnone e he
    rw [bne_self_eq_false] at hne
    cases hne
  · intro hsome
    by_cases hmem : key ∈ t.entries.map (·.1)
    · exact hmem
    · refine absurd (fun e he => bne_iff_ne.2 fun heq => hmem ?_) hsome
      rw [heq]
      exact List.mem_map_of_mem he

theorem lookup_insertEntry [Std.LawfulEqOrd κ] [DecidableEq κ] (key k : κ) (value : α) :
    ∀ es : List (κ × α), (insertEntry key value es).lookup k = if k = key then some value else es.lookup k
  | [] => by
    by_cases hk : k = key
    · rw [insertEntry, hk, List.lookup_cons_self, if_pos rfl]
    · rw [insertEntry, List.lookup_cons, beq_false_of_ne hk, if_neg hk]
  | e :: es => by
    unfold insertEntry
    by_cases hk : k = key
    · subst hk
      rw [if_pos rfl]
      split
      · exact List.lookup_cons_self
      · exact List.lookup_cons_self
      next hgt =>
        have hne : k ≠ e.1 := fun heq => by
          have hrefl : compare e.1 e.1 = .eq := Std.ReflCmp.compare_self
          rw [heq, hrefl] at hgt
          cases hgt
        rw [List.lookup_cons, beq_false_of_ne hne]
        exact (lookup_insertEntry k k value es).trans (if_pos rfl)
    · rw [if_neg hk]
      split
      · rw [List.lookup_cons, beq_false_of_ne hk]
      next heq =>
        have hkey : key = e.1 := Std.LawfulEqCmp.eq_of_compare heq
        rw [List.lookup_cons, List.lookup_cons, ← hkey, beq_false_of_ne hk]
      · rw [List.lookup_cons, List.lookup_cons, lookup_insertEntry key k value es, if_neg hk]

theorem get?_insert [Std.TransOrd κ] [Std.LawfulEqOrd κ] [DecidableEq κ] (t : Table κ α) (key k : κ)
    (value : α) : (t.insert key value).get? k = if k = key then some value else t.get? k :=
  lookup_insertEntry key k value t.entries

/-- The value under a key is that of the last entry with the key. -/
theorem get?_ofList [Std.TransOrd κ] [Std.LawfulEqOrd κ] [DecidableEq κ] (es : List (κ × α)) (key : κ) :
    (ofList es).get? key = es.reverse.lookup key := by
  induction es using List.reverseRecOn with
  | nil => rfl
  | append_singleton es e ih =>
    rw [ofList_concat, get?_insert, ih, List.reverse_append, List.reverse_singleton, List.singleton_append,
      List.lookup_cons]
    by_cases hkey : key = e.1
    · simp [hkey]
    · simp [hkey, beq_false_of_ne hkey]

/-- Where the value is a function of the key, it does not matter how often a key occurs. -/
theorem get?_ofList_map [Std.TransOrd κ] [Std.LawfulEqOrd κ] [DecidableEq κ] (keys : List κ) (f : κ → α)
    (key : κ) : (ofList (keys.map fun k => (k, f k))).get? key = if key ∈ keys then some (f key) else none := by
  have hlookup : ∀ ks : List κ,
      (ks.map fun k => (k, f k)).lookup key = if key ∈ ks then some (f key) else none := by
    intro ks
    induction ks with
    | nil => rfl
    | cons k ks ih =>
      rw [List.map_cons, List.lookup_cons, ih]
      by_cases hkey : key = k
      · simp [hkey]
      · simp [hkey, beq_false_of_ne hkey]
  rw [get?_ofList, ← List.map_reverse, hlookup]
  simp only [List.mem_reverse]

end

end TernBackend.Table
