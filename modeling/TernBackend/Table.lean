/-!
# Sorted tables

Values under keys, kept in strictly increasing order of the keys, so each key occurs at most once
and the order in which the values were put in leaves no trace.
-/

namespace TernBackend

/-- Entries in strictly increasing order of their keys. -/
structure Table (κ α : Type) [Ord κ] where
  entries : List (κ × α)
  sorted : entries.Pairwise fun a b => compare a.1 b.1 = .lt

namespace Table

variable {κ α : Type} [Ord κ]

/-- The entries with `value` under `key`, in the place where the order wants it. -/
def insertEntry (key : κ) (value : α) : List (κ × α) → List (κ × α)
  | [] => [(key, value)]
  | e :: es =>
    match compare key e.1 with
    | .lt => (key, value) :: e :: es
    | .eq => (key, value) :: es
    | .gt => e :: insertEntry key value es

theorem mem_insertEntry {key : κ} {value : α} {e : κ × α} :
    ∀ {es : List (κ × α)}, e ∈ insertEntry key value es → e = (key, value) ∨ e ∈ es
  | [], h => by simpa [insertEntry] using h
  | f :: es, h => by
    unfold insertEntry at h
    split at h
    · simpa using h
    · rcases List.mem_cons.1 h with h | h
      · exact .inl h
      · exact .inr (List.mem_cons_of_mem _ h)
    · rcases List.mem_cons.1 h with h | h
      · exact .inr (h ▸ List.mem_cons_self)
      · exact (mem_insertEntry h).imp_right (List.mem_cons_of_mem _)

theorem pairwise_insertEntry [Std.TransOrd κ] {key : κ} {value : α} :
    ∀ {es : List (κ × α)}, (es.Pairwise fun a b => compare a.1 b.1 = .lt) →
      (insertEntry key value es).Pairwise fun a b => compare a.1 b.1 = .lt
  | [], _ => by simp [insertEntry]
  | e :: es, h => by
    have ⟨he, hes⟩ := List.pairwise_cons.1 h
    unfold insertEntry
    split
    next hlt =>
      refine List.pairwise_cons.2 ⟨fun f hf => ?_, h⟩
      rcases List.mem_cons.1 hf with rfl | hf
      · exact hlt
      · exact Std.TransCmp.lt_trans hlt (he f hf)
    next heq =>
      refine List.pairwise_cons.2 ⟨fun f hf => ?_, hes⟩
      exact Std.TransCmp.lt_of_eq_of_lt heq (he f hf)
    next hgt =>
      refine List.pairwise_cons.2 ⟨fun f hf => ?_, pairwise_insertEntry hes⟩
      rcases mem_insertEntry hf with rfl | hf
      · exact Std.OrientedCmp.lt_of_gt hgt
      · exact he f hf

def empty : Table κ α := ⟨[], .nil⟩

instance : Inhabited (Table κ α) := ⟨empty⟩

/-- The table with `value` under `key`; what was there under that key is gone. -/
def insert [Std.TransOrd κ] (t : Table κ α) (key : κ) (value : α) : Table κ α :=
  ⟨insertEntry key value t.entries, pairwise_insertEntry t.sorted⟩

/-- The table of a list of entries, a later entry in place of an earlier one with its key. -/
def ofList [Std.TransOrd κ] (es : List (κ × α)) : Table κ α :=
  es.foldl (fun t e => t.insert e.1 e.2) empty

def get? [BEq κ] (t : Table κ α) (key : κ) : Option α := t.entries.lookup key

def keys (t : Table κ α) : List κ := t.entries.map (·.1)

/-- The values, in the order of their keys. -/
def values (t : Table κ α) : List α := t.entries.map (·.2)

def size (t : Table κ α) : Nat := t.entries.length

/-- The value under the smallest key that is not below `key`, else the one under the largest. -/
def atLeast? (t : Table κ α) (key : κ) : Option α :=
  ((t.entries.find? fun e => (compare e.1 key).isGE).or t.entries.getLast?).map (·.2)

end Table

end TernBackend
