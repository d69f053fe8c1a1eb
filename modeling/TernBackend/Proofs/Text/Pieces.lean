/-!
# Lists in pieces

A text, or a path, that is split at a mark has one piece more than it has marks (`length_splitOn`), and the mark is in
none of the pieces (`notMem_of_mem_splitOn`).
-/

namespace TernBackend

variable {α : Type} [BEq α] [LawfulBEq α]

theorem length_splitOn (mark : α) : ∀ cs : List α, (cs.splitOn mark).length = cs.count mark + 1
  | [] => rfl
  | c :: cs => by
    have ih := length_splitOn mark cs
    by_cases hc : c = mark <;> simp [List.splitOn_cons_eq_if_modifyHead, hc, ih]

/-- No piece has the mark in it that the list is split at. -/
theorem notMem_of_mem_splitOn {mark : α} {cs piece : List α} (h : piece ∈ cs.splitOn mark) : mark ∉ piece := by
  induction cs generalizing piece with
  | nil =>
    rw [List.splitOn_nil, List.mem_singleton] at h
    exact h ▸ List.not_mem_nil
  | cons c cs ih =>
    rw [List.splitOn_cons_eq_if_modifyHead] at h
    split at h
    next =>
      rcases List.mem_cons.1 h with rfl | h
      · exact List.not_mem_nil
      · exact ih h
    next hne =>
      cases hpieces : cs.splitOn mark with
      | nil => exact absurd hpieces (List.splitOn_ne_nil mark cs)
      | cons first pieces =>
        rw [hpieces] at h ih
        rcases List.mem_cons.1 h with rfl | h
        · have hmark : mark ≠ c := fun heq => hne (beq_iff_eq.2 heq.symm)
          exact List.not_mem_cons_of_ne_of_not_mem hmark (ih List.mem_cons_self)
        · exact ih (List.mem_cons_of_mem first h)

end TernBackend
