import Mathlib.Data.List.Forall2

/-!
# Computations that succeed or fail

When a computation that is made of others succeeds, and when it fails: a step and what follows it, one computation
for each element of a list, and one computation after another along a list.
-/

namespace TernBackend

theorem map_eq_ok_iff {ε α β : Type} {a : Except ε α} {f : α → β} {b : β} :
    a.map f = .ok b ↔ ∃ x, a = .ok x ∧ f x = b := by
  cases a <;> simp [Except.map]

theorem map_eq_error_iff {ε α β : Type} {a : Except ε α} {f : α → β} {e : ε} :
    a.map f = .error e ↔ a = .error e := by
  cases a <;> simp [Except.map]

theorem mapError_eq_ok_iff {ε ε' α : Type} {a : Except ε α} {f : ε → ε'} {b : α} :
    a.mapError f = .ok b ↔ a = .ok b := by
  cases a <;> simp [Except.mapError]

theorem bind_eq_ok_iff {ε α β : Type} {a : Except ε α} {next : α → Except ε β} {b : β} :
    (a >>= next) = .ok b ↔ ∃ x, a = .ok x ∧ next x = .ok b := by
  cases a <;> simp [bind, Except.bind]

theorem bind_eq_error_iff {ε α β : Type} {a : Except ε α} {next : α → Except ε β} {e : ε} :
    (a >>= next) = .error e ↔ a = .error e ∨ ∃ x, a = .ok x ∧ next x = .error e := by
  cases a <;> simp [bind, Except.bind]

/-- A list has a counterpart, element by element, when each element has one. -/
theorem exists_forall₂_iff {α β : Type} {R : α → β → Prop} {as : List α} :
    (∃ bs, List.Forall₂ R as bs) ↔ ∀ a ∈ as, ∃ b, R a b := by
  induction as with
  | nil => exact ⟨fun _ _ hmem => absurd hmem List.not_mem_nil, fun _ => ⟨[], .nil⟩⟩
  | cons a as ih =>
    rw [List.forall_mem_cons, ← ih]
    constructor
    · rintro ⟨_, _ | ⟨hb, hbs⟩⟩
      exact ⟨⟨_, hb⟩, _, hbs⟩
    · rintro ⟨⟨b, hb⟩, bs, hbs⟩
      exact ⟨b :: bs, .cons hb hbs⟩

/-- A list of computations succeeds when each of them does. -/
theorem mapM_eq_ok_iff {ε α β : Type} {f : α → Except ε β} {as : List α} {bs : List β} :
    as.mapM f = .ok bs ↔ List.Forall₂ (fun a b => f a = .ok b) as bs := by
  induction as generalizing bs with
  | nil =>
    rw [List.mapM_nil, List.forall₂_nil_left_iff]
    exact ⟨fun h => (Except.ok.inj h).symm, fun h => h ▸ rfl⟩
  | cons a as ih =>
    rw [List.mapM_cons, bind_eq_ok_iff, List.forall₂_cons_left_iff]
    constructor
    · rintro ⟨b, hb, hrest⟩
      obtain ⟨bs', hbs', heq⟩ := bind_eq_ok_iff.1 hrest
      exact ⟨b, bs', hb, ih.1 hbs', (Except.ok.inj heq).symm⟩
    · rintro ⟨b, bs', hb, hbs', rfl⟩
      exact ⟨b, hb, bind_eq_ok_iff.2 ⟨bs', ih.2 hbs', rfl⟩⟩

/-- A computation along a list fails at the first element at which it does. -/
theorem foldlM_eq_error_iff {ε α β : Type} {f : β → α → Except ε β} {as : List α} {b : β} {e : ε} :
    as.foldlM f b = .error e ↔
      ∃ before a after reached, as = before ++ a :: after ∧ before.foldlM f b = .ok reached ∧
        f reached a = .error e := by
  constructor
  · intro h
    induction as generalizing b with
    | nil => cases h
    | cons a as ih =>
      rw [List.foldlM_cons, bind_eq_error_iff] at h
      rcases h with h | ⟨next, hnext, h⟩
      · exact ⟨[], a, as, b, rfl, rfl, h⟩
      · obtain ⟨before, a', after, reached, rfl, hreached, herror⟩ := ih h
        refine ⟨a :: before, a', after, reached, rfl, ?_, herror⟩
        rw [List.foldlM_cons, bind_eq_ok_iff]
        exact ⟨next, hnext, hreached⟩
  · rintro ⟨before, a, after, reached, rfl, hreached, herror⟩
    rw [List.foldlM_append, bind_eq_error_iff]
    refine .inr ⟨reached, hreached, ?_⟩
    rw [List.foldlM_cons, bind_eq_error_iff]
    exact .inl herror

/-- What each step of a computation along a list keeps is kept by the whole. -/
theorem foldlM_keeps {ε α β : Type} {f : β → α → Except ε β} {Keeps : β → Prop} {as : List α}
    (hstep : ∀ b, ∀ a ∈ as, ∀ b', Keeps b → f b a = .ok b' → Keeps b') {b b' : β} (hb : Keeps b)
    (h : as.foldlM f b = .ok b') : Keeps b' := by
  induction as generalizing b with
  | nil => exact Except.ok.inj h ▸ hb
  | cons a as ih =>
    rw [List.foldlM_cons, bind_eq_ok_iff] at h
    obtain ⟨next, hnext, h⟩ := h
    have hkeeps := hstep b a List.mem_cons_self next hb hnext
    exact ih (fun b a ha => hstep b a (List.mem_cons_of_mem _ ha)) hkeeps h

end TernBackend
