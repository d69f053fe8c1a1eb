import TernBackend.Metadata.Unit
import TernBackend.Proofs.Metadata.Run

/-!
# Sinks in front of a store

A sink stands in front of a store when it passes every call on to the store, or turns it down by itself and
leaves the store as it is (`StoreFront`). The store is such a sink, and so is a refusing sink before another
one.

What is emitted into such a sink only adds to the logs of the store. So a part of an emission is described
by what it has added to the logs when it succeeds (`Emission.Adds`). When it fails, the logs still begin with
the earlier ones, which is all that going back to a mark needs.
-/

namespace TernBackend

/-- A call on a sink has come to what it comes to at the store, or the sink has turned it down. -/
def Passed {α : Type} (s : MetadataStore) (direct : Except DebugError α × MetadataStore)
    (answer : Except DebugError α) (after : MetadataStore) : Prop :=
  (answer = direct.1 ∧ after = direct.2) ∨ ∃ e, answer = .error e ∧ after = s

/-- A sink in front of a store. -/
class StoreFront (σ : Type) [MetadataSink σ] where
  store : σ → MetadataStore
  create_passed (s : σ) (node : MetadataNode) :
    Passed (store s) ((store s).create node) (MetadataSink.create s node).1
      (store (MetadataSink.create s node).2)
  attach_passed (s : σ) (group : String) (id : NodeId) :
    Passed (store s) ((store s).attach group id) (MetadataSink.attach s group id).1
      (store (MetadataSink.attach s group id).2)
  mark_eq (s : σ) : MetadataSink.mark s = (store s).mark
  store_rollback (s : σ) (m : Mark) : store (MetadataSink.rollback s m) = (store s).rollback m

instance : StoreFront MetadataStore where
  store s := s
  create_passed _ _ := .inl ⟨rfl, rfl⟩
  attach_passed _ _ _ := .inl ⟨rfl, rfl⟩
  mark_eq _ := rfl
  store_rollback _ _ := rfl

namespace Refusing

variable {σ : Type}

@[simp] theorem inner_count (s : Refusing σ) (m : Method) : (s.count m).inner = s.inner := by
  unfold count
  split <;> rfl

variable [MetadataSink σ] [StoreFront σ]

theorem pass_passed {α : Type} {direct : Except DebugError α × MetadataStore} (s : Refusing σ) (m : Method)
    (call : σ → Except DebugError α × σ)
    (h : Passed (StoreFront.store s.inner) direct (call s.inner).1 (StoreFront.store (call s.inner).2)) :
    Passed (StoreFront.store s.inner) direct (s.pass m call).1 (StoreFront.store (s.pass m call).2.inner) := by
  unfold pass
  split
  · refine .inr ⟨refused m, rfl, ?_⟩
    simp
  · exact h

instance : StoreFront (Refusing σ) where
  store s := StoreFront.store s.inner
  create_passed s node := pass_passed s _ _ (StoreFront.create_passed s.inner node)
  attach_passed s group id := pass_passed s _ _ (StoreFront.attach_passed s.inner group id)
  mark_eq s := StoreFront.mark_eq s.inner
  store_rollback s m := StoreFront.store_rollback s.inner m

end Refusing

/-! ## What a call adds to the logs -/

namespace MetadataLog

theorem Extends.refl (l : MetadataLog) : Extends l l := ⟨List.prefix_refl _, List.prefix_refl _⟩

theorem Extends.trans {l l' l'' : MetadataLog} (h : Extends l l') (h' : Extends l' l'') : Extends l l'' :=
  ⟨h.nodes.trans h'.nodes, h.additions.trans h'.additions⟩

theorem extends_push (l : MetadataLog) (node : MetadataNode) : Extends l (l.push node) :=
  ⟨List.prefix_append _ _, List.prefix_refl _⟩

theorem extends_add (l : MetadataLog) (a : Addition) : Extends l (l.add a) :=
  ⟨List.prefix_refl _, List.prefix_append _ _⟩

/-- Going back to a mark undoes what has come since. -/
theorem Extends.rollback_store {l l' : MetadataLog} (h : Extends l l') :
    l'.store.rollback l.store.mark = l.store := by
  rw [mark_store, ← store_take, h.take]

variable (l : MetadataLog)

theorem create_store (node : MetadataNode) :
    (MetadataStore.Admitted l.nodes node ∧
        l.store.create node = (.ok (MetadataStore.idAt l.nodes.length), (l.push node).store)) ∨
      ∃ e, l.store.create node = (.error e, l.store) := by
  unfold MetadataStore.create
  cases hcheck : l.store.check node with
  | error e => exact .inr ⟨e, rfl⟩
  | ok => exact .inl ⟨MetadataStore.check_eq_ok_iff.1 hcheck, rfl⟩

theorem attach_store (a : Addition) :
    l.store.attach a.group a.operand = (.ok (), (l.add a).store) ∨
      ∃ e, l.store.attach a.group a.operand = (.error e, l.store) := by
  unfold MetadataStore.attach
  split
  · exact .inr ⟨_, rfl⟩
  · exact .inl (by rw [l.store_add])

end MetadataLog

namespace StoreFront

variable {σ : Type} [MetadataSink σ] [StoreFront σ] {s : σ}

/-- A node that is turned down leaves the store as it is. -/
theorem store_of_error {node : MetadataNode} {e : DebugError} {after : σ}
    (h : MetadataSink.create s node = (.error e, after)) : store after = store s := by
  have hpassed := create_passed s node
  rw [h] at hpassed
  rcases hpassed with ⟨hanswer, hstore⟩ | ⟨-, -, hstore⟩
  · unfold MetadataStore.create at hanswer hstore
    split at hanswer
    next hcheck => rw [hstore, hcheck]
    next => cases hanswer
  · exact hstore

/-- A node that is accepted comes in at the end, and its number is its place. -/
theorem store_of_ok {node : MetadataNode} {id : NodeId} {after : σ}
    (h : MetadataSink.create s node = (.ok id, after)) :
    id = MetadataStore.idAt (store s).nodes.length ∧ store after = (store s).push node := by
  have hpassed := create_passed s node
  rw [h] at hpassed
  rcases hpassed with ⟨hanswer, hstore⟩ | ⟨e, hanswer, -⟩
  · unfold MetadataStore.create at hanswer hstore
    split at hanswer
    next => cases hanswer
    next hcheck =>
      rw [hcheck] at hstore
      exact ⟨Except.ok.inj hanswer, hstore⟩
  · cases hanswer

/-- A node is turned down, or it comes in at the end. -/
theorem store_create (s : σ) (node : MetadataNode) :
    store (MetadataSink.create s node).2 = store s ∨
      store (MetadataSink.create s node).2 = (store s).push node := by
  cases h : MetadataSink.create s node with
  | mk answer after =>
    cases answer with
    | error e => exact .inl (store_of_error h)
    | ok id => exact .inr (store_of_ok h).2

theorem nodes_create (s : σ) (node : MetadataNode) :
    (store s).nodes <+: (store (MetadataSink.create s node).2).nodes := by
  rcases store_create s node with hstore | hstore <;> rw [hstore]
  exact List.prefix_append _ _

/-- An operand changes no node. -/
theorem nodes_attach (s : σ) (group : String) (id : NodeId) :
    (store (MetadataSink.attach s group id).2).nodes = (store s).nodes := by
  rcases attach_passed s group id with ⟨-, hstore⟩ | ⟨e, -, hstore⟩
  · rw [hstore]
    unfold MetadataStore.attach MetadataStore.placeOf
    split
    · rfl
    · cases (store s).groups.findIdx? (·.name == group) <;> rfl
  · rw [hstore]

end StoreFront

/-! ## Emissions -/

namespace Emission

variable {σ α β : Type}

theorem bind_run (m : Emission σ α) (f : α → Emission σ β) (s : σ) :
    (m >>= f) s = match m s with
      | (.ok a, s) => f a s
      | (.error e, s) => (.error e, s) := by
  change (match m s with | (a, s) => ExceptT.bindCont f a s) = _
  obtain ⟨_ | _, s⟩ := m s <;> rfl

variable [MetadataSink σ] [StoreFront σ]

/-- An emission adds to the logs of the store, and what it has added when it succeeds satisfies `post`
together with its value. -/
def Adds (l : MetadataLog) (m : Emission σ α) (post : α → MetadataLog → Prop) : Prop :=
  ∀ s : σ, StoreFront.store s = l.store →
    ∃ l', l.Extends l' ∧ StoreFront.store (m s).2 = l'.store ∧ ∀ a, (m s).1 = .ok a → post a l'

variable {l : MetadataLog}

theorem Adds.imp {m : Emission σ α} {post post' : α → MetadataLog → Prop} (hm : Adds l m post)
    (h : ∀ a l', post a l' → post' a l') : Adds l m post' := by
  intro s hs
  obtain ⟨l', hl', hstore, hpost⟩ := hm s hs
  exact ⟨l', hl', hstore, fun a ha => h a l' (hpost a ha)⟩

theorem adds_pure (a : α) : Adds (σ := σ) l (pure a) fun b l' => b = a ∧ l' = l := by
  intro s hs
  refine ⟨l, .refl l, hs, fun b hb => ?_⟩
  cases hb
  exact ⟨rfl, rfl⟩

theorem Adds.bind {m : Emission σ α} {f : α → Emission σ β} {mid : α → MetadataLog → Prop}
    {post : β → MetadataLog → Prop} (hm : Adds l m mid) (hf : ∀ a l', mid a l' → Adds l' (f a) post) :
    Adds l (m >>= f) post := by
  intro s hs
  obtain ⟨l', hl', hstore, hmid⟩ := hm s hs
  rw [bind_run]
  cases hrun : m s with
  | mk answer s' =>
    rw [hrun] at hstore hmid
    cases answer with
    | error e => exact ⟨l', hl', hstore, fun _ h => (nomatch h)⟩
    | ok a =>
      obtain ⟨l'', hl'', hrest⟩ := hf a l' (hmid a rfl) s' hstore
      exact ⟨l'', hl'.trans hl'', hrest⟩

theorem adds_create (node : MetadataNode) :
    Adds (σ := σ) l (create node) fun id l' =>
      MetadataStore.Admitted l.nodes node ∧ id = MetadataStore.idAt l.nodes.length ∧ l' = l.push node := by
  intro s hs
  have hpassed := StoreFront.create_passed s node
  rw [hs] at hpassed
  rcases hpassed with ⟨hanswer, hstore⟩ | ⟨e, hanswer, hstore⟩
  · rcases l.create_store node with ⟨hnode, hcreate⟩ | ⟨e, hcreate⟩
    · rw [hcreate] at hanswer hstore
      refine ⟨l.push node, l.extends_push node, hstore, fun id hid => ⟨hnode, ?_, rfl⟩⟩
      exact (Except.ok.inj (hanswer.symm.trans hid)).symm
    · rw [hcreate] at hanswer hstore
      exact ⟨l, .refl l, hstore, fun id hid => nomatch hanswer.symm.trans hid⟩
  · exact ⟨l, .refl l, hstore, fun id hid => nomatch hanswer.symm.trans hid⟩

theorem adds_attach (group : String) (id : NodeId) :
    Adds (σ := σ) l (attach group id) fun _ l' => l' = l.add ⟨group, id⟩ := by
  intro s hs
  have hpassed := StoreFront.attach_passed s group id
  rw [hs] at hpassed
  rcases hpassed with ⟨hanswer, hstore⟩ | ⟨e, hanswer, hstore⟩
  · rcases l.attach_store ⟨group, id⟩ with hattach | ⟨e, hattach⟩
    · rw [hattach] at hstore
      exact ⟨l.add ⟨group, id⟩, l.extends_add _, hstore, fun _ _ => rfl⟩
    · rw [hattach] at hanswer hstore
      exact ⟨l, .refl l, hstore, fun _ h => nomatch hanswer.symm.trans h⟩
  · exact ⟨l, .refl l, hstore, fun _ h => nomatch hanswer.symm.trans h⟩

end Emission

end TernBackend
