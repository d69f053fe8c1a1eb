import TernBackend.Proofs.Metadata.Front
import TernBackend.Proofs.Metadata.Objection

/-!
# One node for each descriptor name

A handle remembers the nodes of types under the names of their descriptors. For one layout the name tells the whole
descriptor (`SourceType.descriptor_unique`), so a node that is remembered is right for every type with that name.

A handle does one of four things with a type (`Handle.Emits`): there is no descriptor, the node is remembered, the sink
turns the new node down, or the new node comes in at the end and is remembered. Other calls, through the handle or on
the sink itself (`HandleCall`), leave the memory alone and keep the nodes that no rollback takes away
(`Handle.node?_apply`). So whatever the handle has answered it still knows, and all that it knows was answered and
leads to the right node (`Remembers`). Each call keeps this, and therefore every run does
(`Handle.type_nodes_once`).
-/

namespace TernBackend

/-! ## Nodes of descriptors -/

/-- The node that a type with a descriptor must get. Of a basic type it tells the name, the size, the alignment and the
encoding, of a pointer the name, the size and the alignment, and no pointee. -/
inductive TypeDescriptor.HasNode : TypeDescriptor → MetadataNode → Prop
  | basic (name : String) (size : UInt64) (align : UInt32) (encoding : DebugEncoding) :
      HasNode (.basic name size align encoding) (.basicType name size align encoding)
  | pointer (name : String) (size : UInt64) (align : UInt32) :
      HasNode (.pointer name size align) (.pointerType none size align name)

theorem TypeDescriptor.hasNode_ofDescriptor (d : TypeDescriptor) : d.HasNode (.ofDescriptor d) := by
  cases d with
  | basic name size align encoding => exact .basic name size align encoding
  | pointer name size align => exact .pointer name size align

/-! ## Names of descriptors -/

theorem PrimitiveKind.text_injective : Function.Injective PrimitiveKind.text := by
  intro kind kind' h
  cases kind <;> cases kind' <;> simp [text] at h ⊢

theorem PrimitiveKind.text_ne_reference (kind : PrimitiveKind) : kind.text ≠ TypeDescriptor.reference.name := by
  cases kind <;> decide

namespace SourceType

/-- The types without a descriptor: type parameters, and types that were not resolved. -/
def IsUndescribed : SourceType → Prop
  | parameter _ | unresolved _ => True
  | primitive _ | object .. | any _ => False

variable {layout : TargetLayout} {t t' : SourceType} {d d' : TypeDescriptor}

theorem descriptor?_eq_none_iff : t.descriptor? layout = none ↔ t.IsUndescribed := by
  cases t <;> simp [descriptor?, IsUndescribed]

theorem not_isUndescribed (h : t.descriptor? layout = some d) : ¬ t.IsUndescribed := by
  intro ht
  rw [descriptor?_eq_none_iff.2 ht] at h
  cases h

/-- A descriptor is that of a primitive, or else the reference. -/
theorem descriptor?_cases (h : t.descriptor? layout = some d) :
    (∃ kind : PrimitiveKind, t = .primitive kind ∧ d.name = kind.text) ∨ d = .reference := by
  cases t with
  | primitive kind =>
    cases h
    exact .inl ⟨kind, rfl, rfl⟩
  | object | any => exact .inr (Option.some.inj h).symm
  | parameter | unresolved => cases h

/-- For one layout, the name tells the whole descriptor. -/
theorem descriptor_unique (h : t.descriptor? layout = some d) (h' : t'.descriptor? layout = some d')
    (hname : d.name = d'.name) : d = d' := by
  rcases descriptor?_cases h with ⟨kind, rfl, hkind⟩ | rfl
  · rcases descriptor?_cases h' with ⟨kind', rfl, hkind'⟩ | rfl
    · rw [hkind, hkind'] at hname
      rw [PrimitiveKind.text_injective hname, h'] at h
      exact (Option.some.inj h).symm
    · exact absurd (hkind ▸ hname) kind.text_ne_reference
  · rcases descriptor?_cases h' with ⟨kind', rfl, hkind'⟩ | rfl
    · exact absurd (hkind' ▸ hname.symm) kind'.text_ne_reference
    · rfl

end SourceType

/-! ## Nodes in their places -/

namespace MetadataStore

variable {s s' : MetadataStore} {id : NodeId} {node : MetadataNode}

theorem node?_of_prefix (h : s.nodes <+: s'.nodes) (hnode : s.node? id = some node) : s'.node? id = some node := by
  obtain ⟨rest, hrest⟩ := h
  rw [node?, ← hrest, List.getElem?_append_left (List.getElem?_eq_some_iff.1 hnode).1]
  exact hnode

theorem node?_push_of_eq_some (hnode : s.node? id = some node) (new : MetadataNode) :
    (s.push new).node? id = some node := node?_of_prefix (List.prefix_append _ _) hnode

theorem node?_push_self (h : s.nodes.length < 2 ^ 32) (new : MetadataNode) :
    (s.push new).node? (idAt s.nodes.length) = some new := by
  rw [node?, toNat_idAt h]
  exact List.getElem?_concat_length

theorem node?_rollback {m : Mark} (hid : id.index.toNat < m.nodes) : (s.rollback m).node? id = s.node? id :=
  List.getElem?_take_of_lt hid

end MetadataStore

/-! ## Calls -/

/-- A call through a handle, or on the sink of its context itself. -/
inductive HandleCall where
  | type (type : SourceType)
  | subprogram (index : LineIndex) (name : String) (linkageName : Option String) (offset : Int)
  | location (index : LineIndex) (offset : Int) (scope : NodeId)
  | sink (call : StoreCall)

/-- A call that keeps a node: no rollback goes to so few nodes that this one is gone. -/
def HandleCall.Keeps (id : NodeId) : HandleCall → Prop
  | sink (.rollback m) => id.index.toNat < m.nodes
  | type _ | subprogram .. | location .. | sink (.create _) | sink (.attach ..) => True

instance (id : NodeId) : DecidablePred (HandleCall.Keeps id)
  | .sink (.rollback m) => inferInstanceAs (Decidable (id.index.toNat < m.nodes))
  | .type _ | .subprogram .. | .location .. | .sink (.create _) | .sink (.attach ..) => .isTrue trivial

/-- The sink after a call. -/
def StoreCall.applySink {σ : Type} [MetadataSink σ] (s : σ) : StoreCall → σ
  | create node => (MetadataSink.create s node).2
  | attach group id => (MetadataSink.attach s group id).2
  | rollback m => MetadataSink.rollback s m

/-- A handle to a header, and the context it is used with. -/
structure Handle (σ : Type) where
  unit : DebugUnit
  context : DebugContext σ

namespace Handle

variable {σ : Type}

def withSink (h : Handle σ) (sink : σ) : Handle σ := { h with context := { h.context with sink } }

/-- The handle that knows one more node, under a name. -/
def remember (h : Handle σ) (name : String) (id : NodeId) : Handle σ :=
  { h with unit := { h.unit with types := (name, id) :: h.unit.types } }

/-- The node that a handle knows under a name. -/
def known? (h : Handle σ) (name : String) : Option NodeId := h.unit.types.lookup name

@[simp] theorem known?_remember_self (h : Handle σ) (name : String) (id : NodeId) :
    (h.remember name id).known? name = some id := List.lookup_cons_self

theorem known?_remember_of_ne {h : Handle σ} {name name' : String} {id : NodeId} (hname : name' ≠ name) :
    (h.remember name id).known? name' = h.known? name' := by
  rw [known?, remember, List.lookup_cons, beq_false_of_ne hname]
  rfl

variable [MetadataSink σ]

/-- What is answered for a type. -/
def answer (h : Handle σ) (t : SourceType) : Except DebugError (Option NodeId) := (h.unit.emitType h.context t).1

/-- The handle and its context after a type. -/
def emit (h : Handle σ) (t : SourceType) : Handle σ :=
  let (_, unit, context) := h.unit.emitType h.context t
  ⟨unit, context⟩

def apply (h : Handle σ) : HandleCall → Handle σ
  | .type t => h.emit t
  | .subprogram index name linkageName offset =>
    { h with context := (h.unit.emitSubprogram h.context index name linkageName offset).2 }
  | .location index offset scope => { h with context := (h.unit.emitLocation h.context index offset scope).2 }
  | .sink call => h.withSink (call.applySink h.context.sink)

def run (h : Handle σ) (calls : List HandleCall) : Handle σ := calls.foldl apply h

/-- The calls of a run, each with the state in which it is made. -/
def history (h : Handle σ) : List HandleCall → List (Handle σ × HandleCall)
  | [] => []
  | call :: calls => (h, call) :: (h.apply call).history calls

theorem history_concat (h : Handle σ) (calls : List HandleCall) (call : HandleCall) :
    h.history (calls ++ [call]) = h.history calls ++ [(h.run calls, call)] := by
  induction calls generalizing h with
  | nil => rfl
  | cons first calls ih =>
    rw [List.cons_append, history, history, ih, List.cons_append]
    rfl

theorem run_concat (h : Handle σ) (calls : List HandleCall) (call : HandleCall) :
    h.run (calls ++ [call]) = (h.run calls).apply call := List.foldl_concat ..

/-- The type that a call was for, with the node that was answered for it. -/
def given : Handle σ × HandleCall → Option (SourceType × NodeId)
  | (h, .type t) =>
    match h.answer t with
    | .ok (some id) => some (t, id)
    | .ok none | .error _ => none
  | (_, .subprogram ..) | (_, .location ..) | (_, .sink _) => none

theorem given_eq_some_iff {h : Handle σ} {t t' : SourceType} {id : NodeId} :
    given (h, .type t) = some (t', id) ↔ t = t' ∧ h.answer t = .ok (some id) := by
  cases hanswer : h.answer t with
  | error e => simp [given, hanswer]
  | ok id? => cases id? <;> simp [given, hanswer]

/-! ## One call -/

/-- What a handle answers for a type, and what is then. -/
inductive Emits (h : Handle σ) (t : SourceType) : Except DebugError (Option NodeId) → Handle σ → Prop
  | undescribed (ht : t.IsUndescribed) : Emits h t (.error (.notYetImplemented t.text)) h
  | known {d : TypeDescriptor} {id : NodeId} (hd : t.descriptor? h.context.layout = some d)
    (hid : h.known? d.name = some id) : Emits h t (.ok (some id)) h
  | refused {d : TypeDescriptor} {e : DebugError} {sink : σ} (hd : t.descriptor? h.context.layout = some d)
    (hnew : h.known? d.name = none)
    (hcreate : MetadataSink.create h.context.sink (.ofDescriptor d) = (.error e, sink)) :
    Emits h t (.error e) (h.withSink sink)
  | created {d : TypeDescriptor} {id : NodeId} {sink : σ} (hd : t.descriptor? h.context.layout = some d)
    (hnew : h.known? d.name = none)
    (hcreate : MetadataSink.create h.context.sink (.ofDescriptor d) = (.ok id, sink)) :
    Emits h t (.ok (some id)) ((h.withSink sink).remember d.name id)

variable {h : Handle σ} {t : SourceType}

/-- At the full level a handle does one of these four things. -/
theorem emits (hlevel : h.context.config.debugLevel = .full) (t : SourceType) :
    h.Emits t (h.answer t) (h.emit t) := by
  unfold answer emit DebugUnit.emitType
  rw [if_neg (not_not.2 hlevel)]
  cases hd : t.descriptor? h.context.layout with
  | none => exact .undescribed (SourceType.descriptor?_eq_none_iff.1 hd)
  | some d =>
    cases hid : h.unit.types.lookup d.name with
    | some id =>
      simp only [hid]
      exact .known hd hid
    | none =>
      simp only [hid, DebugContext.onSink]
      cases hcreate : MetadataSink.create h.context.sink (.ofDescriptor d) with
      | mk answer sink =>
        cases answer with
        | error e => exact .refused hd hid hcreate
        | ok id => exact .created hd hid hcreate

theorem answer_ne_none (hlevel : h.context.config.debugLevel = .full) (t : SourceType) : h.answer t ≠ .ok none := by
  have hemits := emits hlevel t
  generalize h.answer t = answer, h.emit t = after at hemits ⊢
  cases hemits <;> simp

theorem answer_eq_notYetImplemented_iff [OwnReasons σ] (hlevel : h.context.config.debugLevel = .full) {text : String} :
    h.answer t = .error (.notYetImplemented text) ↔ t.IsUndescribed ∧ text = t.text := by
  have hemits := emits hlevel t
  generalize h.answer t = answer, h.emit t = after at hemits ⊢
  cases hemits with
  | undescribed ht => simp [ht, eq_comm]
  | known hd | created hd => simp [SourceType.not_isUndescribed hd]
  | @refused d _ _ hd _ hcreate =>
    have hreason := OwnReasons.create_ne h.context.sink (.ofDescriptor d) text
    rw [hcreate] at hreason
    simpa [SourceType.not_isUndescribed hd] using hreason

/-- A type whose node is known gets it, and nothing changes. -/
theorem answer_of_known (hlevel : h.context.config.debugLevel = .full) {d : TypeDescriptor} {id : NodeId}
    (hd : t.descriptor? h.context.layout = some d) (hid : h.known? d.name = some id) :
    h.answer t = .ok (some id) ∧ h.emit t = h := by
  have hemits := emits hlevel t
  generalize h.answer t = answer, h.emit t = after at hemits ⊢
  cases hemits with
  | undescribed ht => exact absurd ht (SourceType.not_isUndescribed hd)
  | known hd' hid' =>
    cases hd.symm.trans hd'
    exact ⟨hid'.symm.trans hid ▸ rfl, rfl⟩
  | refused hd' hnew | created hd' hnew =>
    cases hd.symm.trans hd'
    cases hnew.symm.trans hid

variable [StoreFront σ]

/-- The store behind the sink. -/
def store (h : Handle σ) : MetadataStore := StoreFront.store h.context.sink

@[simp] theorem store_withSink (h : Handle σ) (sink : σ) : (h.withSink sink).store = StoreFront.store sink := rfl

@[simp] theorem store_remember (h : Handle σ) (name : String) (id : NodeId) :
    (h.remember name id).store = h.store := rfl

/-- The nodes that a call for a type has brought. -/
def created : Handle σ × HandleCall → List MetadataNode
  | (h, .type t) => (h.emit t).store.nodes.drop h.store.nodes.length
  | (_, .subprogram ..) | (_, .location ..) | (_, .sink _) => []

theorem created_eq_nil (hstore : (h.emit t).store = h.store) : created (h, .type t) = [] := by
  rw [created, hstore]
  exact List.drop_length

/-- A node stays in its place until a rollback takes it away. -/
theorem node?_apply {call : HandleCall} {id : NodeId} {node : MetadataNode}
    (hlevel : h.context.config.debugLevel = .full) (hkeeps : call.Keeps id) (hnode : h.store.node? id = some node) :
    (h.apply call).store.node? id = some node := by
  cases call with
  | type t =>
    have hemits := emits hlevel t
    change (h.emit t).store.node? id = some node
    generalize h.answer t = answer, h.emit t = after at hemits ⊢
    cases hemits with
    | undescribed | known => exact hnode
    | refused _ _ hcreate => rwa [store_withSink, StoreFront.store_of_error hcreate]
    | created _ _ hcreate =>
      rw [store_remember, store_withSink, (StoreFront.store_of_ok hcreate).2]
      exact MetadataStore.node?_push_of_eq_some hnode _
  | subprogram | location => exact MetadataStore.node?_of_prefix (StoreFront.nodes_create _ _) hnode
  | sink call =>
    cases call with
    | create made => exact MetadataStore.node?_of_prefix (StoreFront.nodes_create _ _) hnode
    | attach group operand =>
      have hnodes := StoreFront.nodes_attach h.context.sink group operand
      exact MetadataStore.node?_of_prefix (hnodes ▸ List.prefix_rfl) hnode
    | rollback m =>
      change (StoreFront.store (MetadataSink.rollback h.context.sink m)).node? id = some node
      rw [StoreFront.store_rollback, MetadataStore.node?_rollback hkeeps]
      exact hnode

theorem emit_of_error (hlevel : h.context.config.debugLevel = .full) {e : DebugError} (he : h.answer t = .error e) :
    (h.emit t).store = h.store ∧ (h.emit t).unit = h.unit := by
  have hemits := emits hlevel t
  rw [he] at hemits
  generalize h.emit t = after at hemits ⊢
  cases hemits with
  | undescribed => exact ⟨rfl, rfl⟩
  | refused _ _ hcreate => exact ⟨StoreFront.store_of_error hcreate, rfl⟩

/-- A type whose node is not known is put to the sink. -/
theorem answer_of_unknown (hlevel : h.context.config.debugLevel = .full) {d : TypeDescriptor}
    (hd : t.descriptor? h.context.layout = some d) (hunknown : h.known? d.name = none) :
    h.answer t = (MetadataSink.create h.context.sink (.ofDescriptor d)).1.map some ∧
      ∀ id, h.answer t = .ok (some id) → (h.emit t).store = h.store.push (.ofDescriptor d) := by
  have hemits := emits hlevel t
  generalize h.answer t = answer, h.emit t = after at hemits ⊢
  cases hemits with
  | undescribed ht => exact absurd ht (SourceType.not_isUndescribed hd)
  | known hd' hid =>
    cases hd.symm.trans hd'
    cases hunknown.symm.trans hid
  | refused hd' _ hcreate =>
    cases hd.symm.trans hd'
    rw [hcreate]
    exact ⟨rfl, nofun⟩
  | created hd' _ hcreate =>
    cases hd.symm.trans hd'
    rw [hcreate]
    exact ⟨rfl, fun _ _ => (StoreFront.store_of_ok hcreate).2⟩

end Handle

open Handle

/-! ## What a handle remembers -/

/-- A handle with its past, at the beginning of which it knew nothing. -/
structure Remembers {σ : Type} [MetadataSink σ] [StoreFront σ] (layout : TargetLayout)
    (past : List (Handle σ × HandleCall)) (h : Handle σ) : Prop where
  level : h.context.config.debugLevel = .full
  layout_eq : h.context.layout = layout
  /-- What was answered is known under the name of its descriptor. -/
  known : ∀ t id, (t, id) ∈ past.filterMap given →
    ∃ d, t.descriptor? layout = some d ∧ h.known? d.name = some id
  /-- What is known was answered, and the node is that of the descriptor with the name. -/
  entry : ∀ name id, h.known? name = some id → ∃ t d, (t, id) ∈ past.filterMap given ∧
    t.descriptor? layout = some d ∧ d.name = name ∧ h.store.node? id = some (.ofDescriptor d)
  /-- The nodes that were brought are those of descriptors with different names, all of them known. -/
  created : ∃ ds : List TypeDescriptor, past.flatMap created = ds.map .ofDescriptor ∧ (ds.map (·.name)).Nodup ∧
    ∀ d ∈ ds, h.known? d.name ≠ none

namespace Remembers

variable {σ : Type} [MetadataSink σ] {past : List (Handle σ × HandleCall)}

theorem mem_given_concat {made : Handle σ × HandleCall} {p : SourceType × NodeId} :
    p ∈ (past ++ [made]).filterMap given ↔ p ∈ past.filterMap given ∨ given made = some p := by
  rw [List.filterMap_append, List.mem_append]
  simp

variable [StoreFront σ] {layout : TargetLayout} {h after : Handle σ} {call : HandleCall} {t : SourceType}
  {d : TypeDescriptor} {id : NodeId}

theorem flatMap_created_concat (made : Handle σ × HandleCall) :
    (past ++ [made]).flatMap Handle.created = past.flatMap Handle.created ++ Handle.created made := by
  rw [List.flatMap_append, List.flatMap_singleton]

/-- What a type was answered is known under the name of its descriptor. -/
theorem known?_eq_some (hr : Remembers layout past h) (hgiven : (t, id) ∈ past.filterMap given)
    (hd : t.descriptor? layout = some d) : h.known? d.name = some id := by
  obtain ⟨d', hd', hid⟩ := hr.known t id hgiven
  rwa [Option.some.inj (hd.symm.trans hd')]

/-- The node of a type that was answered. -/
theorem node?_eq (hr : Remembers layout past h) (hgiven : (t, id) ∈ past.filterMap given)
    (hd : t.descriptor? layout = some d) : h.store.node? id = some (.ofDescriptor d) := by
  obtain ⟨t', d', -, hd', hname, hnode⟩ := hr.entry _ id (hr.known?_eq_some hgiven hd)
  rwa [← SourceType.descriptor_unique hd' hd hname]

theorem known?_eq_none {name : String} (hr : Remembers layout past h)
    (hnone : ∀ t id d, (t, id) ∈ past.filterMap given → t.descriptor? layout = some d → d.name ≠ name) :
    h.known? name = none := by
  rw [Option.eq_none_iff_forall_ne_some]
  intro id hid
  obtain ⟨t, d, hmem, hd, hname, -⟩ := hr.entry name id hid
  exact hnone t id d hmem hd hname

/-- A call that changes no memory, brings no node and answers only what is known. -/
theorem quiet (hr : Remembers layout past h) (hconfig : after.context.config = h.context.config)
    (hlayout : after.context.layout = h.context.layout) (hunit : after.unit = h.unit)
    (hnode : ∀ t id node, (t, id) ∈ past.filterMap given → h.store.node? id = some node →
      after.store.node? id = some node)
    (hgiven : ∀ t id, given (h, call) = some (t, id) →
      ∃ d, t.descriptor? layout = some d ∧ h.known? d.name = some id)
    (hcreated : Handle.created (h, call) = []) : Remembers layout (past ++ [(h, call)]) after := by
  have hsame : after.known? = h.known? := by
    funext name
    rw [known?, hunit, known?]
  refine ⟨hconfig ▸ hr.level, hlayout.trans hr.layout_eq, fun t id hmem => ?_, fun name id hid => ?_, ?_⟩
  · rw [hsame]
    rcases mem_given_concat.1 hmem with hmem | hmem
    · exact hr.known t id hmem
    · exact hgiven t id hmem
  · rw [hsame] at hid
    obtain ⟨t, d, hmem, hd, hname, hold⟩ := hr.entry name id hid
    exact ⟨t, d, mem_given_concat.2 (.inl hmem), hd, hname, hnode t id _ hmem hold⟩
  · rw [flatMap_created_concat, hcreated, List.append_nil, hsame]
    exact hr.created

/-- A type whose new node is accepted. -/
theorem create {sink : σ} (hr : Remembers layout past h) (hfew : h.store.nodes.length < 2 ^ 32)
    (hd : t.descriptor? layout = some d) (hnew : h.known? d.name = none)
    (hcreate : MetadataSink.create h.context.sink (.ofDescriptor d) = (.ok id, sink))
    (hanswer : h.answer t = .ok (some id)) (hemit : h.emit t = (h.withSink sink).remember d.name id) :
    Remembers layout (past ++ [(h, .type t)]) ((h.withSink sink).remember d.name id) := by
  obtain ⟨rfl, hstore⟩ := StoreFront.store_of_ok hcreate
  have hgiven : given (h, .type t) = some (t, MetadataStore.idAt h.store.nodes.length) :=
    given_eq_some_iff.2 ⟨rfl, hanswer⟩
  -- whatever was known has another name, so the new entry hides nothing
  refine ⟨hr.level, hr.layout_eq, fun t' id' hmem => ?_, fun name id' hid' => ?_, ?_⟩
  · rcases mem_given_concat.1 hmem with hmem | hmem
    · obtain ⟨d', hd', hid'⟩ := hr.known t' id' hmem
      have hname : d'.name ≠ d.name := by
        intro hname
        rw [hname, hnew] at hid'
        cases hid'
      exact ⟨d', hd', (known?_remember_of_ne hname).trans hid'⟩
    · cases hgiven.symm.trans hmem
      exact ⟨d, hd, known?_remember_self ..⟩
  · rw [store_remember, store_withSink, hstore]
    by_cases hname : name = d.name
    · subst hname
      rw [known?_remember_self] at hid'
      cases hid'
      exact ⟨t, d, mem_given_concat.2 (.inr hgiven), hd, rfl, MetadataStore.node?_push_self hfew _⟩
    · rw [known?_remember_of_ne hname] at hid'
      obtain ⟨t', d', hmem, hd', hname', hold⟩ := hr.entry name id' hid'
      exact ⟨t', d', mem_given_concat.2 (.inl hmem), hd', hname', MetadataStore.node?_push_of_eq_some hold _⟩
  · obtain ⟨ds, hpast, hnodup, hknown⟩ := hr.created
    have hbrought : Handle.created (h, .type t) = [.ofDescriptor d] := by
      rw [Handle.created, hemit, store_remember, store_withSink, hstore]
      exact List.drop_left
    -- a name that was brought is known, and this one is not
    have hfresh : d.name ∉ ds.map (·.name) := by
      intro hmem
      obtain ⟨d', hd', hname⟩ := List.mem_map.1 hmem
      exact hknown d' hd' (hname ▸ hnew)
    refine ⟨ds ++ [d], ?_, ?_, fun d' hd' => ?_⟩
    · rw [flatMap_created_concat, hpast, hbrought, List.map_append, List.map_singleton]
    · rw [List.map_append, List.map_singleton, ← List.concat_eq_append]
      exact hnodup.concat hfresh
    · by_cases hname : d'.name = d.name
      · rw [hname, known?_remember_self]
        exact Option.some_ne_none _
      · rw [known?_remember_of_ne hname]
        rcases List.mem_append.1 hd' with hd' | hd'
        · exact hknown d' hd'
        · exact absurd (congrArg TypeDescriptor.name (List.mem_singleton.1 hd')) hname

theorem emit (hr : Remembers layout past h) (hfew : h.store.nodes.length < 2 ^ 32) (t : SourceType) :
    Remembers layout (past ++ [(h, .type t)]) (h.emit t) := by
  have hlayout := hr.layout_eq
  have hemits := emits hr.level t
  generalize hanswer : h.answer t = answer, hemit : h.emit t = after at hemits ⊢
  -- only an acceptance changes the memory; in the other cases the call is a quiet one
  cases hemits with
  | undescribed ht =>
    refine hr.quiet rfl rfl rfl (fun _ _ _ _ hnode => hnode) (fun t' id hgiven => ?_)
      (created_eq_nil (congrArg store hemit))
    cases hanswer.symm.trans (given_eq_some_iff.1 hgiven).2
  | known hd hid =>
    refine hr.quiet rfl rfl rfl (fun _ _ _ _ hnode => hnode) (fun t' id' hgiven => ?_)
      (created_eq_nil (congrArg store hemit))
    obtain ⟨rfl, hagain⟩ := given_eq_some_iff.1 hgiven
    cases hanswer.symm.trans hagain
    exact ⟨_, hlayout ▸ hd, hid⟩
  | refused hd hnew hcreate =>
    have hstore := StoreFront.store_of_error hcreate
    refine hr.quiet rfl rfl rfl (fun _ _ node _ hnode => ?_) (fun t' id hgiven => ?_)
      (created_eq_nil ((congrArg store hemit).trans hstore))
    · rwa [store_withSink, hstore]
    · cases hanswer.symm.trans (given_eq_some_iff.1 hgiven).2
  | created hd hnew hcreate => exact hr.create hfew (hlayout ▸ hd) hnew hcreate hanswer hemit

/-- Every call that keeps the nodes that were answered keeps what there is to remember. -/
theorem apply (hr : Remembers layout past h) (hfew : h.store.nodes.length < 2 ^ 32)
    (hkeeps : ∀ p ∈ past.filterMap given, call.Keeps p.2) : Remembers layout (past ++ [(h, call)]) (h.apply call) := by
  cases call with
  | type t => exact hr.emit hfew t
  | subprogram | location | sink =>
    exact hr.quiet rfl rfl rfl (fun t id node hmem hnode => node?_apply hr.level (hkeeps _ hmem) hnode) nofun rfl

end Remembers

/-! ## All calls -/

namespace Handle

variable {σ : Type} [MetadataSink σ] [StoreFront σ]

theorem remembers_run {start : Handle σ} {calls : List HandleCall} (hlevel : start.context.config.debugLevel = .full)
    (hnew : start.unit.types = []) (hfew : ∀ made ∈ start.history calls, made.1.store.nodes.length < 2 ^ 32)
    (hspare : (start.history calls).Pairwise fun earlier later => ∀ p ∈ given earlier, later.2.Keeps p.2) :
    Remembers start.context.layout (start.history calls) (start.run calls) := by
  -- a run goes on at its end, and so does what rollbacks must spare
  induction calls using List.reverseRecOn with
  | nil =>
    refine ⟨hlevel, rfl, nofun, fun name id hid => ?_, [], rfl, List.nodup_nil, nofun⟩
    rw [known?, run, List.foldl_nil, hnew] at hid
    cases hid
  | append_singleton calls call ih =>
    rw [history_concat] at hfew hspare
    obtain ⟨hpast, -, hlast⟩ := List.pairwise_append.1 hspare
    have hr := ih (fun made hmade => hfew made (List.mem_append_left _ hmade)) hpast
    rw [history_concat, run_concat]
    refine hr.apply (hfew _ (List.mem_append_right _ List.mem_cons_self)) fun p hp => ?_
    obtain ⟨made, hmade, hgiven⟩ := List.mem_filterMap.1 hp
    exact hlast made hmade _ List.mem_cons_self p hgiven

/-- **One right node for each descriptor name.** A handle without a memory and its context are used at the full level,
in any calls for types, subprograms and locations, and any calls on the sink itself. The sink is a store, or stands in
front of one and either passes a call on to it or turns it down without touching it (`StoreFront`). It may turn
anything down whenever it likes and for whatever reason it likes, except that it does not say of a node that its type
has no descriptor (`OwnReasons`). There are fewer than 2³² nodes whenever a call is made, and no rollback takes away a
node that has been answered for a type. Then any type gets a node or an error, and the error is that there is no
descriptor, with the type as it is written, just for type parameters and types that were not resolved. Each node that
was answered is still there, a basic type or a pointer without a pointee, with just the name, the size, the alignment
and the encoding of the descriptor of its type (`TypeDescriptor.HasNode`). All types with the same name of a
descriptor, such as all references, were answered with the same node, and get it again without any change. The nodes
that were brought for types are those of descriptors with different names. A type that gets an error changes neither
the store nor the handle. And a type for whose descriptor name no node has been answered, whatever errors there were,
is put to the sink, and gets the new node if the sink takes it. -/
theorem type_nodes_once {σ : Type} [MetadataSink σ] [StoreFront σ] [OwnReasons σ] (start : Handle σ)
    (calls : List HandleCall) (hlevel : start.context.config.debugLevel = .full) (hnew : start.unit.types = [])
    (hfew : ∀ made ∈ start.history calls, made.1.store.nodes.length < 2 ^ 32)
    (hspare : (start.history calls).Pairwise fun earlier later => ∀ p ∈ given earlier, later.2.Keeps p.2) :
    let layout := start.context.layout
    let answered := (start.history calls).filterMap given
    let s := start.run calls
    (∀ t, s.answer t ≠ .ok none ∧
      ∀ text, s.answer t = .error (.notYetImplemented text) ↔ t.IsUndescribed ∧ text = t.text) ∧
    (∀ t id, (t, id) ∈ answered →
      ∃ d node, t.descriptor? layout = some d ∧ d.HasNode node ∧ s.store.node? id = some node ∧
        ∀ t' d', t'.descriptor? layout = some d' → d'.name = d.name →
          (∀ id', (t', id') ∈ answered → id' = id) ∧ s.answer t' = .ok (some id) ∧ s.emit t' = s) ∧
    (∃ ds : List TypeDescriptor, List.Forall₂ TypeDescriptor.HasNode ds ((start.history calls).flatMap created) ∧
      (ds.map (·.name)).Nodup) ∧
    (∀ t e, s.answer t = .error e → (s.emit t).store = s.store ∧ (s.emit t).unit = s.unit) ∧
    ∀ t d, t.descriptor? layout = some d →
      (∀ t' id d', (t', id) ∈ answered → t'.descriptor? layout = some d' → d'.name ≠ d.name) →
        ∃ node, d.HasNode node ∧ s.answer t = (MetadataSink.create s.context.sink node).1.map some ∧
          ∀ id, s.answer t = .ok (some id) → (s.emit t).store = s.store.push node := by
  intro layout answered s
  have hr : Remembers layout (start.history calls) s := remembers_run hlevel hnew hfew hspare
  refine ⟨fun t => ⟨answer_ne_none hr.level t, fun text => answer_eq_notYetImplemented_iff hr.level⟩,
    fun t id hgiven => ?_, ?_, fun t e he => emit_of_error hr.level he, fun t d hd hnone => ?_⟩
  · obtain ⟨d, hd, -⟩ := hr.known t id hgiven
    refine ⟨d, _, hd, d.hasNode_ofDescriptor, hr.node?_eq hgiven hd, fun t' d' hd' hname => ⟨fun id' hgiven' => ?_, ?_⟩⟩
    · have hsame := hr.known?_eq_some hgiven' hd'
      rw [hname, hr.known?_eq_some hgiven hd] at hsame
      exact (Option.some.inj hsame).symm
    · refine answer_of_known hr.level (hr.layout_eq ▸ hd') ?_
      rw [hname]
      exact hr.known?_eq_some hgiven hd
  · obtain ⟨ds, hcreated, hnodup, -⟩ := hr.created
    refine ⟨ds, ?_, hnodup⟩
    rw [hcreated, List.forall₂_map_right_iff, List.forall₂_same]
    exact fun d _ => d.hasNode_ofDescriptor
  · exact ⟨_, d.hasNode_ofDescriptor, answer_of_unknown hr.level (hr.layout_eq ▸ hd) (hr.known?_eq_none hnone)⟩

/-- The first pointer is turned down, and the next type of the same name gets the node. It is the node of the one
after, too, though a rollback has come between and there is another node that looks the same. -/
theorem type_nodes_once_refused :
    let layout : TargetLayout := ⟨fun _ => 32, fun _ => 16⟩
    let header : MetadataStore := { nodes := [Emission.unitNode .current ⟨"a.o", "."⟩] }
    let start : Handle (Refusing MetadataStore) :=
      ⟨{ module := ⟨0⟩, compileUnit := ⟨0⟩, source := ⟨"a.o", "."⟩ },
        .ofLayout { debugLevel := .full } layout ⟨header, some ⟨.pointerType, 1⟩, 0⟩⟩
    let calls : List HandleCall := [.type (.object "Point" false), .type (.parameter "T"), .type (.any true),
      .sink (.create (.pointerType none 64 64 "Any?")), .type (.primitive .int), .sink (.create (.tuple [])),
      .sink (.rollback ⟨4, 0⟩), .type (.object "Line" true)]
    let s := start.run calls
    start.answer (.object "Point" false) = .error (Refusing.refused .pointerType) ∧
      (start.history calls).filterMap given =
        [(.any true, ⟨1⟩), (.primitive .int, ⟨3⟩), (.object "Line" true, ⟨1⟩)] ∧
      s.store.node? ⟨1⟩ = some (.pointerType none 64 64 "Any?") ∧
      s.store.node? ⟨3⟩ = some (.basicType "Int" 32 16 .signed) ∧
      s.answer (.object "Point" false) = .ok (some ⟨1⟩) ∧
      s.answer (.parameter "T") = .error (.notYetImplemented "T") ∧
      s.answer (.primitive .byte) = .ok (some ⟨4⟩) := by
  intro layout header start calls s
  have hanswered : (start.history calls).filterMap given =
      [(.any true, ⟨1⟩), (.primitive .int, ⟨3⟩), (.object "Line" true, ⟨1⟩)] := by
    decide +kernel
  obtain ⟨herror, hnode, -, -, hput⟩ := type_nodes_once start calls rfl rfl (by decide +kernel) (by decide +kernel)
  rw [hanswered] at hnode hput
  refine ⟨by decide +kernel, hanswered, ?_, ?_, ?_, ?_, ?_⟩
  · obtain ⟨d, node, hd, hkind, hright, -⟩ := hnode (.any true) ⟨1⟩ (by simp)
    cases hd
    cases hkind
    exact hright
  · obtain ⟨d, node, hd, hkind, hright, -⟩ := hnode (.primitive .int) ⟨3⟩ (by simp)
    cases hd
    cases hkind
    exact hright
  · obtain ⟨d, -, hd, -, -, hsame⟩ := hnode (.any true) ⟨1⟩ (by simp)
    cases hd
    exact (hsame (.object "Point" false) _ rfl rfl).2.1
  · exact ((herror (.parameter "T")).2 "T").2 ⟨trivial, rfl⟩
  · obtain ⟨node, hkind, hanswer, -⟩ := hput (.primitive .byte) _ rfl (by
      intro t id d' hmem hd'
      simp only [List.mem_cons, Prod.mk.injEq, List.not_mem_nil, or_false] at hmem
      rcases hmem with ⟨rfl, -⟩ | ⟨rfl, -⟩ | ⟨rfl, -⟩ <;>
      · cases hd'
        decide)
    cases hkind
    rw [hanswer]
    decide +kernel

end Handle

end TernBackend
