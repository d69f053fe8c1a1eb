import TernBackend.Proofs.Metadata.Header

/-!
# Runs of emissions

Debug information for one output is emitted by a run of calls: for the header, and for types, subprograms and
locations through the handles that the header leaves (`EmissionCall`). Before the header the store is empty and
there are no handles (`Unheaded`). With the header come one compile unit and one group of two flags, and from
then on only symbols come in behind it (`Headed`): each subprogram in the compile unit, and types at the full
level only. Each call keeps this, and no second header is emitted, so it holds after every run
(`run_emission`).
-/

namespace TernBackend

/-! ## Calls -/

/-- A call that emits something. Handles are named by their places in the order in which they came. -/
inductive EmissionCall where
  | header
  /-- A copy of a handle, which from then on has a memory of its own. -/
  | clone (handle : Nat)
  | type (handle : Nat) (type : SourceType)
  | subprogram (handle : Nat) (index : LineIndex) (name : String) (linkageName : Option String) (offset : Int)
  | location (handle : Nat) (index : LineIndex) (offset : Int) (scope : NodeId)

/-- A context and the handles to its header that are about. -/
structure Emitter (σ : Type) where
  context : DebugContext σ
  units : List DebugUnit := []

/-- What a call for the header answers. -/
abbrev HeaderAnswer : Type := Except DebugError (Option DebugUnit)

/-- A header has been emitted. -/
def HeaderAnswer.Succeeded (answer : HeaderAnswer) : Prop := ∃ unit, answer = .ok (some unit)

namespace Emitter

variable {σ : Type} [MetadataSink σ]

/-- The context and the handles after a call. There is no call through a handle that has not come. -/
def apply (e : Emitter σ) : EmissionCall → Emitter σ
  | .header =>
    match e.context.emitHeader with
    | (.ok (some unit), context) => ⟨context, e.units ++ [unit]⟩
    | (_, context) => ⟨context, e.units⟩
  | .clone handle =>
    match e.units[handle]? with
    | none => e
    | some unit => { e with units := e.units ++ [unit] }
  | .type handle type =>
    match e.units[handle]? with
    | none => e
    | some unit =>
      let (_, unit, context) := unit.emitType e.context type
      ⟨context, e.units.set handle unit⟩
  | .subprogram handle index name linkageName offset =>
    match e.units[handle]? with
    | none => e
    | some unit => { e with context := (unit.emitSubprogram e.context index name linkageName offset).2 }
  | .location handle index offset scope =>
    match e.units[handle]? with
    | none => e
    | some unit => { e with context := (unit.emitLocation e.context index offset scope).2 }

def run (e : Emitter σ) (calls : List EmissionCall) : Emitter σ := calls.foldl apply e

/-- The answers to the calls for the header, in order. -/
def headerAnswers (e : Emitter σ) : List EmissionCall → List HeaderAnswer
  | [] => []
  | .header :: calls => e.context.emitHeader.1 :: (e.apply .header).headerAnswers calls
  | call :: calls => (e.apply call).headerAnswers calls

end Emitter

/-! ## Symbols -/

/-- What may come in behind a header that begins the store: its compile unit is node 1. -/
inductive IsSymbol (level : DebugLevel) : MetadataNode → Prop
  | basicType (hlevel : level = .full) (name : String) (size : UInt64) (align : UInt32)
    (encoding : DebugEncoding) : IsSymbol level (.basicType name size align encoding)
  | pointerType (hlevel : level = .full) (pointee : Option NodeId) (size : UInt64) (align : UInt32)
    (name : String) : IsSymbol level (.pointerType pointee size align name)
  | subprogram (scope : NodeId) (hscope : scope.index.toNat = 1) (name : String)
    (linkageName : Option String) (line : Int) : IsSymbol level (.subprogram scope name linkageName line)
  | location (line column : Int) (scope : NodeId) : IsSymbol level (.location line column scope)

theorem isSymbol_ofDescriptor {level : DebugLevel} (hlevel : level = .full) (d : TypeDescriptor) :
    IsSymbol level (.ofDescriptor d) := by
  cases d with
  | basic => exact .basicType hlevel ..
  | pointer => exact .pointerType hlevel ..

/-- A type is emitted at the full level only, and the handle still leads to the same compile unit. -/
theorem DebugUnit.emitType_cases {σ : Type} [MetadataSink σ] (unit : DebugUnit) (ctx : DebugContext σ)
    (type : SourceType) :
    (unit.emitType ctx type).2.1.compileUnit = unit.compileUnit ∧
      ((unit.emitType ctx type).2.2 = ctx ∨
        ctx.config.debugLevel = .full ∧ ∃ d : TypeDescriptor,
          (unit.emitType ctx type).2.2 = (ctx.onSink (MetadataSink.create · (.ofDescriptor d))).2) := by
  unfold emitType
  split
  · exact ⟨rfl, .inl rfl⟩
  next hlevel =>
    split
    · exact ⟨rfl, .inl rfl⟩
    next d _ =>
      split
      · exact ⟨rfl, .inl rfl⟩
      · split
        next hcreate => exact ⟨rfl, .inr ⟨not_not.1 hlevel, d, by rw [hcreate]⟩⟩
        next hcreate => exact ⟨rfl, .inr ⟨not_not.1 hlevel, d, by rw [hcreate]⟩⟩

/-! ## Before and after the header -/

/-- No header has been emitted, and nothing else. -/
structure Unheaded (config : SessionConfig) (ctx : DebugContext MetadataStore) (units : List DebugUnit) : Prop where
  config_eq : ctx.config = config
  constants_eq : ctx.constants = .current
  headerEmitted_eq : ctx.headerEmitted = false
  sink_eq : ctx.sink = .empty
  units_eq : units = []

/-- The header begins the store, and only symbols come behind it. -/
structure Headed (config : SessionConfig) (ctx : DebugContext MetadataStore) (units : List DebugUnit) : Prop where
  config_eq : ctx.config = config
  enabled : config.debugLevel ≠ .none
  headerEmitted_eq : ctx.headerEmitted = true
  nodes : ∃ symbols, ctx.sink.nodes = headerNodes (namedOutput config) ++ symbols ∧
    ∀ node ∈ symbols, IsSymbol config.debugLevel node
  groups : ∃ dwarf debugInfo : NodeId, dwarf.index.toNat = 2 ∧ debugInfo.index.toNat = 3 ∧
    ctx.sink.groups = [⟨"llvm.module.flags", [dwarf, debugInfo]⟩]
  units : ∀ unit ∈ units, unit.compileUnit.index.toNat = 1

section

variable {config : SessionConfig} {before after : DebugContext MetadataStore} {units : List DebugUnit}

/-- An attempt before the header leaves all as it is, or brings the header. -/
theorem Unheaded.attempt {answer : HeaderAnswer} (h : Unheaded config before [])
    (hattempt : HeaderAttempt before answer after) :
    (Unheaded config after [] ∧ ¬ answer.Succeeded) ∨
      ∃ unit, answer = .ok (some unit) ∧ Headed config after [unit] := by
  cases hattempt with
  | disabled => exact .inl ⟨h, by simp [HeaderAnswer.Succeeded]⟩
  | repeated => exact .inl ⟨h, by simp [HeaderAnswer.Succeeded]⟩
  | failed => exact .inl ⟨h, by simp [HeaderAnswer.Succeeded]⟩
  | emitted hlevel _ store unit hadded =>
    obtain ⟨config', constants, layout, sink, emitted⟩ := before
    obtain ⟨rfl, rfl, rfl, rfl, -⟩ := h
    obtain ⟨dwarf, debugInfo, hdwarf, hdebugInfo, hgroups⟩ := hadded.groups
    refine .inr ⟨unit, rfl, rfl, hlevel, rfl, ⟨[], ?_, by simp⟩, ⟨dwarf, debugInfo, ?_, ?_, ?_⟩, ?_⟩
    · rw [List.append_nil]
      exact hadded.nodes
    · exact hdwarf
    · exact hdebugInfo
    · exact hgroups
    · intro unit' hunit'
      rw [List.mem_singleton.1 hunit']
      exact hadded.compileUnit

theorem Headed.push {s : MetadataStore} {node : MetadataNode} (h : Headed config before units)
    (hs : s = before.sink ∨ s = before.sink.push node) (hnode : IsSymbol config.debugLevel node) :
    Headed config { before with sink := s } units := by
  rcases hs with rfl | rfl
  · exact h
  · obtain ⟨symbols, hnodes, hsymbols⟩ := h.nodes
    refine ⟨h.config_eq, h.enabled, h.headerEmitted_eq, ⟨symbols ++ [node], ?_, ?_⟩, h.groups, h.units⟩
    · simp only [MetadataStore.push]
      rw [hnodes, List.append_assoc]
    · intro n hn
      rcases List.mem_append.1 hn with hn | hn
      · exact hsymbols n hn
      · rw [List.mem_singleton.1 hn]
        exact hnode

theorem Headed.withUnits {units' : List DebugUnit} (h : Headed config before units)
    (hunits : ∀ unit ∈ units', unit.compileUnit.index.toNat = 1) : Headed config before units' :=
  { h with units := hunits }

end

/-! ## Steps -/

theorem DebugContext.emitHeader_again {σ : Type} [MetadataSink σ] {ctx : DebugContext σ}
    (hlevel : ctx.config.debugLevel ≠ .none) (hemitted : ctx.headerEmitted = true) :
    ctx.emitHeader = (.error .headerAlreadyEmitted, ctx) := by
  have hdue : ctx.hasDebugInfo = true := by
    rw [← Bool.not_eq_false, hasDebugInfo_eq_false_iff]
    exact hlevel
  simp [emitHeader, hdue, hemitted]

namespace Emitter

variable {σ : Type} [MetadataSink σ] [StoreFront σ] {config : SessionConfig} {e : Emitter σ}

/-- The first call for the header leaves all as it is, or brings the header. -/
theorem unheaded_header (h : Unheaded config e.context.stored e.units) :
    (Unheaded config (e.apply .header).context.stored (e.apply .header).units ∧
        ¬ HeaderAnswer.Succeeded e.context.emitHeader.1) ∨
      (Headed config (e.apply .header).context.stored (e.apply .header).units ∧
        HeaderAnswer.Succeeded e.context.emitHeader.1) := by
  obtain ⟨context, units⟩ := e
  obtain rfl : units = [] := h.units_eq
  have hattempt := h.attempt (DebugContext.emitHeader_attempt (l := {}) h.constants_eq h.sink_eq (by decide))
  simp only [apply]
  rcases hattempt with ⟨hafter, hanswer⟩ | ⟨unit, hanswer, hafter⟩
  · refine .inl ⟨?_, hanswer⟩
    split
    next unit context' heq =>
      rw [heq] at hanswer
      exact absurd ⟨unit, rfl⟩ hanswer
    next context' heq =>
      rw [heq] at hafter
      exact hafter
  · refine .inr ⟨?_, ⟨unit, hanswer⟩⟩
    split
    next unit' context' heq =>
      rw [heq] at hanswer hafter
      cases hanswer
      exact hafter
    next answer context' hnone heq =>
      rw [heq] at hanswer
      exact absurd hanswer (hnone unit)

/-- What comes through the sink is turned down or comes in behind the header. -/
theorem headed_onSink {node : MetadataNode} {units : List DebugUnit} {ctx : DebugContext σ}
    (h : Headed config ctx.stored units) (hnode : IsSymbol config.debugLevel node) :
    Headed config (ctx.onSink (MetadataSink.create · node)).2.stored units :=
  h.push (StoreFront.store_create ctx.sink node) hnode

theorem headed_apply (h : Headed config e.context.stored e.units) (call : EmissionCall) :
    Headed config (e.apply call).context.stored (e.apply call).units := by
  obtain ⟨context, units⟩ := e
  have hunit : ∀ {handle : Nat} {unit : DebugUnit}, units[handle]? = some unit →
      unit.compileUnit.index.toNat = 1 := fun hsome => h.units _ (List.mem_of_getElem? hsome)
  cases call with
  | header =>
    have hlevel : context.config.debugLevel ≠ .none := by
      intro hnone
      exact h.enabled (h.config_eq ▸ hnone)
    simp only [apply, DebugContext.emitHeader_again hlevel h.headerEmitted_eq]
    exact h
  | clone handle =>
    simp only [apply]
    split
    · exact h
    next unit hsome =>
      refine h.withUnits fun unit' hunit' => ?_
      rcases List.mem_append.1 hunit' with hold | hnew
      · exact h.units unit' hold
      · rw [List.mem_singleton.1 hnew]
        exact hunit hsome
  | type handle type =>
    simp only [apply]
    split
    · exact h
    next unit hsome =>
      obtain ⟨hcompileUnit, hcontext⟩ := unit.emitType_cases context type
      have hcontext : Headed config (unit.emitType context type).2.2.stored units := by
        rcases hcontext with heq | ⟨hlevel, d, heq⟩
        · rw [heq]
          exact h
        · rw [heq]
          exact headed_onSink h (isSymbol_ofDescriptor (h.config_eq ▸ hlevel) d)
      -- the handle comes back with one more type, and leads to the same compile unit
      refine hcontext.withUnits fun unit' hunit' => ?_
      rcases List.mem_or_eq_of_mem_set hunit' with hold | hnew
      · exact h.units unit' hold
      · rw [hnew, hcompileUnit]
        exact hunit hsome
  | subprogram handle index name linkageName offset =>
    simp only [apply]
    split
    · exact h
    next unit hsome => exact headed_onSink h (.subprogram _ (hunit hsome) ..)
  | location handle index offset scope =>
    simp only [apply]
    split
    · exact h
    · exact headed_onSink h (.location ..)

/-! ## Runs -/

theorem headed_run (h : Headed config e.context.stored e.units) (calls : List EmissionCall) :
    Headed config (e.run calls).context.stored (e.run calls).units ∧
      ∀ answer ∈ e.headerAnswers calls, answer = .error .headerAlreadyEmitted := by
  induction calls generalizing e with
  | nil => exact ⟨h, by simp [headerAnswers]⟩
  | cons call calls ih =>
    obtain ⟨hrun, hanswers⟩ := ih (headed_apply h call)
    refine ⟨hrun, ?_⟩
    cases call with
    | header =>
      have hlevel : e.context.config.debugLevel ≠ .none := by
        intro hnone
        exact h.enabled (h.config_eq ▸ hnone)
      simp only [headerAnswers, List.forall_mem_cons]
      exact ⟨by rw [DebugContext.emitHeader_again hlevel h.headerEmitted_eq], hanswers⟩
    | clone | type | subprogram | location => exact hanswers

/-- A run brings no header, or it brings one and then only refuses others. -/
theorem unheaded_run (h : Unheaded config e.context.stored e.units) (calls : List EmissionCall) :
    ((Unheaded config (e.run calls).context.stored (e.run calls).units ∧
          ∀ answer ∈ e.headerAnswers calls, ¬ answer.Succeeded) ∨
        (Headed config (e.run calls).context.stored (e.run calls).units ∧
          ∃ answer ∈ e.headerAnswers calls, answer.Succeeded)) ∧
      (e.headerAnswers calls).Pairwise fun a b => a.Succeeded → b = .error .headerAlreadyEmitted := by
  induction calls generalizing e with
  | nil => exact ⟨.inl ⟨h, by simp [headerAnswers]⟩, .nil⟩
  | cons call calls ih =>
    cases call with
    | header =>
      rcases unheaded_header h with ⟨hnext, hanswer⟩ | ⟨hnext, hanswer⟩
      · obtain ⟨hcases, hpairwise⟩ := ih hnext
        refine ⟨?_, List.pairwise_cons.2 ⟨fun b _ hsucceeded => absurd hsucceeded hanswer, hpairwise⟩⟩
        rcases hcases with ⟨hrun, hnone⟩ | ⟨hrun, answer, hmem, hsucceeded⟩
        · exact .inl ⟨hrun, List.forall_mem_cons.2 ⟨hanswer, hnone⟩⟩
        · exact .inr ⟨hrun, answer, List.mem_cons_of_mem _ hmem, hsucceeded⟩
      -- from here on there is a header, and all later answers are the same error
      · obtain ⟨hrun, hagain⟩ := headed_run hnext calls
        refine ⟨.inr ⟨hrun, _, List.mem_cons_self, hanswer⟩, List.pairwise_cons.2 ⟨fun b hb _ => hagain b hb, ?_⟩⟩
        exact List.pairwise_of_forall_mem_list fun a _ b hb _ => hagain b hb
    | clone | type | subprogram | location =>
      obtain ⟨context, units⟩ := e
      obtain rfl : units = [] := h.units_eq
      exact ih h

end Emitter

/-! ## What the header and the symbols are -/

/-- Whether a node describes a type. -/
def MetadataNode.isType : MetadataNode → Bool
  | basicType .. | pointerType .. => true
  | _ => false

theorem IsSymbol.isCompileUnit_eq_false {level : DebugLevel} {node : MetadataNode} (h : IsSymbol level node) :
    node.isCompileUnit = false := by
  cases h <;> rfl

theorem IsSymbol.isType_eq_false {level : DebugLevel} {node : MetadataNode} (h : IsSymbol level node)
    (hlevel : level ≠ .full) : node.isType = false := by
  cases h with
  | basicType hfull | pointerType hfull => exact absurd hfull hlevel
  | subprogram | location => rfl

namespace Headed

variable {config : SessionConfig} {ctx : DebugContext MetadataStore} {units : List DebugUnit}

theorem compileUnitCount_eq (h : Headed config ctx units) : ctx.sink.compileUnitCount = 1 := by
  obtain ⟨symbols, hnodes, hsymbols⟩ := h.nodes
  have hnone : symbols.countP (·.isCompileUnit) = 0 := by
    refine List.countP_eq_zero.2 fun node hnode => ?_
    rw [(hsymbols node hnode).isCompileUnit_eq_false]
    decide
  rw [MetadataStore.compileUnitCount, hnodes, List.countP_append, hnone]
  rfl

/-- A node of the header is read at its place. -/
theorem node?_eq (h : Headed config ctx units) {id : NodeId} {place : Nat} (hid : id.index.toNat = place)
    (hplace : place < 4) : ctx.sink.node? id = (headerNodes (namedOutput config))[place]? := by
  obtain ⟨symbols, hnodes, -⟩ := h.nodes
  rw [MetadataStore.node?, hnodes, hid, List.getElem?_append_left hplace]

theorem flags (h : Headed config ctx units) :
    ∃ dwarf debugInfo : NodeId, ctx.sink.groups = [⟨"llvm.module.flags", [dwarf, debugInfo]⟩] ∧
      ctx.sink.node? dwarf = some (.tuple [.int 2, .string "Dwarf Version", .int 2]) ∧
      ctx.sink.node? debugInfo = some (.tuple [.int 2, .string "Debug Info Version", .int 3]) := by
  obtain ⟨dwarf, debugInfo, hdwarf, hdebugInfo, hgroups⟩ := h.groups
  refine ⟨dwarf, debugInfo, hgroups, ?_, ?_⟩
  · rw [h.node?_eq hdwarf (by decide)]
    rfl
  · rw [h.node?_eq hdebugInfo (by decide)]
    rfl

theorem scope_isCompileUnit (h : Headed config ctx units) {scope : NodeId} {name : String}
    {linkageName : Option String} {line : Int}
    (hmem : .subprogram scope name linkageName line ∈ ctx.sink.nodes) :
    ∃ unit, ctx.sink.node? scope = some unit ∧ unit.isCompileUnit = true := by
  obtain ⟨symbols, hnodes, hsymbols⟩ := h.nodes
  rw [hnodes] at hmem
  rcases List.mem_append.1 hmem with hheader | hsymbol
  · simp [headerNodes] at hheader
  · cases hsymbols _ hsymbol with
    | subprogram _ hscope => exact ⟨_, h.node?_eq hscope (by decide), rfl⟩

theorem isType_eq_false (h : Headed config ctx units) (hlevel : config.debugLevel ≠ .full) :
    ∀ node ∈ ctx.sink.nodes, node.isType = false := by
  intro node hnode
  obtain ⟨symbols, hnodes, hsymbols⟩ := h.nodes
  rw [hnodes] at hnode
  rcases List.mem_append.1 hnode with hheader | hsymbol
  -- none of the four nodes of the header is a type
  · simp only [headerNodes, List.mem_cons, List.not_mem_nil, or_false] at hheader
    rcases hheader with rfl | rfl | rfl | rfl <;> rfl
  · exact (hsymbols node hsymbol).isType_eq_false hlevel

end Headed

/-! ## The result -/

/-- An empty store, no header and no handles. -/
def Emitter.start (config : SessionConfig) (layout : TargetLayout) : Emitter MetadataStore :=
  { context := .ofLayout config layout .empty }

/-- **Debug output in every run.** Any calls are made on one context with an empty store: for the header, and
for types, subprograms and locations through any handles that came from it or copies of these. At the level
without debug information the store stays empty. At the other levels it is empty until a call for the header
succeeds, and from then on it has one compile unit, and one group, the flags with the two versions of the
format. When one call for the header has succeeded all later ones fail, so at most one succeeds. Every
subprogram lies in the compile unit, and without the full level there are no types. -/
theorem run_emission (config : SessionConfig) (layout : TargetLayout) (calls : List EmissionCall) :
    let store := ((Emitter.start config layout).run calls).context.sink
    let answers := (Emitter.start config layout).headerAnswers calls
    (config.debugLevel = .none → store = .empty) ∧
    ((∀ answer ∈ answers, ¬ answer.Succeeded) → store = .empty) ∧
    ((∃ answer ∈ answers, answer.Succeeded) →
      store.compileUnitCount = 1 ∧
      ∃ dwarf debugInfo : NodeId, store.groups = [⟨"llvm.module.flags", [dwarf, debugInfo]⟩] ∧
        store.node? dwarf = some (.tuple [.int 2, .string "Dwarf Version", .int 2]) ∧
        store.node? debugInfo = some (.tuple [.int 2, .string "Debug Info Version", .int 3])) ∧
    (answers.Pairwise fun a b => a.Succeeded → b = .error .headerAlreadyEmitted) ∧
    (∀ scope name linkageName line, .subprogram scope name linkageName line ∈ store.nodes →
      ∃ unit, store.node? scope = some unit ∧ unit.isCompileUnit = true) ∧
    (config.debugLevel ≠ .full → ∀ node ∈ store.nodes, node.isType = false) := by
  intro store answers
  have hstart : Unheaded config (Emitter.start config layout).context.stored (Emitter.start config layout).units :=
    ⟨rfl, rfl, rfl, rfl, rfl⟩
  obtain ⟨hcases, hpairwise⟩ := Emitter.unheaded_run hstart calls
  rcases hcases with ⟨hrun, hnone⟩ | ⟨hrun, hsome⟩
  · have hempty : store = .empty := hrun.sink_eq
    refine ⟨fun _ => hempty, fun _ => hempty, ?_, hpairwise, ?_, ?_⟩
    · rintro ⟨answer, hmem, hsucceeded⟩
      exact absurd hsucceeded (hnone answer hmem)
    · simp [hempty, MetadataStore.empty]
    · simp [hempty, MetadataStore.empty]
  · refine ⟨fun hlevel => absurd hlevel hrun.enabled, ?_, fun _ => ⟨hrun.compileUnitCount_eq, hrun.flags⟩,
      hpairwise, fun _ _ _ _ hmem => hrun.scope_isCompileUnit hmem, hrun.isType_eq_false⟩
    intro hnone
    obtain ⟨answer, hmem, hsucceeded⟩ := hsome
    exact absurd hsucceeded (hnone answer hmem)

/-- A type through a copy of the handle, a subprogram, a second header, and a subprogram without a name. -/
theorem run_emission_symbols :
    let config : SessionConfig := { outputPath := some (.ofText "out/a.o"), debugLevel := .full }
    let layout : TargetLayout := ⟨fun _ => 64, fun _ => 64⟩
    let calls : List EmissionCall := [.header, .clone 0, .type 1 (.any true),
      .subprogram 0 ⟨id, id⟩ "f" none 3, .header, .subprogram 1 ⟨id, id⟩ "" none 0]
    let store := ((Emitter.start config layout).run calls).context.sink
    (Emitter.start config layout).headerAnswers calls =
        [.ok (some (Emission.unitAt 0 (.ofPath? config.outputPath))), .error .headerAlreadyEmitted] ∧
      store.nodes.drop 4 = [.pointerType none 64 64 "Any?", .subprogram ⟨1⟩ "f" none 4] ∧
      store.compileUnitCount = 1 ∧
      ∃ unit, store.node? ⟨1⟩ = some unit ∧ unit.isCompileUnit = true := by
  intro config layout calls
  dsimp only
  have hanswers : (Emitter.start config layout).headerAnswers calls =
      [.ok (some (Emission.unitAt 0 (.ofPath? config.outputPath))), .error .headerAlreadyEmitted] := by
    decide +kernel
  have hsymbols : ((Emitter.start config layout).run calls).context.sink.nodes.drop 4 =
      [.pointerType none 64 64 "Any?", .subprogram ⟨1⟩ "f" none 4] := by
    decide +kernel
  have hmem : .subprogram ⟨1⟩ "f" none 4 ∈ ((Emitter.start config layout).run calls).context.sink.nodes := by
    refine List.mem_of_mem_drop (i := 4) ?_
    rw [hsymbols]
    simp
  obtain ⟨-, -, hheader, -, hscope, -⟩ := run_emission config layout calls
  have hsucceeded : ∃ answer ∈ (Emitter.start config layout).headerAnswers calls, answer.Succeeded := by
    rw [hanswers]
    exact ⟨_, List.mem_cons_self, _, rfl⟩
  exact ⟨hanswers, hsymbols, (hheader hsucceeded).1, hscope _ _ _ _ hmem⟩

end TernBackend
