import TernBackend.Proofs.Metadata.Front
import TernBackend.Proofs.Source.OutputFile

/-!
# The header as a whole

An attempt to emit the header comes to one of four ends (`HeaderAttempt`). There is nothing to emit; or the
header is there already; or a call was turned down, and then the store and the context are as before; or the
header has been added, and then the store has four more nodes at its end and two more operands in the group of
flags, with everything else as before.

That holds for every sink in front of a store, wherever the refusal falls (`emitHeader_attempt`), since the six
calls only add to the logs. At the store itself nothing but a NUL in the output path stands against the header
(`header_all_or_nothing`).
-/

namespace TernBackend

/-! ## Groups with more operands -/

/-- Groups with operands added to the one of a name. A name that has no group gets one at the end. -/
def addOperands (name : String) (ids : List NodeId) (groups : List NamedGroup) : List NamedGroup :=
  if name ∈ groups.map (·.name) then
    groups.map fun g => if g.name = name then { g with operands := g.operands ++ ids } else g
  else groups ++ [⟨name, ids⟩]

theorem addOperands_addOperands (name : String) (xs ys : List NodeId) (groups : List NamedGroup) :
    addOperands name ys (addOperands name xs groups) = addOperands name (xs ++ ys) groups := by
  by_cases h : name ∈ groups.map (·.name)
  · have hnames : name ∈ (groups.map fun g =>
        if g.name = name then { g with operands := g.operands ++ xs } else g).map (·.name) := by
      obtain ⟨g, hg, rfl⟩ := List.mem_map.1 h
      refine List.mem_map.2 ⟨_, List.mem_map.2 ⟨g, hg, if_pos rfl⟩, rfl⟩
    have hxs : addOperands name xs groups = _ := if_pos h
    rw [hxs, addOperands, if_pos hnames, addOperands, if_pos h, List.map_map]
    refine List.map_congr_left fun g _ => ?_
    by_cases hg : g.name = name <;> simp [hg]
  · have hothers : ∀ g ∈ groups, (if g.name = name then { g with operands := g.operands ++ ys } else g) = g := by
      intro g hg
      exact if_neg fun hname => h (List.mem_map.2 ⟨g, hg, hname⟩)
    simp [addOperands, h, List.map_congr_left hothers]

theorem Addition.groups_concat (as : List Addition) (a : Addition) :
    groups (as ++ [a]) = addOperands a.group [a.operand] (groups as) := by
  simp only [groups, addOperands, map_name_groupsOf]
  rw [names_concat]
  by_cases h : a.group ∈ names as
  · rw [if_pos h, if_pos h, groupsOf, groupsOf, List.map_map]
    refine List.map_congr_left fun name _ => ?_
    rw [operandsOf_concat, Function.comp_apply]
    split <;> rfl
  · have hothers : ∀ name ∈ names as, (⟨name, operandsOf (as ++ [a]) name⟩ : NamedGroup) =
        ⟨name, operandsOf as name⟩ := by
      intro name hname
      have hne : name ≠ a.group := fun heq => h (heq ▸ hname)
      rw [operandsOf_concat, if_neg hne]
    rw [if_neg h, if_neg h, groupsOf, groupsOf, List.map_append, List.map_congr_left hothers,
      List.map_singleton, operandsOf_concat, if_pos rfl, operandsOf_eq_nil_iff.2 h]
    rfl

/-! ## The ends of an attempt -/

/-- The file and the folder of the output that a session names. It is that of the path, and a lone dash in no folder
where there is no path. -/
def namedOutput (config : SessionConfig) : OutputFile :=
  match config.outputPath with
  | some p => .ofPath p
  | none => ⟨"-", ""⟩

theorem ofPath?_outputPath (config : SessionConfig) : OutputFile.ofPath? config.outputPath = namedOutput config := by
  unfold namedOutput
  cases config.outputPath <;> rfl

/-- The nodes of a header. -/
def headerNodes (source : OutputFile) : List MetadataNode :=
  [.module source.text,
    .compileUnit .c source.file source.folder DebugConstants.current.producer false "" 2,
    .tuple [.int 2, .string "Dwarf Version", .int 2],
    .tuple [.int 2, .string "Debug Info Version", .int 3]]

/-- A store has the header and otherwise what it had before; the handle denotes the first two new nodes. -/
structure HeaderAdded (source : OutputFile) (before after : MetadataStore) (unit : DebugUnit) : Prop where
  nodes : after.nodes = before.nodes ++ headerNodes source
  groups : ∃ dwarf debugInfo : NodeId,
    dwarf.index.toNat = before.nodes.length + 2 ∧ debugInfo.index.toNat = before.nodes.length + 3 ∧
      after.groups = addOperands "llvm.module.flags" [dwarf, debugInfo] before.groups
  module : unit.module.index.toNat = before.nodes.length
  compileUnit : unit.compileUnit.index.toNat = before.nodes.length + 1
  source_eq : unit.source = source
  types : unit.types = []

/-- What an attempt to emit the header answers, and the context after it. -/
inductive HeaderAttempt (before : DebugContext MetadataStore) :
    Except DebugError (Option DebugUnit) → DebugContext MetadataStore → Prop
  | disabled (hlevel : before.config.debugLevel = .none) : HeaderAttempt before (.ok none) before
  | repeated (hlevel : before.config.debugLevel ≠ .none) (hemitted : before.headerEmitted = true) :
    HeaderAttempt before (.error .headerAlreadyEmitted) before
  | failed (hlevel : before.config.debugLevel ≠ .none) (hemitted : before.headerEmitted = false)
    (e : DebugError) : HeaderAttempt before (.error e) before
  | emitted (hlevel : before.config.debugLevel ≠ .none) (hemitted : before.headerEmitted = false)
    (after : MetadataStore) (unit : DebugUnit)
    (hadded : HeaderAdded (namedOutput before.config) before.sink after unit) :
    HeaderAttempt before (.ok (some unit)) { before with sink := after, headerEmitted := true }

theorem HeaderAttempt.eq_of_error {before after : DebugContext MetadataStore} {e : DebugError}
    (h : HeaderAttempt before (.error e) after) : after = before := by
  cases h with
  | repeated => rfl
  | failed => rfl

/-! ## What the six calls add -/

namespace MetadataLog

/-- The logs with a header. -/
def withHeader (l : MetadataLog) (source : OutputFile) : MetadataLog where
  nodes := l.nodes ++ headerNodes source
  additions := l.additions ++
    [⟨"llvm.module.flags", MetadataStore.idAt (l.nodes.length + 2)⟩,
      ⟨"llvm.module.flags", MetadataStore.idAt (l.nodes.length + 3)⟩]

theorem groups_withHeader (l : MetadataLog) (source : OutputFile) :
    (l.withHeader source).store.groups =
      addOperands "llvm.module.flags"
        [MetadataStore.idAt (l.nodes.length + 2), MetadataStore.idAt (l.nodes.length + 3)] l.store.groups := by
  have hsplit : (l.withHeader source).additions =
      l.additions ++ [⟨"llvm.module.flags", MetadataStore.idAt (l.nodes.length + 2)⟩] ++
        [⟨"llvm.module.flags", MetadataStore.idAt (l.nodes.length + 3)⟩] := by
    simp [withHeader]
  rw [store, hsplit, Addition.groups_concat, Addition.groups_concat, addOperands_addOperands]
  rfl

end MetadataLog

namespace Emission

open MetadataStore

/-- The handle to a header behind so many nodes. -/
def unitAt (place : Nat) (source : OutputFile) : DebugUnit :=
  { module := idAt place, compileUnit := idAt (place + 1), source }

theorem adds_header {σ : Type} [MetadataSink σ] [StoreFront σ] (l : MetadataLog) (source : OutputFile) :
    Adds (σ := σ) l (header .current source) fun unit l' =>
      IsText source.text ∧ unit = unitAt l.nodes.length source ∧ l' = l.withHeader source := by
  -- call by call, each on the logs that the one before it has left
  refine (adds_create _).bind ?_
  rintro module l₁ ⟨hmodule, rfl, rfl⟩
  refine (adds_create _).bind ?_
  rintro compileUnit l₂ ⟨-, rfl, rfl⟩
  refine (adds_create _).bind ?_
  rintro dwarf l₃ ⟨-, rfl, rfl⟩
  refine (adds_create _).bind ?_
  rintro debugInfo l₄ ⟨-, rfl, rfl⟩
  refine (adds_attach _ _).bind ?_
  rintro ⟨⟩ l₅ rfl
  refine (adds_attach _ _).bind ?_
  rintro ⟨⟩ l₆ rfl
  refine (adds_pure _).imp ?_
  rintro unit l' ⟨rfl, rfl⟩
  refine ⟨(hmodule.names _ List.mem_cons_self).2, ?_, ?_⟩
  · simp [unitAt, MetadataLog.push]
  · simp [MetadataLog.withHeader, MetadataLog.push, MetadataLog.add, headerNodes]
    exact ⟨⟨rfl, rfl, rfl⟩, rfl⟩

end Emission

/-! ## Attempts -/

namespace DebugContext

open MetadataStore

variable {σ : Type} [MetadataSink σ] [StoreFront σ]

/-- A context with the store in the place of the sink before it. -/
def stored (ctx : DebugContext σ) : DebugContext MetadataStore := { ctx with sink := StoreFront.store ctx.sink }

omit [MetadataSink σ] in
theorem hasDebugInfo_eq_false_iff {ctx : DebugContext σ} :
    ctx.hasDebugInfo = false ↔ ctx.config.debugLevel = .none := by
  unfold hasDebugInfo SessionConfig.debugInfoEnabled
  cases ctx.config.debugLevel <;> simp [DebugLevel.enabled]

theorem headerAdded_withHeader {l : MetadataLog} (hfew : l.nodes.length + 4 ≤ 2 ^ 32) (source : OutputFile) :
    HeaderAdded source l.store (l.withHeader source).store (Emission.unitAt l.nodes.length source) where
  nodes := rfl
  groups := by
    have hdwarf := toNat_idAt (show l.nodes.length + 2 < 2 ^ 32 by omega)
    have hdebugInfo := toNat_idAt (show l.nodes.length + 3 < 2 ^ 32 by omega)
    exact ⟨_, _, hdwarf, hdebugInfo, l.groups_withHeader source⟩
  module := toNat_idAt (by omega)
  compileUnit := toNat_idAt (by omega)
  source_eq := rfl
  types := rfl

/-- **An attempt to emit the header comes to one of its four ends.** The sink may be any one in front of a
store, and may turn down any call. -/
theorem emitHeader_attempt {l : MetadataLog} {ctx : DebugContext σ} (hconstants : ctx.constants = .current)
    (hstore : StoreFront.store ctx.sink = l.store) (hfew : l.nodes.length + 4 ≤ 2 ^ 32) :
    HeaderAttempt ctx.stored ctx.emitHeader.1 ctx.emitHeader.2.stored := by
  obtain ⟨config, constants, layout, sink, emitted⟩ := ctx
  subst hconstants
  have hheader := Emission.adds_header (σ := σ) l (namedOutput config) sink hstore
  simp only [emitHeader, source]
  rw [ofPath?_outputPath]
  split
  next hnone =>
    rw [Bool.not_eq_true'] at hnone
    exact .disabled (hasDebugInfo_eq_false_iff.1 hnone)
  next hsome =>
    have hlevel : config.debugLevel ≠ .none := by
      intro hnone
      exact hsome (by rw [hasDebugInfo_eq_false_iff.2 hnone, Bool.not_false])
    split
    next hemitted => exact .repeated hlevel hemitted
    next hemitted =>
      rw [Bool.not_eq_true] at hemitted
      split
      next unit sink' hrun =>
        rw [hrun] at hheader
        obtain ⟨l', -, hstore', hpost⟩ := hheader
        obtain ⟨-, rfl, rfl⟩ := hpost unit rfl
        have hadded := headerAdded_withHeader hfew (namedOutput config)
        rw [← hstore, ← hstore'] at hadded
        exact .emitted hlevel hemitted _ _ hadded
      next e sink' hrun =>
        rw [hrun] at hheader
        obtain ⟨l', hl', hstore', -⟩ := hheader
        -- the logs of a failed attempt go on from those at the mark, so the rollback cuts off what was added
        have hback : StoreFront.store (MetadataSink.rollback sink' (MetadataSink.mark sink)) =
            StoreFront.store sink := by
          rw [StoreFront.store_rollback, StoreFront.mark_eq, hstore', hstore, hl'.rollback_store]
        simp only [stored, hback]
        exact .failed hlevel hemitted e

end DebugContext

/-! ## At the store itself -/

namespace Emission

open MetadataStore

variable {s : MetadataStore} {α β : Type}

/-- An emission into a store succeeds, and its value and the store after it satisfy `post`. -/
def Succeeds (s : MetadataStore) (m : Emission MetadataStore α) (post : α → MetadataStore → Prop) : Prop :=
  ∃ a s', m s = (.ok a, s') ∧ post a s'

theorem Succeeds.bind {m : Emission MetadataStore α} {f : α → Emission MetadataStore β}
    {mid : α → MetadataStore → Prop} {post : β → MetadataStore → Prop} (hm : Succeeds s m mid)
    (hf : ∀ a s', mid a s' → Succeeds s' (f a) post) : Succeeds s (m >>= f) post := by
  obtain ⟨a, s', hrun, hmid⟩ := hm
  obtain ⟨b, s'', hrest, hpost⟩ := hf a s' hmid
  refine ⟨b, s'', ?_, hpost⟩
  rw [bind_run, hrun]
  exact hrest

theorem succeeds_create {node : MetadataNode} (h : Admitted s.nodes node) :
    Succeeds s (create node) fun id s' => id = idAt s.nodes.length ∧ s' = s.push node := by
  refine ⟨idAt s.nodes.length, s.push node, ?_, rfl, rfl⟩
  change s.create node = _
  unfold MetadataStore.create
  rw [check_eq_ok_iff.2 h]

theorem succeeds_attach {group : String} {id : NodeId} (hgroup : IsName group)
    (hid : id.index.toNat < s.nodes.length) :
    Succeeds s (attach group id) fun _ s' => s'.nodes = s.nodes := by
  have hok := attach_eq_ok_iff.2 ⟨hgroup, hid⟩
  change ∃ a s', s.attach group id = (.ok a, s') ∧ s'.nodes = s.nodes
  unfold MetadataStore.attach at hok ⊢
  split
  next e herror => simp [herror] at hok
  next =>
    refine ⟨(), _, rfl, ?_⟩
    simp only [append]
    split <;> rfl

theorem toNat_idAt_le (place : Nat) : (idAt place).index.toNat ≤ place := by
  rw [idAt, UInt32.toNat_ofNat']
  exact (Nat.mod_le _ _).trans (Nat.min_le_left _ _)

theorem admitted_module {source : OutputFile} (hfile : source.file ≠ "") (htext : IsText source.text) :
    Admitted s.nodes (.module source.text) := by
  simp [admitted_iff, IsName, htext, OutputFile.text_ne_empty hfile]

theorem admitted_unitNode {source : OutputFile} (hfile : source.file ≠ "") (htext : IsText source.text) :
    Admitted s.nodes (unitNode .current source) := by
  obtain ⟨hfileText, hfolder⟩ := source.isText_text_iff.1 htext
  have hproducer : IsText DebugConstants.current.producer := by
    decide +kernel
  have hflags : IsText "" := by
    decide +kernel
  simp [unitNode, admitted_iff, IsName, hfile, hfileText, hfolder, hproducer, hflags]

theorem admitted_flag {key : String} (hkey : IsText key) (value : UInt32) :
    Admitted s.nodes (flag .current key value) := by
  simp [flag, admitted_iff, hkey]

/-- Nothing but a NUL in the text of the output stands against the header. -/
theorem succeeds_header {source : OutputFile} (hfile : source.file ≠ "") (htext : IsText source.text) :
    Succeeds s (header .current source) fun _ _ => True := by
  have hgroup : IsName DebugConstants.current.flagsGroup := by
    decide +kernel
  have hdwarfKey : IsText DebugConstants.current.dwarfVersionKey := by
    decide +kernel
  have hdebugInfoKey : IsText DebugConstants.current.debugInfoVersionKey := by
    decide +kernel
  refine (succeeds_create (admitted_module hfile htext)).bind ?_
  rintro module s₁ ⟨rfl, rfl⟩
  refine (succeeds_create (admitted_unitNode hfile htext)).bind ?_
  rintro compileUnit s₂ ⟨rfl, rfl⟩
  refine (succeeds_create (admitted_flag hdwarfKey _)).bind ?_
  rintro dwarf s₃ ⟨rfl, rfl⟩
  refine (succeeds_create (admitted_flag hdebugInfoKey _)).bind ?_
  rintro debugInfo s₄ ⟨rfl, rfl⟩
  refine (succeeds_attach hgroup ?_).bind ?_
  · exact (toNat_idAt_le _).trans_lt (by simp [push])
  intro _ s₅ hs₅
  refine (succeeds_attach hgroup ?_).bind ?_
  · exact (toNat_idAt_le _).trans_lt (by simp [hs₅, push])
  intro _ s₆ _
  exact ⟨_, s₆, rfl, trivial⟩

end Emission

/-- A header that is due is emitted just when the text of the output holds no NUL. -/
theorem DebugContext.emitHeader_eq_ok_iff {l : MetadataLog} {ctx : DebugContext MetadataStore}
    (hconstants : ctx.constants = .current) (hsink : ctx.sink = l.store)
    (hlevel : ctx.config.debugLevel ≠ .none) (hemitted : ctx.headerEmitted = false) :
    (∃ unit, ctx.emitHeader.1 = .ok (some unit)) ↔ '\x00' ∉ (namedOutput ctx.config).text.toList := by
  have hdue : ctx.hasDebugInfo = true := by
    rw [← Bool.not_eq_false, hasDebugInfo_eq_false_iff]
    exact hlevel
  unfold emitHeader
  rw [hdue, hemitted, hconstants, ← ofPath?_outputPath]
  constructor
  · rintro ⟨unit, hunit⟩
    obtain ⟨l', -, -, hpost⟩ := Emission.adds_header l ctx.source ctx.sink hsink
    cases hrun : Emission.header .current ctx.source ctx.sink with
    | mk answer s' =>
      rw [hrun] at hpost hunit
      cases answer with
      | error e => cases hunit
      | ok unit => exact (hpost unit rfl).1
  · intro htext
    obtain ⟨unit, s', hrun, -⟩ := Emission.succeeds_header (s := ctx.sink)
      (OutputFile.file_ofPath?_ne_empty ctx.config.outputPath) htext
    exact ⟨unit, by rw [source, hrun]; rfl⟩

/-! ## The result -/

/-- **The header is emitted as a whole or not at all.** The sink is a store after any calls, with or without
another sink before it that refuses one call of any method, and the header does not bring the nodes to more
than 2³². Then an attempt to emit the header comes to one of its four ends: it leaves store and context as they
are when it answers that there is nothing to emit, that the header is there, or that something was turned
down; and otherwise it has added the header, and nothing else. The header is that of the output the session names
(`namedOutput`). At the store itself a header that is due is emitted just when the text of that output holds no
NUL. -/
theorem header_all_or_nothing (calls : List StoreCall)
    (hfew : (MetadataStore.empty.run calls).nodes.length + 4 ≤ 2 ^ 32) :
    (∀ ctx : DebugContext (Refusing MetadataStore), ctx.constants = .current →
      ctx.sink.inner = MetadataStore.empty.run calls →
        HeaderAttempt { ctx with sink := ctx.sink.inner } ctx.emitHeader.1
          { ctx.emitHeader.2 with sink := ctx.emitHeader.2.sink.inner }) ∧
    (∀ ctx : DebugContext MetadataStore, ctx.constants = .current →
      ctx.sink = MetadataStore.empty.run calls →
        HeaderAttempt ctx ctx.emitHeader.1 ctx.emitHeader.2 ∧
        (ctx.config.debugLevel ≠ .none → ctx.headerEmitted = false →
          ((∃ unit, ctx.emitHeader.1 = .ok (some unit)) ↔ '\x00' ∉ (namedOutput ctx.config).text.toList))) := by
  have hlog := MetadataStore.run_eq_store calls
  rw [hlog] at hfew ⊢
  refine ⟨fun ctx hconstants hsink => ?_, fun ctx hconstants hsink => ⟨?_, fun hlevel hemitted => ?_⟩⟩
  · exact DebugContext.emitHeader_attempt hconstants hsink hfew
  · exact DebugContext.emitHeader_attempt hconstants hsink hfew
  · exact DebugContext.emitHeader_eq_ok_iff hconstants hsink hlevel hemitted

/-- A store that holds a node and a group of flags already. The header is emitted into it; when the second
operand is refused, the store is as before. -/
theorem header_all_or_nothing_second_operand :
    let calls : List StoreCall := [.create (.module "m"), .attach "llvm.module.flags" ⟨0⟩]
    let config : SessionConfig := { outputPath := some (.ofText "out/a.o"), debugLevel := .full }
    let s := MetadataStore.empty.run calls
    let ctx : DebugContext MetadataStore := .ofLayout config ⟨fun _ => 64, fun _ => 64⟩ s
    let refusing : DebugContext (Refusing MetadataStore) :=
      .ofLayout config ⟨fun _ => 64, fun _ => 64⟩ { inner := s, refusal := some ⟨.operand, 2⟩ }
    s.nodes.length + 4 ≤ 2 ^ 32 ∧ ctx.constants = .current ∧ refusing.constants = .current ∧
      (∃ unit, ctx.emitHeader.1 = .ok (some unit)) ∧
      ctx.emitHeader.2.sink.node? ⟨1⟩ = some (.module "out/a.o") ∧
      ctx.emitHeader.2.sink.groups = [⟨"llvm.module.flags", [⟨0⟩, ⟨3⟩, ⟨4⟩]⟩] ∧
      refusing.emitHeader.1 = .error (Refusing.refused .operand) ∧ refusing.emitHeader.2.sink.inner = s := by
  intro calls config s ctx refusing
  have hfew : s.nodes.length + 4 ≤ 2 ^ 32 := by
    decide +kernel
  have htext : '\x00' ∉ (namedOutput config).text.toList := by
    decide +kernel
  have hmodule : ctx.emitHeader.2.sink.node? ⟨1⟩ = some (.module "out/a.o") := by
    decide +kernel
  have herror : refusing.emitHeader.1 = .error (Refusing.refused .operand) := by
    decide +kernel
  have hgroups : ctx.emitHeader.2.sink.groups = [⟨"llvm.module.flags", [⟨0⟩, ⟨3⟩, ⟨4⟩]⟩] := by
    decide +kernel
  obtain ⟨hrefusing, hbare⟩ := header_all_or_nothing calls hfew
  have hattempt := hrefusing refusing rfl rfl
  rw [herror] at hattempt
  have hunit := ((hbare ctx rfl rfl).2 (by decide) rfl).2 htext
  exact ⟨hfew, rfl, rfl, hunit, hmodule, hgroups, herror, congrArg DebugContext.sink hattempt.eq_of_error⟩

end TernBackend
