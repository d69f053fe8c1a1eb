import TernBackend.Metadata.Context
import TernBackend.Source.OutputFile
import TernBackend.Source.Position

/-!
# The header and what hangs off it

The header of an output is a module node, the compile unit, and two flags that state the versions of
the format. It is emitted at most once for a context, and either as a whole or not at all: when the
sink turns a part down, the sink goes back to where it was.

A unit is the handle that the header leaves. Types, subprograms and locations are emitted through
it. A type is emitted once for each descriptor name, and only at the level that has types.
-/

namespace TernBackend

/-- `DebugInfo`. The handle to an emitted header. -/
structure DebugUnit where
  module : NodeId
  compileUnit : NodeId
  source : OutputFile
  /-- The type nodes so far, under the names of their descriptors. -/
  types : List (String × NodeId) := []
  deriving DecidableEq

/-- Actions on a sink that may be turned down. What has been done before a refusal stays done. -/
abbrev Emission (σ : Type) : Type → Type := ExceptT DebugError (StateM σ)

namespace Emission

variable {σ : Type} [MetadataSink σ]

def create (node : MetadataNode) : Emission σ NodeId := fun s => MetadataSink.create s node

def attach (group : String) (id : NodeId) : Emission σ Unit := fun s => MetadataSink.attach s group id

/-- A flag: what to do with several of them, its key and its value. -/
def flag (c : DebugConstants) (key : String) (value : UInt32) : MetadataNode :=
  .tuple [.int c.flagBehavior.tag, .string key, .int value.toUInt64]

def unitNode (c : DebugConstants) (source : OutputFile) : MetadataNode :=
  .compileUnit c.language source.file source.folder c.producer false "" c.runtimeVersion

/-- `emit_header`. -/
def header (c : DebugConstants) (source : OutputFile) : Emission σ DebugUnit := do
  let module ← create (.module source.text)
  let compileUnit ← create (unitNode c source)
  let dwarf ← create (flag c c.dwarfVersionKey c.dwarfVersion)
  let debugInfo ← create (flag c c.debugInfoVersionKey c.debugInfoVersion)
  attach c.flagsGroup dwarf
  attach c.flagsGroup debugInfo
  return { module, compileUnit, source }

end Emission

namespace DebugContext

variable {σ : Type} [MetadataSink σ]

/-- The output of a context as a file in a folder. -/
def source (ctx : DebugContext σ) : OutputFile := .ofPath? ctx.config.outputPath

/-- `generate_debug_info_header`. Without debug information there is nothing to emit. -/
def emitHeader (ctx : DebugContext σ) : Except DebugError (Option DebugUnit) × DebugContext σ :=
  if !ctx.hasDebugInfo then (.ok none, ctx)
  else if ctx.headerEmitted then (.error .headerAlreadyEmitted, ctx)
  else
    match Emission.header ctx.constants ctx.source ctx.sink with
    | (.ok unit, sink) => (.ok (some unit), { ctx with sink, headerEmitted := true })
    | (.error e, sink) => (.error e, { ctx with sink := MetadataSink.rollback sink (MetadataSink.mark ctx.sink) })

end DebugContext

namespace DebugUnit

variable {σ : Type} [MetadataSink σ]

/-- `DebugInfo::basic_type`: the node of a type, which is created if no type with the same
descriptor name has one. At a level without types there is none. -/
def emitType (unit : DebugUnit) (ctx : DebugContext σ) (type : SourceType) :
    Except DebugError (Option NodeId) × DebugUnit × DebugContext σ :=
  if ctx.config.debugLevel ≠ .full then (.ok none, unit, ctx)
  else
    match type.descriptor? ctx.layout with
    | none => (.error (.notYetImplemented type.text), unit, ctx)
    | some descriptor =>
      match unit.types.lookup descriptor.name with
      | some id => (.ok (some id), unit, ctx)
      | none =>
        match ctx.onSink (MetadataSink.create · (.ofDescriptor descriptor)) with
        | (.error e, ctx) => (.error e, unit, ctx)
        | (.ok id, ctx) =>
          (.ok (some id), { unit with types := (descriptor.name, id) :: unit.types }, ctx)

/-- `DebugInfo::subprogram`: a subprogram of the compile unit, at the line of an offset. -/
def emitSubprogram (unit : DebugUnit) (ctx : DebugContext σ) (index : LineIndex) (name : String)
    (linkageName : Option String) (offset : Int) : Except DebugError NodeId × DebugContext σ :=
  ctx.onSink (MetadataSink.create · (.subprogram unit.compileUnit name linkageName (index.debugLine offset)))

/-- `DebugInfo::location`: a location for an offset, in a scope. -/
def emitLocation (_unit : DebugUnit) (ctx : DebugContext σ) (index : LineIndex) (offset : Int)
    (scope : NodeId) : Except DebugError NodeId × DebugContext σ :=
  ctx.onSink
    (MetadataSink.create · (.location (index.debugLine offset) (index.debugColumn offset) scope))

end DebugUnit

end TernBackend
