import TernBackend.Metadata.Sink
import TernBackend.Session.Basic
import TernBackend.Target.Triple

/-!
# Debug contexts

What the emission of debug information for one output reads and writes: the session, the constants
of the format, the layout of the target, and the sink. A context remembers whether the output has
its header.
-/

namespace TernBackend

/-- `CompilationContext`. The surroundings of debug information for one output. -/
structure DebugContext (σ : Type) where
  config : SessionConfig
  constants : DebugConstants := .current
  layout : TargetLayout
  sink : σ
  headerEmitted : Bool := false

namespace DebugContext

variable {σ : Type}

/-- `CompilationContext::new`: the context of an output on a target with the given layout. -/
def ofLayout (config : SessionConfig) (layout : TargetLayout) (sink : σ) : DebugContext σ :=
  { config, layout, sink }

/-- `CompilationContext::for_target`: the context of an output on the target that the session names. -/
def ofSession (config : SessionConfig) (sink : σ) : Except DebugError (DebugContext σ) :=
  match DataLayout.ofTriple config.target with
  | .ok layout => .ok (ofLayout config layout.toTargetLayout sink)
  | .error e => .error (.invalidTargetLayout e)

/-- `CompilationContext::should_contain_debug_info`. -/
def hasDebugInfo (ctx : DebugContext σ) : Bool := ctx.config.debugInfoEnabled

/-- What is done through `CompilationContext::sink_mut`. -/
def onSink {α : Type} (ctx : DebugContext σ) (call : σ → α × σ) : α × DebugContext σ :=
  let (answer, sink) := call ctx.sink
  (answer, { ctx with sink })

end DebugContext

end TernBackend
