import TernBackend.Target.Basic

/-!
# Errors of debug information

Every one of them is fatal for the output being compiled: a partial descriptor, or one of the wrong
size, is worse than none.
-/

namespace TernBackend

structure NodeId where
  index : UInt32
  deriving DecidableEq, Inhabited

/-- A node as it is written in messages and dumps. -/
def NodeId.text (id : NodeId) : String := "!" ++ toString id.index.toNat

inductive Objection where
  | emptyName
  /-- A text, given in its escaped form, holds a NUL. -/
  | containsNul (escaped : String)
  | unknownNode (id : NodeId)
  /-- A reason given by a sink of the caller's own. -/
  | other (reason : String)
  deriving DecidableEq

def Objection.message : Objection → String
  | emptyName => "name is empty"
  | containsNul escaped => "'" ++ escaped ++ "' contains NUL"
  | unknownNode id => "unknown node " ++ id.text
  | other reason => reason

/-- `DebugInfoError`. -/
inductive DebugError where
  /-- No descriptor is defined for a type, given as it is written. -/
  | notYetImplemented (type : String)
  | rejected (what : String) (objection : Objection)
  | headerAlreadyEmitted
  /-- A node that belongs to a compile unit was asked for before there is one. -/
  | missingCompileUnit
  | invalidTargetLayout (error : LayoutError)
  deriving DecidableEq

def DebugError.message : DebugError → String
  | notYetImplemented type => "debug info for type '" ++ type ++ "' is not yet implemented"
  | rejected what objection => "debug metadata rejected " ++ what ++ ": " ++ objection.message
  | headerAlreadyEmitted => "debug info header already emitted for this output"
  | missingCompileUnit => "no compile unit in the debug metadata; emit the header first"
  | invalidTargetLayout e => "invalid target layout '" ++ e.layout ++ "': " ++ e.fault.message

end TernBackend
