import TernBackend.Metadata.Constants
import TernBackend.Metadata.Error
import TernBackend.Source.Type

/-!
# Metadata nodes

The kinds of node that debug metadata is made of, and which other nodes each of them refers to.
-/

namespace TernBackend

/-- `MetadataValue`. An operand of a tuple. -/
inductive MetadataValue where
  | int (value : UInt64)
  | string (text : String)
  | node (id : NodeId)
  deriving DecidableEq

/-- `MetadataNode`. Lines and columns count from one, with `-1` for an unknown one. -/
inductive MetadataNode where
  | module (name : String)
  | compileUnit (language : UnitLanguage) (file directory producer : String) (optimized : Bool)
      (flags : String) (runtimeVersion : UInt32)
  | basicType (name : String) (size : UInt64) (align : UInt32) (encoding : DebugEncoding)
  | pointerType (pointee : Option NodeId) (size : UInt64) (align : UInt32) (name : String)
  | subprogram (scope : NodeId) (name : String) (linkageName : Option String) (line : Int)
  | location (line column : Int) (scope : NodeId)
  | tuple (operands : List MetadataValue)
  deriving DecidableEq

/-- The ways in which metadata is added to a sink: one for each kind of node, and one for the
operands of groups. -/
inductive Method where
  | module
  | compileUnit
  | basicType
  | pointerType
  | subprogram
  | location
  | tuple
  | operand
  deriving DecidableEq

def Method.text : Method → String
  | module => "module"
  | compileUnit => "compile_unit"
  | basicType => "basic_type"
  | pointerType => "pointer_type"
  | subprogram => "subprogram"
  | location => "location"
  | tuple => "tuple"
  | operand => "operand"

namespace MetadataNode

/-- The method that creates a node. -/
def method : MetadataNode → Method
  | module .. => .module
  | compileUnit .. => .compileUnit
  | basicType .. => .basicType
  | pointerType .. => .pointerType
  | subprogram .. => .subprogram
  | location .. => .location
  | tuple .. => .tuple

/-- `MetadataNode::is_compile_unit`. -/
def isCompileUnit : MetadataNode → Bool
  | compileUnit .. => true
  | _ => false

/-- The node that `DebugInfo::basic_type` creates for a descriptor. -/
def ofDescriptor : TypeDescriptor → MetadataNode
  | .basic name size align encoding => .basicType name size align encoding
  | .pointer name size align => .pointerType none size align name

end MetadataNode

end TernBackend
