import TernBackend.Target.Basic

/-!
# Source types and their debug descriptors

Every primitive has a descriptor sized by the target; all references share one opaque pointer; type
parameters and types that were not resolved have no descriptor.
-/

namespace TernBackend

inductive PrimitiveKind where
  | byte
  | short
  | int
  | long
  | boolean
  | float
  | double
  deriving DecidableEq

/-- `DwarfEncoding`. How a debugger reads the bits of a basic type. -/
inductive DebugEncoding where
  | boolean
  | float
  | signed
  deriving DecidableEq

def DebugEncoding.code : DebugEncoding → UInt32
  | boolean => 2
  | float => 4
  | signed => 5

namespace PrimitiveKind

def text : PrimitiveKind → String
  | byte => "Byte"
  | short => "Short"
  | int => "Int"
  | long => "Long"
  | boolean => "Boolean"
  | float => "Float"
  | double => "Double"

/-- `PrimitiveKind::native_type`. -/
def nativeType : PrimitiveKind → NativeType
  | byte => .i8
  | short => .i16
  | int => .i32
  | long => .i64
  | boolean => .i1
  | float => .f32
  | double => .f64

def encoding : PrimitiveKind → DebugEncoding
  | byte | short | int | long => .signed
  | boolean => .boolean
  | float | double => .float

end PrimitiveKind

inductive SourceType where
  | primitive (kind : PrimitiveKind)
  | object (name : String) (nullable : Bool)
  | any (nullable : Bool)
  | parameter (name : String)
  | unresolved (printable : String)
  deriving DecidableEq

/-- `Display` of a `SourceType`: a type as it is written in messages. -/
def SourceType.text : SourceType → String
  | primitive kind => kind.text
  | object name nullable => name ++ (if nullable then "?" else "")
  | any nullable => "Any" ++ (if nullable then "?" else "")
  | parameter name => name
  | unresolved printable => printable

/-- `TypeDescriptor`. What the debugger is told about a type. Sizes and alignments are in bits. -/
inductive TypeDescriptor where
  | basic (name : String) (size : UInt64) (align : UInt32) (encoding : DebugEncoding)
  | pointer (name : String) (size : UInt64) (align : UInt32)
  deriving DecidableEq

namespace TypeDescriptor

/-- `TypeDescriptor::REFERENCE`: the opaque pointer that stands for every reference. -/
def reference : TypeDescriptor := .pointer "Any?" 64 64

def name : TypeDescriptor → String
  | basic name .. | pointer name .. => name

def size : TypeDescriptor → UInt64
  | basic _ size .. | pointer _ size _ => size

def align : TypeDescriptor → UInt32
  | basic _ _ align _ | pointer _ _ align => align

/-- The encoding of a descriptor; pointers have none. -/
def encoding? : TypeDescriptor → Option DebugEncoding
  | basic _ _ _ encoding => some encoding
  | pointer .. => none

end TypeDescriptor

/-- `map_type`: the descriptor of a type on a target, if it has one. The error in its place is told
by whoever asks. -/
def SourceType.descriptor? (type : SourceType) (layout : TargetLayout) : Option TypeDescriptor :=
  match type with
  | primitive kind =>
    some (.basic kind.text (layout.size kind.nativeType) (layout.preferredAlignment kind.nativeType)
      kind.encoding)
  | object .. | any _ => some .reference
  | parameter _ | unresolved _ => none

end TernBackend
