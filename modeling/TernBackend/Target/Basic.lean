/-!
# Native types and what a target says about them

A target gives every native machine type a size and a preferred alignment, both in bits.
-/

namespace TernBackend

/-- `NativeType`. The machine types that debug information speaks about. -/
inductive NativeType where
  | i1
  | i8
  | i16
  | i32
  | i64
  | f32
  | f64
  | ptr
  deriving DecidableEq

namespace NativeType

def text : NativeType → String
  | i1 => "i1"
  | i8 => "i8"
  | i16 => "i16"
  | i32 => "i32"
  | i64 => "i64"
  | f32 => "f32"
  | f64 => "f64"
  | ptr => "ptr"

def all : List NativeType := [i1, i8, i16, i32, i64, f32, f64, ptr]

end NativeType

/-- The trait `TargetLayout`, as its two queries: the size and the preferred alignment of every
native type on one target, in bits. -/
structure TargetLayout where
  size : NativeType → UInt64
  preferredAlignment : NativeType → UInt32

/-- What is wrong with a target triple or a layout text. -/
inductive LayoutFault where
  | malformedTriple
  | unknownArchitecture (arch : String)
  | unknownSpecification (specification : String)
  | pointerNeedsSizeAndAlignment (specification : String)
  | needsAlignment (specification : String)
  | notABitCount (text : String)
  | preferredBelowAbi (preferred abi : UInt32)
  /-- A reason given by a layout of the caller's own. -/
  | other (reason : String)
  deriving DecidableEq

def LayoutFault.message : LayoutFault → String
  | malformedTriple => "expected a target triple <arch>-<vendor>-<os>[-<env>]"
  | unknownArchitecture arch => "no known data layout for architecture '" ++ arch ++ "'"
  | unknownSpecification s => "unknown specification '" ++ s ++ "'"
  | pointerNeedsSizeAndAlignment s => "pointer specification '" ++ s ++ "' needs size and alignment"
  | needsAlignment s => "specification '" ++ s ++ "' needs an alignment"
  | notABitCount t => "'" ++ t ++ "' is not a bit count"
  | preferredBelowAbi preferred abi =>
    "preferred alignment " ++ toString preferred.toNat ++ " is below ABI alignment " ++ toString abi.toNat
  | other reason => reason

/-- `DebugInfoError::InvalidTargetLayout`: a fault together with the whole text it was found in. -/
structure LayoutError where
  layout : String
  fault : LayoutFault
  deriving DecidableEq

end TernBackend
