import TernBackend.Table
import TernBackend.Target.Basic
import TernBackend.Text.Numeral

/-!
# Data layouts

A layout text is a list of specifications with `-` between them, each a head and fields with `:`
between them. A specification sets the byte order, the size and alignment of pointers, or the
alignment of one width of integers or floats; the others are accepted and have no effect here. The
last specification for a width wins, and what is not specified keeps its default.

The alignment of a native type is that of its width, else of the next wider width in the table,
else of the widest.
-/

namespace TernBackend

/-- The required and the preferred alignment of a type, in bits. -/
structure Alignment where
  abi : UInt32
  preferred : UInt32
  deriving DecidableEq, Inhabited

inductive LayoutSetting where
  | ignored
  | byteOrder (little : Bool)
  | pointer (size : UInt32) (alignment : Alignment)
  | integer (width : UInt32) (alignment : Alignment)
  | float (width : UInt32) (alignment : Alignment)
  deriving DecidableEq

namespace LayoutSetting

/-- The heads of specifications that matter to others only: mangling, native widths, stack and
aggregate alignment, vectors, and address spaces of functions, globals and allocas. -/
def ignoredHeads : List Char := ['m', 'n', 'S', 'a', 'v', 'A', 'G', 'P', 'F']

/-- `parse_bits`: the bit count that a text stands for. -/
def bits (cs : List Char) : Except LayoutFault UInt32 :=
  match Text.word32? cs with
  | some n => .ok n
  | none => .error (.notABitCount (String.ofList cs))

/-- `parse_alignment`: the alignment of a required bit count and the fields after it. The first of
them, if there is one, is the preferred alignment, which must not be below the required one. -/
def alignment (abi : List Char) (more : List (List Char)) : Except LayoutFault Alignment := do
  let abi ← bits abi
  let preferred ← match more with
    | [] => pure abi
    | text :: _ => bits text
  if preferred < abi then throw (.preferredBelowAbi preferred abi)
  return ⟨abi, preferred⟩

def ofPointer (whole : List Char) : List (List Char) → Except LayoutFault LayoutSetting
  | size :: abi :: more => do
    let size ← bits size
    return .pointer size (← alignment abi more)
  | _ => .error (.pointerNeedsSizeAndAlignment (String.ofList whole))

/-- A specification of one width of integers or floats. -/
def ofWidth (kind : UInt32 → Alignment → LayoutSetting) (whole width : List Char)
    (fields : List (List Char)) : Except LayoutFault LayoutSetting := do
  let width ← bits width
  match fields with
  | abi :: more => return kind width (← alignment abi more)
  | [] => throw (.needsAlignment (String.ofList whole))

/-- The effect of the specification `whole` with the given head and fields, as `DataLayout::apply`
tells the heads apart. -/
def ofFields (whole head : List Char) (fields : List (List Char)) : Except LayoutFault LayoutSetting :=
  match head with
  | ['e'] => .ok (.byteOrder true)
  | ['E'] => .ok (.byteOrder false)
  | 'p' :: space =>
    if space = [] ∨ space = ['0'] then ofPointer whole fields
    else (bits space).map fun _ => .ignored
  | 'i' :: width => ofWidth .integer whole width fields
  | 'f' :: width => ofWidth .float whole width fields
  | c :: _ =>
    if c ∈ ignoredHeads then .ok .ignored
    else .error (.unknownSpecification (String.ofList whole))
  | [] => .error (.unknownSpecification (String.ofList whole))

def ofPiece (piece : List Char) : Except LayoutFault LayoutSetting :=
  match piece.splitOn ':' with
  | head :: fields => ofFields piece head fields
  | [] => .error (.unknownSpecification (String.ofList piece))

end LayoutSetting

/-- `DataLayout`. The layout of a target, as read from a layout text. -/
structure DataLayout where
  source : String
  littleEndian : Bool
  pointerSize : UInt32
  pointerAlignment : Alignment
  integers : Table UInt32 Alignment
  floats : Table UInt32 Alignment

namespace DataLayout

/-- `DataLayout::default`. -/
def standard : DataLayout where
  source := ""
  littleEndian := true
  pointerSize := 64
  pointerAlignment := ⟨64, 64⟩
  integers := .ofList [(1, ⟨8, 8⟩), (8, ⟨8, 8⟩), (16, ⟨16, 16⟩), (32, ⟨32, 32⟩), (64, ⟨32, 64⟩)]
  floats := .ofList [(16, ⟨16, 16⟩), (32, ⟨32, 32⟩), (64, ⟨64, 64⟩), (128, ⟨128, 128⟩)]

instance : Inhabited DataLayout := ⟨standard⟩

/-- What `DataLayout::apply` changes once a specification is understood. -/
def set (layout : DataLayout) : LayoutSetting → DataLayout
  | .ignored => layout
  | .byteOrder little => { layout with littleEndian := little }
  | .pointer size alignment => { layout with pointerSize := size, pointerAlignment := alignment }
  | .integer width alignment => { layout with integers := layout.integers.insert width alignment }
  | .float width alignment => { layout with floats := layout.floats.insert width alignment }

/-- The settings that a layout text makes, in order. -/
def settings (cs : List Char) : Except LayoutFault (List LayoutSetting) :=
  if cs = [] then .ok [] else (cs.splitOn '-').mapM LayoutSetting.ofPiece

/-- `DataLayout::parse`. Of a text with a refused specification nothing is left, so the
specifications may all be read before the first of them takes effect. -/
def parse (text : String) : Except LayoutError DataLayout :=
  match settings text.toList with
  | .ok changes => .ok (changes.foldl set { standard with source := text })
  | .error fault => .error ⟨text, fault⟩

/-- `integer_width`. -/
def width : NativeType → UInt32
  | .i1 => 1
  | .i8 => 8
  | .i16 => 16
  | .i32 | .f32 => 32
  | .i64 | .f64 | .ptr => 64

/-- `lookup`: the alignment that a table gives to a width. -/
def alignmentIn (table : Table UInt32 Alignment) (width : UInt32) : Alignment :=
  (table.atLeast? width).getD ⟨8, 8⟩

/-- `DataLayout::alignment`. -/
def alignment (layout : DataLayout) (type : NativeType) : Alignment :=
  match type with
  | .ptr => layout.pointerAlignment
  | .f32 | .f64 => alignmentIn layout.floats (width type)
  | .i1 | .i8 | .i16 | .i32 | .i64 => alignmentIn layout.integers (width type)

/-- `size_in_bits` of a `DataLayout`. -/
def size (layout : DataLayout) (type : NativeType) : UInt64 :=
  match type with
  | .ptr => layout.pointerSize.toUInt64
  | _ => (width type).toUInt64

/-- `DataLayout` as a `TargetLayout`. -/
def toTargetLayout (layout : DataLayout) : TargetLayout where
  size := layout.size
  preferredAlignment type := (layout.alignment type).preferred

end DataLayout

end TernBackend
