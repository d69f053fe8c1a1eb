import TernBackend.Wire.Utf8

/-!
# Paths

A path is any bytes, split at `/` and read by components. An empty first piece with others behind it
is the root, and a first piece `.` is kept as the current directory. After that the empty pieces and
the pieces `.` mean nothing. Two paths are the same when their components are.

The name of a path is its last component, if that is an ordinary name. The parent is what stands in
front of the name, without the separators and meaningless pieces at its end; nothing else in it is
changed.

Where a path is shown, bytes that are no UTF-8 are replaced, so two paths may be shown as one text.
-/

namespace TernBackend

/-- What stands between the pieces of a path. -/
def slash : UInt8 := 0x2F

def dot : UInt8 := 0x2E

/-- A path, as the bytes that were given. -/
structure Path where
  bytes : Bytes
  deriving Inhabited, DecidableEq

namespace Path

/-- The path that a text names. -/
def ofText (s : String) : Path := ⟨Utf8.encode s⟩

/-- `Path::display`: what is shown of a path. -/
def text (p : Path) : String := Utf8.lossy p.bytes

inductive Component where
  | root
  | current
  | parent
  | normal (name : Bytes)
  deriving DecidableEq

/-- How a path starts: at the root, with a component `.`, or with neither. -/
inductive Start where
  | root
  | current
  | plain
  deriving DecidableEq

/-- The start of a path and the pieces after it, told by the pieces of the whole. -/
def ofPieces : List Bytes → Start × List Bytes
  | [] | [[]] => (.plain, [])
  | [] :: pieces => (.root, pieces)
  | first :: pieces =>
    if first = [dot] then (.current, if pieces = [] then [] else [] :: pieces) else (.plain, first :: pieces)

def split (bs : Bytes) : Start × List Bytes := ofPieces (bs.splitOn slash)

/-- Whether a piece names no component. -/
def isVoid (piece : Bytes) : Bool := piece == [] || piece == [dot]

/-- The component of a piece that is not void. -/
def Component.ofPiece (piece : Bytes) : Component :=
  if piece = [dot, dot] then .parent else .normal piece

def Start.components : Start → List Component
  | .root => [.root]
  | .current => [.current]
  | .plain => []

def Start.bytes : Start → Bytes
  | .root => [slash]
  | .current => [dot]
  | .plain => []

/-- `Path::components`. -/
def components (p : Path) : List Component :=
  let (start, pieces) := split p.bytes
  start.components ++ (pieces.filter fun piece => !isVoid piece).map .ofPiece

/-- `Path::eq`: two paths are compared by their components. -/
def same (p q : Path) : Bool := p.components == q.components

/-- The list without the void pieces at its end. -/
def dropVoidEnd (pieces : List Bytes) : List Bytes :=
  (pieces.reverse.dropWhile isVoid).reverse

/-- `Path::file_name`: the last component, if it is an ordinary name. -/
def name? (p : Path) : Option Bytes :=
  match p.components.getLast? with
  | some (.normal name) => some name
  | _ => none

def join (start : Start) (pieces : List Bytes) : Bytes :=
  start.bytes ++ [slash].intercalate pieces

/-- `Path::parent`, of a path with a name: what stands in front of the last component after the start. -/
def parent (p : Path) : Bytes :=
  let (start, pieces) := split p.bytes
  join start (dropVoidEnd (dropVoidEnd pieces).dropLast)

end Path

end TernBackend
