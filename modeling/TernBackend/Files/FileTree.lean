import TernBackend.Files.FileSystem

/-!
# A tree of files

What lies at every place, and the directory from which relative paths are followed. A place is the
list of names on the way from the root. A path is followed piece by piece: what has been reached must
be a directory before the next piece is looked at, even if that piece is empty, and a name must not
be too long and must lead somewhere. The tree has no links, so the place at the end is the one
canonical form of the path, and everybody may do everything in it, so a file that is reached can be
read. A path that is used to reach a file must not be too long as a whole either; to find its
canonical form it may be.
-/

namespace TernBackend

inductive TreeEntry where
  | file (content : Bytes)
  | directory
  deriving DecidableEq

/-- A place in the tree, as the names from the root. -/
abbrev Place : Type := List Bytes

structure FileTree where
  entry? : Place → Option TreeEntry
  workingDirectory : Place

namespace FileTree

def canonicalPath (place : Place) : Path := ⟨slash :: [slash].intercalate place⟩

/-! ## Following paths -/

def start (tree : FileTree) (bs : Bytes) : Place :=
  if bs.head? = some slash then [] else tree.workingDirectory

/-- The name that a piece stands for, if it is not too long. -/
def name (piece : Bytes) : Except FileFault Bytes :=
  if 255 < piece.length then .error .nameTooLong else .ok piece

def checkDirectory (tree : FileTree) (place : Place) : Except FileFault Unit :=
  match tree.entry? place with
  | some .directory => .ok ()
  | some (.file _) => .error .notADirectory
  | none => .error .notFound

def enter (tree : FileTree) (place : Place) (piece : Bytes) : Except FileFault Place := do
  tree.checkDirectory place
  if piece = [] ∨ piece = [dot] then return place
  else if piece = [dot, dot] then return place.dropLast
  else
    let next := place ++ [← name piece]
    if (tree.entry? next).isSome then return next else throw .notFound

def walk (tree : FileTree) (place : Place) (pieces : List Bytes) : Except FileFault Place :=
  pieces.foldlM tree.enter place

/-- A path must not hold a NUL nor be empty. -/
def checkBytes (bs : Bytes) : Except FileFault Unit :=
  if 0 ∈ bs then .error .nulInPath else if bs = [] then .error .notFound else .ok ()

/-- A path that is used as a whole must not be too long. -/
def checkLength (bs : Bytes) : Except FileFault Unit :=
  if 4095 < bs.length then .error .nameTooLong else .ok ()

def resolve (tree : FileTree) (p : Path) : Except FileFault Place := do
  checkBytes p.bytes
  tree.walk (tree.start p.bytes) (p.bytes.splitOn slash)

/-- The place that a path leads to when it is used as a whole. -/
def reach (tree : FileTree) (p : Path) : Except FileFault Place := do
  checkBytes p.bytes
  checkLength p.bytes
  tree.resolve p

/-- The path that names the place a path leads to from the root. -/
def canonical (tree : FileTree) (p : Path) : Except FileFault Path :=
  (tree.resolve p).map canonicalPath

/-- What lies where a path leads to. -/
def entry (tree : FileTree) (p : Path) : Except FileFault FileEntry := do
  match tree.entry? (← tree.reach p) with
  | some (.file content) => return .file (.ok content)
  | some .directory => return .other .isADirectory
  | none => throw .notFound

def toFileSystem (tree : FileTree) : FileSystem where
  canonical := tree.canonical
  entry := tree.entry

/-! ## Changing the tree -/

def put (tree : FileTree) (place : Place) (entry : Option TreeEntry) : FileTree :=
  { tree with entry? := fun q => if q = place then entry else tree.entry? q }

/-- The place where a path would have a file created. A path that ends in a separator or in a piece
`.` or `..` names a directory; so does the path of one that is there. -/
def target (tree : FileTree) (p : Path) : Except FileFault Place := do
  checkBytes p.bytes
  checkLength p.bytes
  let pieces := (p.bytes.splitOn slash).reverse
  match pieces.dropWhile (· == []) with
  | [] => throw .isADirectory
  | last :: before =>
    let parent ← tree.walk (tree.start p.bytes) before.reverse
    tree.checkDirectory parent
    if pieces.head? = some [] ∨ last = [dot] ∨ last = [dot, dot] then throw .isADirectory
    else
      let place := parent ++ [← name last]
      if tree.entry? place = some .directory then throw .isADirectory else return place

def write (tree : FileTree) (p : Path) (content : Bytes) : Except FileFault FileTree :=
  (tree.target p).map fun place => tree.put place (some (.file content))

/-- `ContainerWriter::write_to`, of the bytes of a container. -/
def writeLibrary (tree : FileTree) (p : Path) (content : Bytes) : Except LibraryError FileTree :=
  (tree.write p content).mapError (.io p)

def modify (tree : FileTree) (p : Path) (change : Bytes → Bytes) : Except FileFault FileTree := do
  let place ← tree.reach p
  match tree.entry? place with
  | some (.file content) => return tree.put place (some (.file (change content)))
  | some .directory => throw .isADirectory
  | none => throw .notFound

/-- Content cut off or filled up with zeros to a length. -/
def resize (length : Nat) (content : Bytes) : Bytes :=
  content.take length ++ .replicate (length - content.length) 0

/-- Content with `bytes` over what was there from `start` on. -/
def overwrite (start : Nat) (bytes content : Bytes) : Bytes :=
  resize start content ++ bytes ++ content.drop (start + bytes.length)

/-- Follows one piece of a path and makes a directory where there is nothing. -/
def enterMaking (reached : FileTree × Place) (piece : Bytes) : Except FileFault (FileTree × Place) :=
  let (tree, place) := reached
  match tree.enter place piece with
  | .ok place => .ok (tree, place)
  | .error .notFound => do
    let place := place ++ [← name piece]
    return (tree.put place (some .directory), place)
  | .error fault => .error fault

/-- The tree in which a path leads to a directory, with the directories on the way. -/
def makeDirectory (tree : FileTree) (p : Path) : Except FileFault FileTree := do
  checkBytes p.bytes
  checkLength p.bytes
  let (tree, place) ← (p.bytes.splitOn slash).foldlM enterMaking (tree, tree.start p.bytes)
  tree.checkDirectory place
  return tree

/-- The tree without what lies at the place a path leads to, and below it. -/
def remove (tree : FileTree) (p : Path) : Except FileFault FileTree :=
  (tree.reach p).map fun place =>
    { tree with entry? := fun q => if place.isPrefixOf q then none else tree.entry? q }

/-- The tree in which what lay at one place lies at another, with all below it. -/
def move (tree : FileTree) (source destination : Place) : FileTree :=
  { tree with
    entry? := fun q =>
      if destination.isPrefixOf q then tree.entry? (source ++ q.drop destination.length)
      else if source.isPrefixOf q then none
      else tree.entry? q }

/-- The tree after what one path leads to has been given another path. -/
def rename (tree : FileTree) (source destination : Path) : Except FileFault FileTree := do
  let place ← tree.reach source
  match tree.entry? place with
  | some .directory =>
    checkBytes destination.bytes
    checkLength destination.bytes
    match (destination.bytes.splitOn slash).reverse.dropWhile (· == []) with
    | [] => throw .isADirectory
    | last :: before =>
      let parent ← tree.walk (tree.start destination.bytes) before.reverse
      return tree.move place (parent ++ [← name last])
  | _ => return tree.move place (← tree.target destination)

/-- A tree of one directory, from which relative paths are followed, and the files in it. -/
def ofFiles (files : List (Bytes × Bytes)) : FileTree where
  entry?
    | [] => some .directory
    | [name] => (files.lookup name).map .file
    | _ :: _ :: _ => none
  workingDirectory := []

end FileTree

end TernBackend
