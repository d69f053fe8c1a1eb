import TernBackend.Library.Error

/-!
# File systems

All that a library is told by the files of a machine: the canonical form of a path, and what lies where
a path leads to. How paths are followed is left to the machine. There may be links on the way, a path
may not be followed by whoever asks, and a file that is there may not be read.
-/

namespace TernBackend

/-- What lies where a path leads to. -/
inductive FileEntry where
  /-- A regular file, with what comes of reading it. -/
  | file (content : Except FileFault Bytes)
  /-- Anything else, with what comes of reading it as a file. -/
  | other (fault : FileFault)

structure FileSystem where
  /-- `Path::canonicalize`. -/
  canonical : Path → Except FileFault Path
  entry : Path → Except FileFault FileEntry

namespace FileSystem

/-- The canonical form of a path, by its components, as paths are compared. -/
def form (fs : FileSystem) (p : Path) : Except FileFault (List Path.Component) :=
  (fs.canonical p).map (·.components)

/-- `Path::is_file`. A path that cannot be followed leads to no file. -/
def isFile (fs : FileSystem) (p : Path) : Bool :=
  match fs.entry p with
  | .ok (.file _) => true
  | .ok (.other _) | .error _ => false

/-- `File::open`, and reading all that is there. -/
def read (fs : FileSystem) (p : Path) : Except FileFault Bytes := do
  match ← fs.entry p with
  | .file content => content
  | .other fault => throw fault

end FileSystem

end TernBackend
