import TernBackend.Image.Registry

/-!
# Threads that share a registry

An open first looks for the image with the right to read the registry. If there is none, it asks for the
right to add one, and when it has it, looks again. Each of the two is one step here, so the runs are all
the interleavings of the opens of the threads.

Whoever asks for an image that has been opened, for their number or for all of them, has the right to read
and changes nothing. What it is told is what the registry says in one state.
-/

namespace TernBackend

/-- A registry over a workspace, and the opens that are under way. -/
structure Sharing (τ D δ : Type) where
  registry : Registry D
  workspace : Workspace D δ
  /-- The path that a thread is opening and has looked for in vain, and its canonical form. -/
  missed : τ → Option (Path × Path)

/-- An open that has been answered. -/
structure Opened (τ : Type) where
  thread : τ
  path : Path
  answer : Answer ImageId

/-- The two steps of `LibraryRegistry::open`. -/
inductive OpenStep where
  /-- Finds the canonical form of a path and looks for its image. -/
  | look (path : Path)
  /-- Looks again and opens the library if its image is still not there. -/
  | add

namespace Sharing

variable {τ D δ : Type} [DecidableEq τ]

/-- Nobody is opening anything, and no library has been opened through the registry. -/
def start (config : SessionConfig) (deserializer : D) (workspace : Workspace D δ) : Sharing τ D δ :=
  ⟨{ config, deserializer }, workspace, fun _ => none⟩

def withMissed (s : Sharing τ D δ) (t : τ) (missed : Option (Path × Path)) : Sharing τ D δ :=
  { s with missed := fun u => if u = t then missed else s.missed u }

def look (s : Sharing τ D δ) (t : τ) (path : Path) : Sharing τ D δ × Option (Opened τ) :=
  match s.workspace.files.canonical path with
  | .error fault => (s, some ⟨t, path, .error (.ofFault path fault)⟩)
  | .ok key =>
    match s.registry.find? key.components with
    | some id => (s, some ⟨t, path, .ok id⟩)
    | none => (s.withMissed t (some (path, key)), none)

def add (s : Sharing τ D δ) (t : τ) (path key : Path) : Sharing τ D δ × Option (Opened τ) :=
  let (answer, registry, workspace) := s.registry.findOrOpen s.workspace key
  ({ s.withMissed t none with registry, workspace }, some ⟨t, path, answer⟩)

/-- The next step of a thread, if it can take it: one open after the other. -/
def step (s : Sharing τ D δ) (t : τ) : OpenStep → Option (Sharing τ D δ × Option (Opened τ))
  | .look path =>
    match s.missed t with
    | none => some (s.look t path)
    | some _ => none
  | .add =>
    match s.missed t with
    | none => none
    | some (path, key) => some (s.add t path key)

end Sharing

end TernBackend
