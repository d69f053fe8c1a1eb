import TernBackend.Image.Basic

/-!
# Registries

A registry keeps one image for each library of a compilation. Libraries are told apart by the
canonical form of their paths, so different spellings of a path lead to the same image, and the image
stays even when its file is replaced.

Opening looks twice: once before it asks for the right to add an image and once when it has it, for
another caller may have added the image in between.

The images are kept in a map that gives its values in any order it likes. Whoever lists them sorts them by
their names.
-/

namespace TernBackend

/-- `LibraryRegistry`: the images opened so far, under their canonical paths. What counts of a path is
its components. -/
structure Registry (D : Type) where
  config : SessionConfig
  deserializer : D
  images : List (List Path.Component × ImageId) := []

namespace Registry

variable {D δ : Type}

def find? (r : Registry D) (form : List Path.Component) : Option ImageId := r.images.lookup form

def insert (r : Registry D) (form : List Path.Component) (id : ImageId) : Registry D :=
  { r with images := (form, id) :: r.images }

/-- The image of a canonical path, which is opened if it is not there. -/
def findOrOpen (r : Registry D) (ws : Workspace D δ) (key : Path) :
    Answer ImageId × Registry D × Workspace D δ :=
  match r.find? key.components with
  | some id => (.ok id, r, ws)
  | none =>
    match ws.openImage key r.config r.deserializer with
    | (.error e, ws) => (.error e, r, ws)
    | (.ok id, ws) => (.ok id, r.insert key.components id, ws)

/-- `LibraryRegistry::open`: the image of the library at a path. -/
def openLibrary (r : Registry D) (ws : Workspace D δ) (path : Path) :
    Answer ImageId × Registry D × Workspace D δ :=
  match ws.files.canonical path with
  | .error fault => (.error (.ofFault path fault), r, ws)
  | .ok key =>
    match r.find? key.components with
    | some id => (.ok id, r, ws)
    | none => r.findOrOpen ws key

/-- `LibraryRegistry::get`: the image of the library at a path, if it has been opened. -/
def get? (r : Registry D) (files : FileSystem) (path : Path) : Option ImageId :=
  match files.form path with
  | .error _ => none
  | .ok form => r.find? form

/-- `LibraryRegistry::len`. -/
def size (r : Registry D) : Nat := r.images.length

def values (r : Registry D) : List ImageId := r.images.map (·.2)

/-- `LibraryRegistry::libraries`: the images, sorted by their names. Before that they are in the order
in which the map gives its values, which is `order` of the order they are in here. -/
def libraries (r : Registry D) (ws : Workspace D δ) (order : List ImageId → List ImageId) : List ImageId :=
  ws.sortByName (order r.values)

end Registry

end TernBackend
