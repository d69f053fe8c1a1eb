import TernBackend.Container.Reading
import TernBackend.Files.FileSystem
import TernBackend.Package.Deserialization
import TernBackend.Text.Escape

/-!
# Library images

An image stands for one precompiled library. Opening it only looks whether the file is there. Its
header and its descriptor are read when they are first asked for, each at most once, and every later
answer is the first one, whatever has become of the file.

A workspace is a file system and the images opened over it. There is one caller, so a cell that
somebody is computing is being computed by the caller itself: asking for it again is a cycle.
-/

namespace TernBackend

/-- `LibraryImage`, with its deserializer `D` and descriptors `δ`. -/
structure LibraryImage (D δ : Type) where
  /-- The path as it was given at the opening. -/
  path : Path
  config : SessionConfig
  deserializer : D
  header : Cell Unit MetadataHeader := {}
  descriptor : Cell Unit δ := {}
  /-- How many times the header has been read from the file. -/
  headerReads : Nat := 0
  deserializations : Nat := 0

namespace LibraryImage

variable {D δ : Type}

/-- `LibraryImage::library_name`: what is shown of the path. -/
def libraryName (image : LibraryImage D δ) : String := image.path.text

/-- `LibraryImage::bitcode_paths`: the files to link for a library, which are the library itself. -/
def bitcodePaths (image : LibraryImage D δ) : List Path := [image.path]

/-- `LibraryImage::is_materialized`: whether the descriptor, or the error in its place, is there. -/
def isMaterialized (image : LibraryImage D δ) : Bool := image.descriptor.isComplete

def progress (image : LibraryImage D δ) : ImageProgress := ⟨image.headerReads, image.isMaterialized⟩

/-- What is asked of the deserializer once the header is there. -/
def request (image : LibraryImage D δ) (header : MetadataHeader) : DeserializeRequest :=
  ⟨image.path, header.moduleName, header.tableOfContents, image.config⟩

def flagText (b : Bool) : String := if b then "true" else "false"

/-- What is written of an image for debugging. -/
def text (image : LibraryImage D δ) : String :=
  "LibraryImage \x7b library_name: " ++ Text.quoted image.libraryName ++ ", header_loaded: " ++
    flagText image.header.isComplete ++ ", materialized: " ++ flagText image.isMaterialized ++ ", .. \x7d"

end LibraryImage

namespace FileSystem

def library (fs : FileSystem) (p : Path) : Answer Bytes := (fs.read p).mapError (LibraryError.ofFault p)

/-- `ContainerReader::open`: a library can be opened where there is a file. -/
def checkLibrary (fs : FileSystem) (p : Path) : Answer Unit :=
  if fs.isFile p then .ok () else .error (.pathNotFound p)

def abiVersion (fs : FileSystem) (p : Path) : Answer AbiVersion := do
  Container.abiVersion p (← fs.library p)

def header (fs : FileSystem) (p : Path) (version : AbiVersion) : Answer MetadataHeader := do
  Container.header p (← fs.library p) version

def fragmentNames (fs : FileSystem) (p : Path) : Answer (List String) := do
  Container.fragmentNames p (← fs.library p)

def fragment (fs : FileSystem) (p : Path) (name : String) : Answer Bytes := do
  Container.fragment p (← fs.library p) name

section

variable {fs : FileSystem} {path : Path} {content : Bytes} (h : fs.library path = .ok content)
include h

theorem header_of_library (version : AbiVersion) :
    fs.header path version = Container.header path content version := by
  rw [header, h]
  rfl

theorem fragmentNames_of_library : fs.fragmentNames path = Container.fragmentNames path content := by
  rw [fragmentNames, h]
  rfl

theorem fragment_of_library (name : String) : fs.fragment path name = Container.fragment path content name := by
  rw [fragment, h]
  rfl

end

end FileSystem

structure Workspace (D δ : Type) where
  files : FileSystem
  images : List (LibraryImage D δ) := []

namespace Workspace

variable {D δ : Type}

def image? (ws : Workspace D δ) (id : ImageId) : Option (LibraryImage D δ) := ws.images[id.place]?

def update (ws : Workspace D δ) (id : ImageId) (change : LibraryImage D δ → LibraryImage D δ) :
    Workspace D δ :=
  { ws with images := ws.images.modify id.place change }

/-- What is answered about an image that was never opened. -/
def unopened : LibraryError := .pathNotFound ⟨[]⟩

/-- `LibraryImage::open`. Nothing is read. -/
def openImage (ws : Workspace D δ) (path : Path) (config : SessionConfig) (deserializer : D) :
    Answer ImageId × Workspace D δ :=
  match ws.files.checkLibrary path with
  | .error e => (.error e, ws)
  | .ok () =>
    (.ok ⟨ws.images.length⟩, { ws with images := ws.images ++ [⟨path, config, deserializer, {}, {}, 0, 0⟩] })

def progress (ws : Workspace D δ) (id : ImageId) : ImageProgress :=
  ((ws.image? id).map (·.progress)).getD ⟨0, false⟩

def libraryName (ws : Workspace D δ) (id : ImageId) : String := ((ws.image? id).map (·.libraryName)).getD ""

/-- Images in the order of their names. Those of one name stay in the order they were in. -/
def sortByName (ws : Workspace D δ) (ids : List ImageId) : List ImageId :=
  ids.mergeSort fun a b => decide (ws.libraryName a ≤ ws.libraryName b)

/-- A fragment of the library of an image, as the file holds it now. -/
def fragment (ws : Workspace D δ) (id : ImageId) (name : String) : Answer Bytes :=
  match ws.image? id with
  | none => .error unopened
  | some image => ws.files.fragment image.path name

/-- `LibraryImage::header`, which is read if nobody has asked for it yet. -/
def header (ws : Workspace D δ) (id : ImageId) : Answer MetadataHeader × Workspace D δ :=
  match ws.image? id with
  | none => (.error unopened, ws)
  | some image =>
    match image.header.verdict () with
    | .done answer => (answer, ws)
    | .reentry | .behind _ => (.error (.cycle image.libraryName), ws)
    | .compute =>
      let answer := ws.files.header image.path image.config.abiVersion
      (answer,
        ws.update id fun image =>
          { image with
            header := (image.header.taken ()).land (.answered answer)
            headerReads := image.headerReads + 1 })

/-- `LibraryImage::module_name`. -/
def moduleName (ws : Workspace D δ) (id : ImageId) : Answer String × Workspace D δ :=
  let (answer, ws) := ws.header id
  (answer.map (·.moduleName), ws)

/-! ## Descriptors -/

/-- Runs a deserialization for an image. Another descriptor is asked for through `nested`; a panic in
there is a panic here. -/
def run {α : Type} (nested : ImageId → Workspace D δ → Outcome δ × Workspace D δ) (id : ImageId) :
    Deserialization δ α → Workspace D δ → Outcome α × Workspace D δ
  | .finish answer, ws => (.answered answer, ws)
  | .panic message, ws => (.panicked message, ws)
  | .fragment name next, ws => run nested id (next (ws.fragment id name)) ws
  | .moduleName other next, ws =>
    let (answer, ws) := ws.moduleName other
    run nested id (next answer) ws
  | .descriptor other next, ws =>
    match nested other ws with
    | (.answered answer, ws) => run nested id (next answer) ws
    | (.panicked message, ws) => (.panicked message, ws)
  | .progress other next, ws => run nested id (next (ws.progress other)) ws

/-- Finds the descriptor of an image whose cell has been taken: first the header, then what the
deserializer makes of it. -/
def materialize (deserialize : D → Deserialization.Deserializer δ)
    (nested : ImageId → Workspace D δ → Outcome δ × Workspace D δ) (id : ImageId)
    (image : LibraryImage D δ) (ws : Workspace D δ) : Outcome δ × Workspace D δ :=
  match ws.header id with
  | (.error e, ws) => (.answered (.error e), ws)
  | (.ok header, ws) =>
    run nested id (deserialize image.deserializer (image.request header))
      (ws.update id fun image => { image with deserializations := image.deserializations + 1 })

/-- The descriptor of an image, with at most `depth` materializations one inside the other. -/
def descriptorWithin (deserialize : D → Deserialization.Deserializer δ) :
    Nat → ImageId → Workspace D δ → Outcome δ × Workspace D δ
  | depth, id, ws =>
    match ws.image? id with
    | none => (.answered (.error unopened), ws)
    | some image =>
      match image.descriptor.verdict () with
      | .done answer => (.answered answer, ws)
      | .reentry | .behind _ => (.answered (.error (.cycle image.libraryName)), ws)
      | .compute =>
        match depth with
        | 0 => (.answered (.error (.cycle image.libraryName)), ws)
        | depth + 1 =>
          let taken := ws.update id fun image => { image with descriptor := image.descriptor.taken () }
          let (outcome, ws) := materialize deserialize (descriptorWithin deserialize depth) id image taken
          (outcome, ws.update id fun image => { image with descriptor := image.descriptor.land outcome })

/-- `LibraryImage::module_descriptor`, which is materialized if nobody has asked for it yet. Every
materialization that goes on inside another one is of another image, so there are never more of them
than images. -/
def moduleDescriptor (deserialize : D → Deserialization.Deserializer δ) (ws : Workspace D δ)
    (id : ImageId) : Outcome δ × Workspace D δ :=
  descriptorWithin deserialize ws.images.length id ws

end Workspace

end TernBackend
