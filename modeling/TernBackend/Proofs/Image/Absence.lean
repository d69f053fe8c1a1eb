import TernBackend.Proofs.Files.Following
import TernBackend.Proofs.Image.Sharing

/-!
# Libraries that are not there

A library is opened directly, or through a registry, which first asks for the canonical form of the path. Neither
opens anything where there is no regular file, and opening directly always answers that the path was not found. The
registry says so too where the path has a canonical form or something on it is missing, and otherwise says why there is
no canonical form, on every file system (`Registry.openLibrary_of_absent`). In a tree of files that is just where the
path is blocked (`absent_library`): a path that goes on after a file is answered as a file that could not be read
(`absent_library_behind_file`).
-/

namespace TernBackend

variable {D δ : Type}

theorem FileSystem.checkLibrary_of_not_isFile {fs : FileSystem} {p : Path} (h : fs.isFile p = false) :
    fs.checkLibrary p = .error (.pathNotFound p) := by
  rw [checkLibrary, h]
  rfl

theorem Workspace.openImage_of_error {ws : Workspace D δ} {p : Path} {e : LibraryError}
    (h : ws.files.checkLibrary p = .error e) (config : SessionConfig) (deserializer : D) :
    ws.openImage p config deserializer = (.error e, ws) := by
  rw [openImage, h]

theorem LibraryError.ofFault_of_ne {fault : FileFault} (h : fault ≠ .notFound) (path : Path) :
    LibraryError.ofFault path fault = .io path fault := by
  cases fault <;> first | rfl | exact absurd rfl h

namespace Registry

variable {r : Registry D} {ws : Workspace D δ} {path : Path}

theorem openLibrary_of_fault {fault : FileFault} (h : ws.files.canonical path = .error fault) :
    r.openLibrary ws path = (.error (.ofFault path fault), r, ws) := by
  rw [openLibrary, h]

/-- Of a library that has not been opened yet and that is not at its canonical path, the latter is answered. -/
theorem openLibrary_of_not_isFile {key : Path} (hkey : ws.files.canonical path = .ok key)
    (hfind : r.find? key.components = none) (h : ws.files.isFile key = false) :
    r.openLibrary ws path = (.error (.pathNotFound key), r, ws) := by
  rw [openLibrary, hkey]
  simp only [hfind]
  exact findOrOpen_of_error hfind (FileSystem.checkLibrary_of_not_isFile h)

/-- Where there is no library, a registry answers that it was not found unless something other than a missing entry
stands against a canonical form, and then it answers what. -/
theorem openLibrary_of_absent
    (hunopened : ∀ key, ws.files.canonical path = .ok key → r.find? key.components = none)
    (habsent : ∀ key, ws.files.canonical path = .ok key → ws.files.isFile key = false) :
    ∃ e, r.openLibrary ws path = (.error e, r, ws) ∧
      ((∃ p, e = .pathNotFound p) ↔ ∀ fault, ¬ (ws.files.canonical path = .error fault ∧ fault ≠ .notFound)) ∧
      ∀ fault, ws.files.canonical path = .error fault ∧ fault ≠ .notFound → e = .io path fault := by
  cases hcanonical : ws.files.canonical path with
  | ok key =>
    refine ⟨_, openLibrary_of_not_isFile hcanonical (hunopened key hcanonical) (habsent key hcanonical), ?_⟩
    simp
  | error fault =>
    refine ⟨_, openLibrary_of_fault hcanonical, ?_⟩
    by_cases hfault : fault = .notFound
    · simp [hfault, LibraryError.ofFault]
    · simp [hfault, LibraryError.ofFault_of_ne hfault]

end Registry

/-- **What is answered where there is no library.** The files are a tree without links, in which whoever asks may
follow every path and read every file. At a path that does not lead to a regular file no library can be opened. Whoever
opens it directly is answered that it was not found. A registry that holds no image for the path is left as it is; it
answers the same just if nothing blocks the path, and what blocks it otherwise. -/
theorem absent_library (r : Registry D) (ws : Workspace D δ) (path : Path) (config : SessionConfig) (deserializer : D)
    {tree : FileTree} (hfiles : ws.files = tree.toFileSystem) (hstart : IsProper tree.workingDirectory)
    (habsent : ¬ tree.NamesFile path)
    (hunopened : ∀ key, ws.files.canonical path = .ok key → r.find? key.components = none) :
    ws.files.checkLibrary path = .error (.pathNotFound path) ∧
    ws.openImage path config deserializer = (.error (.pathNotFound path), ws) ∧
    ∃ e, r.openLibrary ws path = (.error e, r, ws) ∧
      ((∃ p, e = .pathNotFound p) ↔ ∀ fault, ¬ tree.Blocks path fault) ∧
      ∀ fault, tree.Blocks path fault → e = .io path fault := by
  have hcheck : ws.files.checkLibrary path = .error (.pathNotFound path) := by
    rw [hfiles]
    exact FileSystem.checkLibrary_of_not_isFile (FileTree.isFile_eq_false habsent)
  have hblocks : ∀ fault, tree.Blocks path fault ↔ ws.files.canonical path = .error fault ∧ fault ≠ .notFound := by
    intro fault
    rw [FileTree.blocks_iff, ← FileTree.canonical_eq_error_iff, hfiles]
    rfl
  refine ⟨hcheck, Workspace.openImage_of_error hcheck config deserializer, ?_⟩
  simp only [hblocks]
  refine Registry.openLibrary_of_absent hunopened fun key hkey => ?_
  rw [hfiles] at hkey ⊢
  exact FileTree.isFile_eq_false (FileTree.not_namesFile_canonical hstart hkey habsent)

/-- A library in a directory that is not there, and a directory in the place of a library. -/
theorem absent_library_misplaced :
    let tree : FileTree := .ofFiles [(Utf8.encode "a.tlib", [])]
    let ws : Workspace Unit Unit := ⟨tree.toFileSystem, []⟩
    let r : Registry Unit := ⟨default, (), []⟩
    let missing : Path := .ofText "lib/a.tlib"
    let directory : Path := .ofText "./"
    (¬ tree.NamesFile missing ∧ ∃ p, r.openLibrary ws missing = (.error (.pathNotFound p), r, ws)) ∧
      ¬ tree.NamesFile directory ∧ ∃ p, r.openLibrary ws directory = (.error (.pathNotFound p), r, ws) := by
  intro tree ws r missing directory
  have hstart : IsProper tree.workingDirectory := fun _ hname => absurd hname List.not_mem_nil
  have hmissing : tree.resolve missing = .error .notFound := by
    decide +kernel
  have hdirectory : tree.resolve directory = .ok [] := by
    decide +kernel
  have habsent := FileTree.not_namesFile_of_fault hmissing
  have habsent' : ¬ tree.NamesFile directory := by
    rintro ⟨place, content, hresolve, hentry⟩
    cases hdirectory.symm.trans hresolve
    cases hentry
  have hfree : ∀ fault, ¬ tree.Blocks missing fault := by
    intro fault hblocks
    obtain ⟨hfault, hne⟩ := FileTree.blocks_iff.1 hblocks
    cases hmissing.symm.trans hfault
    exact hne rfl
  have hfree' : ∀ fault, ¬ tree.Blocks directory fault := by
    intro fault hblocks
    cases hdirectory.symm.trans (FileTree.blocks_iff.1 hblocks).1
  obtain ⟨-, -, e, hopen, hnotFound, -⟩ := absent_library r ws missing default () rfl hstart habsent fun _ _ => rfl
  obtain ⟨-, -, e', hopen', hnotFound', -⟩ :=
    absent_library r ws directory default () rfl hstart habsent' fun _ _ => rfl
  obtain ⟨p, rfl⟩ := hnotFound.2 hfree
  obtain ⟨p', rfl⟩ := hnotFound'.2 hfree'
  exact ⟨⟨habsent, p, hopen⟩, habsent', p', hopen'⟩

/-- A path that goes on after a library leads to no file. Directly it is not found, but for the registry it is a file
that could not be read, although nothing is there. -/
theorem absent_library_behind_file :
    let tree : FileTree := .ofFiles [(Utf8.encode "a.tlib", [])]
    let ws : Workspace Unit Unit := ⟨tree.toFileSystem, []⟩
    let r : Registry Unit := ⟨default, (), []⟩
    let path : Path := .ofText "a.tlib/"
    ¬ tree.NamesFile path ∧
      ws.files.checkLibrary path = .error (.pathNotFound path) ∧
      ws.openImage path default () = (.error (.pathNotFound path), ws) ∧
      r.openLibrary ws path = (.error (.io path .notADirectory), r, ws) := by
  intro tree ws r path
  have hfault : tree.canonical path = .error .notADirectory := by
    decide +kernel
  have habsent := FileTree.not_namesFile_of_fault (FileTree.canonical_eq_error_iff.1 hfault)
  have hcheck : ws.files.checkLibrary path = .error (.pathNotFound path) :=
    FileSystem.checkLibrary_of_not_isFile (FileTree.isFile_eq_false habsent)
  have hopen : r.openLibrary ws path = (.error (.ofFault path .notADirectory), r, ws) :=
    Registry.openLibrary_of_fault hfault
  exact ⟨habsent, hcheck, Workspace.openImage_of_error hcheck default (), hopen⟩

end TernBackend
