import TernBackend.Files.FileTree
import TernBackend.Proofs.Except
import TernBackend.Proofs.Path

/-!
# Where the paths of a tree lead

What following one piece of a path can come to is said once (`FileTree.Enters`), and the rest is about pieces one
after another: a path leads to a place of proper names (`FileTree.isProper_of_resolve`), the canonical path of such
a place leads nowhere else (`FileTree.eq_of_resolve_canonicalPath`), and a path that leads nowhere either misses
something or is blocked, by a NUL, by a file in the way or by a name that is too long (`FileTree.blocks_iff`).
-/

namespace TernBackend

/-- A place whose names are names that an entry can have. -/
def IsProper (place : Place) : Prop := ∀ name ∈ place, IsEntryName name

namespace FileTree

variable {tree : FileTree} {p : Path} {place place' : Place} {piece : Bytes} {fault : FileFault}

/-! ## One piece -/

/-- What following a piece from a place comes to. -/
inductive Enters (tree : FileTree) (place : Place) (piece : Bytes) : Except FileFault Place → Prop
  | throughFile {content} : tree.entry? place = some (.file content) → Enters tree place piece (.error .notADirectory)
  | nowhere : tree.entry? place = none → Enters tree place piece (.error .notFound)
  | stay : tree.entry? place = some .directory → piece = [] ∨ piece = [dot] → Enters tree place piece (.ok place)
  | up : tree.entry? place = some .directory → piece = [dot, dot] → Enters tree place piece (.ok place.dropLast)
  | tooLong : tree.entry? place = some .directory → IsNamePiece piece →
      255 < piece.length → Enters tree place piece (.error .nameTooLong)
  | down : tree.entry? place = some .directory → IsNamePiece piece →
      (tree.entry? (place ++ [piece])).isSome → Enters tree place piece (.ok (place ++ [piece]))
  | missing : tree.entry? place = some .directory → IsNamePiece piece →
      ¬ (tree.entry? (place ++ [piece])).isSome → Enters tree place piece (.error .notFound)

theorem enter_of_file {content : Bytes} (h : tree.entry? place = some (.file content)) (piece : Bytes) :
    tree.enter place piece = .error .notADirectory := by
  rw [enter, checkDirectory, h]
  rfl

theorem enter_of_none (h : tree.entry? place = none) (piece : Bytes) : tree.enter place piece = .error .notFound := by
  rw [enter, checkDirectory, h]
  rfl

theorem enter_of_directory (h : tree.entry? place = some .directory) (piece : Bytes) :
    tree.enter place piece =
      if piece = [] ∨ piece = [dot] then .ok place
      else if piece = [dot, dot] then .ok place.dropLast
      else
        name piece >>= fun n =>
          if (tree.entry? (place ++ [n])).isSome then .ok (place ++ [n]) else .error .notFound := by
  rw [enter, checkDirectory, h]
  rfl

theorem enter_of_tooLong (h : tree.entry? place = some .directory) (hpiece : IsNamePiece piece)
    (hlong : 255 < piece.length) : tree.enter place piece = .error .nameTooLong := by
  rw [enter_of_directory h, if_neg (not_or.2 ⟨hpiece.ne_nil, hpiece.ne_dot⟩), if_neg hpiece.ne_dots, name,
    if_pos hlong]
  rfl

theorem enters (tree : FileTree) (place : Place) (piece : Bytes) :
    Enters tree place piece (tree.enter place piece) := by
  cases hentry : tree.entry? place with
  | none =>
    rw [enter_of_none hentry]
    exact .nowhere hentry
  | some entry =>
    cases entry with
    | file content =>
      rw [enter_of_file hentry]
      exact .throughFile hentry
    | directory =>
      rw [enter_of_directory hentry]
      split
      next hstay => exact .stay hentry hstay
      next hstay =>
        split
        next hdots => exact .up hentry hdots
        next hdots =>
          rw [not_or] at hstay
          have hpiece : IsNamePiece piece := ⟨hstay.1, hstay.2, hdots⟩
          unfold name
          split
          next hlong => exact .tooLong hentry hpiece hlong
          next hshort =>
            change Enters tree place piece (if (tree.entry? (place ++ [piece])).isSome then _ else _)
            split
            next hthere => exact .down hentry hpiece hthere
            next hmissing => exact .missing hentry hpiece hmissing

/-! ## Places -/

theorem isProper_enter (hplace : IsProper place) (hpiece : slash ∉ piece) (h : tree.enter place piece = .ok place') :
    IsProper place' := by
  have henters := enters tree place piece
  rw [h] at henters
  cases henters with
  | stay => exact hplace
  | up => exact fun name hname => hplace name (List.dropLast_subset place hname)
  | down _ hnamePiece =>
    intro name hname
    rcases List.mem_append.1 hname with hname | hname
    · exact hplace name hname
    · rw [List.mem_singleton] at hname
      subst hname
      exact ⟨hnamePiece, hpiece⟩

/-- A path leads to a place of proper names, if relative paths are followed from one. -/
theorem isProper_of_resolve (hstart : IsProper tree.workingDirectory) (h : tree.resolve p = .ok place) :
    IsProper place := by
  obtain ⟨_, _, hwalk⟩ := bind_eq_ok_iff.1 h
  have hfirst : IsProper (tree.start p.bytes) := by
    unfold start
    split
    · exact fun _ hname => absurd hname List.not_mem_nil
    · exact hstart
  refine foldlM_keeps (fun q piece hpiece q' hq hstep => ?_) hfirst hwalk
  exact isProper_enter hq (notMem_of_mem_splitOn hpiece) hstep

theorem splitOn_canonicalPath (hplace : IsProper place) :
    (canonicalPath place).bytes.splitOn slash = [] :: if place = [] then [[]] else place := by
  rw [canonicalPath, List.splitOn_cons_eq_if_modifyHead, if_pos (beq_self_eq_true slash)]
  split
  next h =>
    subst h
    rfl
  next h => rw [List.splitOn_intercalate slash (fun name hname => (hplace name hname).no_slash) h]

theorem eq_of_enter_nil (h : tree.enter place [] = .ok place') : place' = place := by
  have henters := enters tree place []
  rw [h] at henters
  cases henters with
  | stay => rfl
  | up _ hdots => cases hdots
  | down _ hpiece => exact absurd rfl hpiece.ne_nil

/-- Names that can be followed one after another lead down. -/
theorem eq_append_of_walk {names : Place} (hnames : IsProper names)
    (h : tree.walk place names = .ok place') : place' = place ++ names := by
  induction names generalizing place with
  | nil =>
    rw [List.append_nil]
    exact (Except.ok.inj h).symm
  | cons name names ih =>
    obtain ⟨next, hnext, hrest⟩ := bind_eq_ok_iff.1 h
    have hpiece := (hnames name List.mem_cons_self).piece
    have henters := enters tree place name
    rw [hnext] at henters
    cases henters with
    | stay _ hvoid => exact absurd hvoid (not_or.2 ⟨hpiece.ne_nil, hpiece.ne_dot⟩)
    | up _ hdots => exact absurd hdots hpiece.ne_dots
    | down =>
      rw [ih (fun n hn => hnames n (List.mem_cons_of_mem name hn)) hrest, List.append_assoc,
        List.singleton_append]

/-- A canonical path leads to no other place than the one it is made from. -/
theorem eq_of_resolve_canonicalPath (hplace : IsProper place) (h : tree.resolve (canonicalPath place) = .ok place') :
    place' = place := by
  obtain ⟨_, _, hwalk⟩ := bind_eq_ok_iff.1 h
  have hstart : tree.start (canonicalPath place).bytes = [] := rfl
  have hfollowed : tree.walk [] ([] :: if place = [] then [[]] else place) = .ok place' := by
    rw [← splitOn_canonicalPath hplace, ← hstart]
    exact hwalk
  obtain ⟨_, hroot, hrest⟩ := bind_eq_ok_iff.1 hfollowed
  obtain rfl := eq_of_enter_nil hroot
  split at hrest
  next hempty =>
    obtain ⟨_, hroot, hdone⟩ := bind_eq_ok_iff.1 hrest
    obtain rfl := eq_of_enter_nil hroot
    exact (Except.ok.inj hdone).symm.trans hempty.symm
  next => exact eq_append_of_walk hplace hrest

/-! ## Paths that lead nowhere -/

/-- Following a path comes to a place where a piece is next. -/
def ComesTo (tree : FileTree) (p : Path) (place : Place) (piece : Bytes) : Prop :=
  checkBytes p.bytes = .ok () ∧ ∃ before after, p.bytes.splitOn slash = before ++ piece :: after ∧
    tree.walk (tree.start p.bytes) before = .ok place

/-- What a path can be blocked by: a NUL in it, a file it goes on after, or a name that no directory can hold. -/
inductive Blocks (tree : FileTree) (p : Path) : FileFault → Prop
  | nul : 0 ∈ p.bytes → Blocks tree p .nulInPath
  | throughFile {place : Place} {piece : Bytes} {content : Bytes} : tree.ComesTo p place piece →
      tree.entry? place = some (.file content) → Blocks tree p .notADirectory
  | tooLong {place : Place} {piece : Bytes} : tree.ComesTo p place piece → tree.entry? place = some .directory →
      IsNamePiece piece → 255 < piece.length → Blocks tree p .nameTooLong

theorem checkBytes_eq_error_iff {cs : Bytes} :
    checkBytes cs = .error fault ↔
      0 ∈ cs ∧ fault = .nulInPath ∨ 0 ∉ cs ∧ cs = [] ∧ fault = .notFound := by
  unfold checkBytes
  split
  next hnul => simp [hnul, eq_comm]
  next hnul => split <;> simp [*, eq_comm]

theorem resolve_eq_error_iff :
    tree.resolve p = .error fault ↔
      checkBytes p.bytes = .error fault ∨
        ∃ place piece, tree.ComesTo p place piece ∧ tree.enter place piece = .error fault := by
  refine bind_eq_error_iff.trans (or_congr_right ?_)
  constructor
  · rintro ⟨_, hcheck, hwalk⟩
    obtain ⟨before, piece, after, place, hpieces, hreached, herror⟩ := foldlM_eq_error_iff.1 hwalk
    exact ⟨place, piece, ⟨hcheck, before, after, hpieces, hreached⟩, herror⟩
  · rintro ⟨place, piece, ⟨hcheck, before, after, hpieces, hreached⟩, herror⟩
    exact ⟨(), hcheck, foldlM_eq_error_iff.2 ⟨before, piece, after, place, hpieces, hreached, herror⟩⟩

/-- A path that does not lead anywhere is blocked, or something on it is missing. -/
theorem blocks_iff : tree.Blocks p fault ↔ tree.resolve p = .error fault ∧ fault ≠ .notFound := by
  rw [resolve_eq_error_iff, checkBytes_eq_error_iff]
  constructor
  · intro h
    cases h with
    | nul hnul => exact ⟨.inl (.inl ⟨hnul, rfl⟩), FileFault.noConfusion⟩
    | throughFile hcomes hentry =>
      exact ⟨.inr ⟨_, _, hcomes, enter_of_file hentry _⟩, FileFault.noConfusion⟩
    | tooLong hcomes hentry hpiece hlong =>
      exact ⟨.inr ⟨_, _, hcomes, enter_of_tooLong hentry hpiece hlong⟩, FileFault.noConfusion⟩
  · rintro ⟨(⟨hnul, rfl⟩ | ⟨-, -, rfl⟩) | ⟨place, piece, hcomes, herror⟩, hfault⟩
    · exact .nul hnul
    · exact absurd rfl hfault
    · have henters := enters tree place piece
      rw [herror] at henters
      cases henters with
      | nowhere | missing => exact absurd rfl hfault
      | throughFile hentry => exact .throughFile hcomes hentry
      | tooLong hentry hpiece hlong => exact .tooLong hcomes hentry hpiece hlong

theorem canonical_eq_error_iff : tree.canonical p = .error fault ↔ tree.resolve p = .error fault := map_eq_error_iff

/-! ## Paths of files -/

/-- A path that leads to a regular file. -/
def NamesFile (tree : FileTree) (p : Path) : Prop :=
  ∃ place content, tree.resolve p = .ok place ∧ tree.entry? place = some (.file content)

theorem not_namesFile_of_fault (h : tree.resolve p = .error fault) : ¬ tree.NamesFile p := by
  rintro ⟨place, content, hresolve, -⟩
  cases h.symm.trans hresolve

theorem isFile_eq_false (h : ¬ tree.NamesFile p) : tree.toFileSystem.isFile p = false := by
  unfold FileSystem.isFile
  split
  next content hentry =>
    obtain ⟨place, hreach, hfound⟩ := bind_eq_ok_iff.1 hentry
    obtain ⟨_, _, hrest⟩ := bind_eq_ok_iff.1 hreach
    obtain ⟨_, _, hresolve⟩ := bind_eq_ok_iff.1 hrest
    split at hfound
    next held hheld => exact absurd ⟨place, held, hresolve, hheld⟩ h
    next => cases hfound
    next => cases hfound
  next => rfl
  next => rfl

/-- The canonical form of a path leads to a file only if the path does. -/
theorem not_namesFile_canonical (hstart : IsProper tree.workingDirectory) {key : Path}
    (hkey : tree.canonical p = .ok key) (h : ¬ tree.NamesFile p) : ¬ tree.NamesFile key := by
  obtain ⟨place, hresolve, rfl⟩ := map_eq_ok_iff.1 hkey
  rintro ⟨place', content, hresolve', hentry⟩
  obtain rfl := eq_of_resolve_canonicalPath (isProper_of_resolve hstart hresolve) hresolve'
  exact h ⟨place', content, hresolve, hentry⟩

end FileTree
end TernBackend
