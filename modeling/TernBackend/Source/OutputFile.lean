import TernBackend.Path

/-!
# The output as a file in a folder

The compile unit is named after the output path, split into a file name and a folder. A bare name
lies in the folder `.`; a path without a name, and a missing path, give a placeholder that is
written `-`.
-/

namespace TernBackend

/-- `FileAndFolder`. A file name and the folder it lies in. -/
structure OutputFile where
  file : String
  folder : String
  deriving DecidableEq

namespace OutputFile

/-- `NO_FILE`: the placeholder for an output without a name. -/
def anonymous : OutputFile := ⟨"-", ""⟩

/-- `FileAndFolder::from_path`. -/
def ofPath (p : Path) : OutputFile :=
  match p.name? with
  | none => anonymous
  | some name => ⟨Utf8.lossy name, if p.parent = [] then "." else Utf8.lossy p.parent⟩

/-- `FileAndFolder::from_optional`. -/
def ofPath? (p : Option Path) : OutputFile := p.elim anonymous ofPath

/-- `FileAndFolder::is_no_file`; only the placeholder has no folder. -/
def isAnonymous (f : OutputFile) : Bool := f.folder == ""

/-- `FileAndFolder::path`, which is also what is displayed. -/
def text (f : OutputFile) : String := if f.isAnonymous then f.file else f.folder ++ "/" ++ f.file

end OutputFile

end TernBackend
