import TernBackend.Text.Blank
import TernBackend.Text.Numeral

/-!
# Versions of the metadata encoding

A library's header and fragments are encoded under a version of three 32-bit numbers. Versions are
compared exactly: a session reads what was written under its own version and nothing else. They are
ordered lexicographically.

Read as text, a version is one to three numerals with dots between them and white space around;
components that are missing are zero. It is written with all three.
-/

namespace TernBackend

/-- `AbiVersion`. A version of the metadata encoding. -/
structure AbiVersion where
  major : UInt32
  minor : UInt32
  patch : UInt32
  deriving DecidableEq

inductive VersionFault where
  | empty
  | tooManyComponents
  | notUnsigned
  deriving DecidableEq

namespace VersionFault

def message : VersionFault → String
  | empty => "empty version"
  | tooManyComponents => "expected at most 3 components"
  | notUnsigned => "components must be unsigned integers"

end VersionFault

namespace AbiVersion

/-- `AbiVersion::CURRENT`: the version that this compiler writes and expects. -/
def current : AbiVersion := ⟨1, 0, 0⟩

instance : Inhabited AbiVersion := ⟨current⟩

instance : Ord AbiVersion where
  compare v w := (compare v.major w.major).then ((compare v.minor w.minor).then (compare v.patch w.patch))

def latest (v w : AbiVersion) : AbiVersion := if (compare v w).isGT then v else w

/-- `Display` of an `AbiVersion`: the three numbers with dots between them. -/
def chars (v : AbiVersion) : List Char :=
  Text.decimal v.major.toNat ++ '.' :: Text.decimal v.minor.toNat ++ '.' :: Text.decimal v.patch.toNat

def text (v : AbiVersion) : String := String.ofList v.chars

/-- The numbers of at most `room` components. -/
def components (room : Nat) : List (List Char) → Except VersionFault (List UInt32)
  | [] => .ok []
  | piece :: pieces =>
    match room with
    | 0 => .error .tooManyComponents
    | room + 1 =>
      match Text.word32? piece with
      | none => .error .notUnsigned
      | some n => (components room pieces).map (n :: ·)

/-- The version with the given leading numbers; the others are zero. -/
def ofNumbers (ns : List UInt32) : AbiVersion := ⟨ns.getD 0 0, ns.getD 1 0, ns.getD 2 0⟩

/-- The version that a text without surrounding white space stands for. -/
def ofChars (cs : List Char) : Except VersionFault AbiVersion :=
  if cs = [] then .error .empty else (components 3 (cs.splitOn '.')).map ofNumbers

/-- `AbiVersion::from_str`. -/
def parse (s : String) : Except VersionFault AbiVersion := ofChars (Text.trim s.toList)

end AbiVersion

end TernBackend
