/-!
# Constants of the debug format

The values that go into every compile unit and into the two flags that state the format's versions.
Only the producer's name depends on the versions of the compiler and the language.
-/

namespace TernBackend

def compilerVersion : String := "0.1.0-alpha.1"

/-- The version of the language it implements. -/
def languageVersion : String := "0.1"

/-- `DwarfLanguage`. The language that a compile unit is recorded under. The format has no code for
this one; debuggers do best with C. -/
inductive UnitLanguage where
  | c
  deriving DecidableEq

def UnitLanguage.code : UnitLanguage → UInt32
  | c => 2

/-- `FlagBehavior`. What a linker does with a flag that several of its inputs carry. -/
inductive FlagBehavior where
  | error
  | warning
  | require
  | override
  | append
  | appendUnique
  | max
  | min
  deriving DecidableEq

namespace FlagBehavior

/-- The tag that stands first in a flag. -/
def tag : FlagBehavior → UInt64
  | error => 1
  | warning => 2
  | require => 3
  | override => 4
  | append => 5
  | appendUnique => 6
  | max => 7
  | min => 8

def all : List FlagBehavior := [error, warning, require, override, append, appendUnique, max, min]

end FlagBehavior

/-- `DebugConstants`. The constants of the debug format. -/
structure DebugConstants where
  language : UnitLanguage := .c
  producer : String
  runtimeVersion : UInt32 := 2
  dwarfVersion : UInt32 := 2
  debugInfoVersion : UInt32 := 3
  dwarfVersionKey : String := "Dwarf Version"
  debugInfoVersionKey : String := "Debug Info Version"
  flagsGroup : String := "llvm.module.flags"
  flagBehavior : FlagBehavior := .warning
  deriving DecidableEq

namespace DebugConstants

/-- `DebugConstants::with_versions`. -/
def ofVersions (compiler language : String) : DebugConstants where
  producer := "ternc " ++ compiler ++ " / tern-language: " ++ language

/-- `DebugConstants::current`. -/
def current : DebugConstants := ofVersions compilerVersion languageVersion

instance : Inhabited DebugConstants := ⟨current⟩

/-- The producer and the two versions in words. -/
def text (c : DebugConstants) : String :=
  c.producer ++ " (DWARF " ++ toString c.dwarfVersion.toNat ++ ", debug info " ++
    toString c.debugInfoVersion.toNat ++ ")"

end DebugConstants

end TernBackend
