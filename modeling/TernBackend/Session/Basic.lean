import TernBackend.Abi
import TernBackend.Path

/-!
# Session settings

What one compilation is asked to do: the version under which libraries are read, the path of the
output, how much debug information it carries, and the target. Two sessions are the same when these
agree, the output paths being compared by components.
-/

namespace TernBackend

/-- `DebugLevel`. How much debug information the output carries. -/
inductive DebugLevel where
  | none
  /-- The compile unit, subprograms and locations, but no types. -/
  | lineTables
  | full
  deriving DecidableEq, Inhabited

namespace DebugLevel

/-- `DebugLevel::is_enabled`. -/
def enabled : DebugLevel → Bool
  | none => false
  | lineTables | full => true

def text : DebugLevel → String
  | none => "none"
  | lineTables => "line-tables"
  | full => "full"

/-- The level that a lower-case word without surrounding white space names. -/
def ofWord? (word : List Char) : Option DebugLevel :=
  match String.ofList word with
  | "none" | "0" | "false" | "off" => some none
  | "line-tables" | "line-tables-only" => some lineTables
  | "full" | "1" | "true" | "on" => some full
  | _ => Option.none

/-- `DebugLevel::parse_env`: the level that a text names; case and surrounding white space do not
matter. -/
def parse? (s : String) : Option DebugLevel := ofWord? ((Text.trim s.toList).map Char.toLower)

end DebugLevel

/-- The environment variables that override a setting, as `apply_env_from` asks for them. -/
inductive Variable where
  | abiVersion
  | debugInfo
  | target
  deriving DecidableEq

def Variable.name : Variable → String
  | abiVersion => "TERN_ABI_VERSION"
  | debugInfo => "TERN_DEBUG_INFO"
  | target => "TERN_TARGET"

/-- `ConfigError`. Why a setting was refused. -/
inductive ConfigError where
  | invalidAbiVersion (value : String) (fault : VersionFault)
  /-- A variable holds a value it cannot have. -/
  | invalidValue (setting : Variable) (value : String)
  deriving DecidableEq

def ConfigError.message : ConfigError → String
  | invalidAbiVersion value fault => "invalid ABI version '" ++ value ++ "': " ++ fault.message
  | invalidValue v value =>
    "invalid value '" ++ value ++ "' for environment variable " ++ v.name

/-- The version that a text stands for, or the error that names the text. -/
def AbiVersion.read (s : String) : Except ConfigError AbiVersion :=
  (AbiVersion.parse s).mapError (.invalidAbiVersion s)

/-- `SessionConfig`, with the values of `SessionConfig::default`. -/
structure SessionConfig where
  abiVersion : AbiVersion := .current
  outputPath : Option Path := none
  debugLevel : DebugLevel := .none
  target : String := "x86_64-unknown-linux-gnu"
  deriving DecidableEq, Inhabited

namespace SessionConfig

/-- `SessionConfig::debug_info_enabled`. -/
def debugInfoEnabled (c : SessionConfig) : Bool := c.debugLevel.enabled

/-- Whether two output paths have the same components, or are both absent. -/
def sameOutput : Option Path → Option Path → Bool
  | some p, some q => p.same q
  | none, none => true
  | _, _ => false

/-- `==` of two configurations. -/
def same (c d : SessionConfig) : Bool :=
  c.abiVersion == d.abiVersion && sameOutput c.outputPath d.outputPath &&
    c.debugLevel == d.debugLevel && c.target == d.target

end SessionConfig

end TernBackend
