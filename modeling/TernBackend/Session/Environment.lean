import TernBackend.Session.Basic

/-!
# Settings from the environment

Three variables override three settings. A variable that is absent leaves its setting alone; one
that is present must hold a valid value. The first invalid variable, in the order version, debug
level, target, decides the error, and then no setting changes.
-/

namespace TernBackend

/-- The values of the variables that are present: the lookup that `apply_env_from` is given. -/
def Environment : Type := String → Option String

namespace Environment

def value? (env : Environment) (v : Variable) : Option String := env v.name

def abiVersion? (env : Environment) : Except ConfigError (Option AbiVersion) :=
  match env.value? .abiVersion with
  | none => .ok none
  | some s => (AbiVersion.read s).map some

def debugLevel? (env : Environment) : Except ConfigError (Option DebugLevel) :=
  match env.value? .debugInfo with
  | none => .ok none
  | some s =>
    match DebugLevel.parse? s with
    | none => .error (.invalidValue .debugInfo s)
    | some level => .ok (some level)

/-- The target, if its variable is present. It must not be blank. -/
def target? (env : Environment) : Except ConfigError (Option String) :=
  match env.value? .target with
  | none => .ok none
  | some s => if Text.trim s.toList = [] then .error (.invalidValue .target s) else .ok (some (Text.trimmed s))

end Environment

/-- `SessionConfig::apply_env_from`: the settings `c` with those of the environment in place of its
own. -/
def SessionConfig.override (c : SessionConfig) (env : Environment) : Except ConfigError SessionConfig := do
  let abi ← env.abiVersion?
  let level ← env.debugLevel?
  let target ← env.target?
  return { c with
    abiVersion := abi.getD c.abiVersion
    debugLevel := level.getD c.debugLevel
    target := target.getD c.target }

end TernBackend
