import TernBackend.Proofs.Session.Version
import TernBackend.Session.Environment

/-!
# Settings laid over one another

The three variables are treated alike: each sets one of the settings (`SessionConfig.get`), and for each there are
texts that stand for a value of it (`Variable.HasText`). An environment in which every variable that is present holds
such a text is taken, and no other is. Taking it replaces the settings of the variables that are present and keeps the
others (`override_eq_ok_iff`), so environments are laid over one another as the settings are (`override_override`).
What is wrong otherwise is said of the first variable that does not hold such a text (`override_eq_error_iff`).
-/

namespace TernBackend

open Text

/-! ## What variables hold -/

/-- The words for a level. -/
def DebugLevel.words : DebugLevel → List String
  | none => ["none", "0", "false", "off"]
  | lineTables => ["line-tables", "line-tables-only"]
  | full => ["full", "1", "true", "on"]

namespace Variable

/-- What a variable sets. -/
@[reducible] def Value : Variable → Type
  | abiVersion => AbiVersion
  | debugInfo => DebugLevel
  | target => String

/-- The text stands for the value. White space around it does not matter, nor does case in the word for a level; a
target is any text but the empty one. -/
def HasText : (v : Variable) → v.Value → String → Prop
  | abiVersion, version, s => version.HasText s
  | debugInfo, level, s => ∃ core, TrimsTo s.toList core ∧ String.ofList (core.map Char.toLower) ∈ level.words
  | target, t, s => TrimsTo s.toList t.toList ∧ t ≠ ""

/-- What a value is shown as. -/
def shown : (v : Variable) → v.Value → String
  | abiVersion, version => version.text
  | debugInfo, level => level.text
  | target, t => t

/-- The value that a text stands for, or the error that names the text. -/
def read : (v : Variable) → String → Except ConfigError v.Value
  | abiVersion, s => AbiVersion.read s
  | debugInfo, s =>
    match DebugLevel.parse? s with
    | none => .error (.invalidValue .debugInfo s)
    | some level => .ok level
  | target, s => if trim s.toList = [] then .error (.invalidValue .target s) else .ok (trimmed s)

/-- The error names the text, and the variable or what is wrong with the text. -/
def Blames : Variable → String → ConfigError → Prop
  | abiVersion, s, e =>
    ∃ core fault, TrimsTo s.toList core ∧ AbiVersion.Faulty core fault ∧ e = .invalidAbiVersion s fault
  | debugInfo, s, e => e = .invalidValue .debugInfo s
  | target, s, e => e = .invalidValue .target s

/-- The variables that are looked at before. -/
def earlier : Variable → List Variable
  | abiVersion => []
  | debugInfo => [abiVersion]
  | target => [abiVersion, debugInfo]

/-- A setting becomes what the text of its variable stands for, and stays if there is none. -/
def Sets (v : Variable) (text : Option String) (old new : v.Value) : Prop :=
  match text with
  | none => new = old
  | some s => v.HasText new s

end Variable

/-- The setting of a variable. -/
def SessionConfig.get (c : SessionConfig) : (v : Variable) → v.Value
  | .abiVersion => c.abiVersion
  | .debugInfo => c.debugLevel
  | .target => c.target

/-- Every variable that is present holds a text that stands for a value. -/
def Environment.Valid (env : Environment) : Prop :=
  ∀ v s, env.value? v = some s → ∃ value, v.HasText value s

/-- The environment `later` laid over `env`. -/
def Environment.over (later env : Environment) : Environment := fun name => (later name).or (env name)

/-! ## Reading one variable -/

theorem DebugLevel.ofWord?_eq_some_iff {word : List Char} {level : DebugLevel} :
    ofWord? word = some level ↔ String.ofList word ∈ level.words := by
  unfold ofWord?
  split <;> cases level <;> simp_all [words]

theorem Variable.read_eq_ok_iff {v : Variable} {s : String} {value : v.Value} :
    v.read s = .ok value ↔ v.HasText value s := by
  cases v with
  | abiVersion => exact AbiVersion.read_eq_ok_iff
  | debugInfo =>
    have hcore : Variable.debugInfo.HasText value s ↔ DebugLevel.parse? s = some value := by
      simp only [HasText, ← trim_eq_iff, exists_eq_left', DebugLevel.parse?, DebugLevel.ofWord?_eq_some_iff]
    rw [hcore]
    cases hparse : DebugLevel.parse? s <;> simp [Variable.read, hparse]
  | target =>
    have hcore : Variable.target.HasText value s ↔ trim s.toList = value.toList ∧ value ≠ "" := by
      rw [HasText, trim_eq_iff]
    rw [hcore, Variable.read]
    split
    next hnil =>
      refine iff_of_false nofun fun ⟨htrim, hne⟩ => hne ?_
      rw [← String.toList_eq_nil_iff, ← htrim, hnil]
    next hne =>
      rw [Except.ok.injEq, trimmed, String.ext_iff, String.toList_ofList]
      refine ⟨fun htrim => ⟨htrim, ?_⟩, And.left⟩
      rintro rfl
      exact hne htrim

theorem Variable.read_eq_error_iff {v : Variable} {s : String} {e : ConfigError} :
    v.read s = .error e ↔ (∀ value, ¬ v.HasText value s) ∧ v.Blames s e := by
  have hnone : (∀ value, ¬ v.HasText value s) ↔ ∃ e, v.read s = .error e := by
    simp only [← read_eq_ok_iff]
    cases v.read s <;> simp
  rw [hnone]
  cases v with
  | abiVersion =>
    rw [Variable.read, Blames, ← AbiVersion.read_eq_error_iff]
    exact ⟨fun h => ⟨⟨e, h⟩, h⟩, And.right⟩
  | debugInfo => cases hparse : DebugLevel.parse? s <;> simp [Variable.read, Blames, hparse, eq_comm]
  | target => by_cases hnil : trim s.toList = [] <;> simp [Variable.read, Blames, hnil, eq_comm]

theorem DebugLevel.hasText_text (level : DebugLevel) : Variable.debugInfo.HasText level level.text := by
  refine ⟨level.text.toList, trim_eq_iff.1 ?_, ?_⟩
  · cases level <;> decide
  · cases level <;> decide

/-! ## One setting -/

namespace Variable

/-- What is read of a variable that may be absent. -/
def reading (v : Variable) : Option String → Except ConfigError (Option v.Value)
  | none => .ok none
  | some s => (v.read s).map some

theorem sets_iff {v : Variable} {text : Option String} {old new : v.Value} :
    v.Sets text old new ↔ ∃ value, v.reading text = .ok value ∧ value.getD old = new := by
  cases text with
  | none => simp [Sets, reading, eq_comm]
  | some s =>
    rw [Sets, ← read_eq_ok_iff]
    simp only [reading, map_eq_ok_iff]
    constructor
    · intro h
      exact ⟨some new, ⟨new, h, rfl⟩, rfl⟩
    · rintro ⟨-, ⟨value, h, rfl⟩, rfl⟩
      exact h

theorem reading_eq_error_iff {v : Variable} {text : Option String} {e : ConfigError} :
    v.reading text = .error e ↔ ∃ s, text = some s ∧ (∀ value, ¬ v.HasText value s) ∧ v.Blames s e := by
  cases text with
  | none => simp [reading]
  | some s => simp [reading, map_eq_error_iff, read_eq_error_iff]

theorem exists_reading_iff {v : Variable} {text : Option String} :
    (∃ value, v.reading text = .ok value) ↔ ∀ s, text = some s → ∃ value, v.HasText value s := by
  cases text with
  | none => simp [reading]
  | some s => simp [reading, map_eq_ok_iff, read_eq_ok_iff]

theorem Sets.again {v : Variable} {text : Option String} {old new : v.Value} (h : v.Sets text old new) :
    v.Sets text new new := by
  cases text with
  | none => rfl
  | some s => exact h

theorem Sets.trans {v : Variable} {text later : Option String} {old mid new : v.Value} (h : v.Sets text old mid)
    (h' : v.Sets later mid new) : v.Sets (later.or text) old new := by
  cases later with
  | none =>
    obtain rfl : new = mid := h'
    exact h
  | some s => exact h'

theorem forall_iff {P : Variable → Prop} : (∀ v, P v) ↔ P abiVersion ∧ P debugInfo ∧ P target :=
  ⟨fun h => ⟨h _, h _, h _⟩, fun ⟨habi, hdebug, htarget⟩ v => by cases v <;> assumption⟩

end Variable

/-! ## All settings -/

namespace Environment

variable (env : Environment)

theorem abiVersion?_eq : env.abiVersion? = Variable.abiVersion.reading (env.value? .abiVersion) := by
  unfold abiVersion?
  cases env.value? .abiVersion <;> rfl

theorem debugLevel?_eq : env.debugLevel? = Variable.debugInfo.reading (env.value? .debugInfo) := by
  unfold debugLevel?
  cases env.value? .debugInfo with
  | none => rfl
  | some s =>
    simp only [Variable.reading, Variable.read]
    cases DebugLevel.parse? s <;> rfl

theorem target?_eq : env.target? = Variable.target.reading (env.value? .target) := by
  unfold target?
  cases env.value? .target with
  | none => rfl
  | some s =>
    simp only [Variable.reading, Variable.read]
    split <;> rfl

end Environment

namespace SessionConfig

variable {c d : SessionConfig} {env : Environment}

/-- Settings that agree in all variables and in the output path are the same. -/
theorem eq_of_get (hpath : c.outputPath = d.outputPath) (hget : ∀ v : Variable, c.get v = d.get v) : c = d := by
  obtain ⟨habi, hdebug, htarget⟩ := Variable.forall_iff.1 hget
  cases c
  cases d
  simp_all [get]

theorem override_eq_ok_iff :
    c.override env = .ok d ↔
      d.outputPath = c.outputPath ∧ ∀ v : Variable, v.Sets (env.value? v) (c.get v) (d.get v) := by
  simp only [override, env.abiVersion?_eq, env.debugLevel?_eq, env.target?_eq, bind_eq_ok_iff]
  constructor
  · rintro ⟨version, hversion, level, hlevel, target, htarget, h⟩
    obtain rfl := Except.ok.inj h
    refine ⟨rfl, Variable.forall_iff.2 ⟨?_, ?_, ?_⟩⟩
    · exact Variable.sets_iff.2 ⟨version, hversion, rfl⟩
    · exact Variable.sets_iff.2 ⟨level, hlevel, rfl⟩
    · exact Variable.sets_iff.2 ⟨target, htarget, rfl⟩
  · rintro ⟨hpath, hsets⟩
    obtain ⟨version, hversion, habi⟩ := Variable.sets_iff.1 (hsets .abiVersion)
    obtain ⟨level, hlevel, hdebug⟩ := Variable.sets_iff.1 (hsets .debugInfo)
    obtain ⟨target, htarget, htriple⟩ := Variable.sets_iff.1 (hsets .target)
    refine ⟨version, hversion, level, hlevel, target, htarget, congrArg Except.ok ?_⟩
    exact eq_of_get hpath.symm (Variable.forall_iff.2 ⟨habi, hdebug, htriple⟩)

theorem exists_override_iff : (∃ d, c.override env = .ok d) ↔ env.Valid := by
  simp only [Environment.Valid, Variable.forall_iff, ← Variable.exists_reading_iff, override, env.abiVersion?_eq,
    env.debugLevel?_eq, env.target?_eq, bind_eq_ok_iff]
  constructor
  · rintro ⟨-, version, hversion, level, hlevel, target, htarget, -⟩
    exact ⟨⟨version, hversion⟩, ⟨level, hlevel⟩, ⟨target, htarget⟩⟩
  · rintro ⟨⟨version, hversion⟩, ⟨level, hlevel⟩, ⟨target, htarget⟩⟩
    exact ⟨_, version, hversion, level, hlevel, target, htarget, rfl⟩

theorem override_eq_error_iff {e : ConfigError} :
    c.override env = .error e ↔ ∃ v s, env.value? v = some s ∧ (∀ value, ¬ v.HasText value s) ∧ v.Blames s e ∧
      ∀ u ∈ v.earlier, ∀ s', env.value? u = some s' → ∃ value, u.HasText value s' := by
  simp only [override, env.abiVersion?_eq, env.debugLevel?_eq, env.target?_eq, bind_eq_error_iff]
  constructor
  · rintro (hversion | ⟨version, hversion, hlevel | ⟨level, hlevel, htarget | ⟨_, -, h⟩⟩⟩)
    · obtain ⟨s, hs, hno, hblame⟩ := Variable.reading_eq_error_iff.1 hversion
      exact ⟨.abiVersion, s, hs, hno, hblame, nofun⟩
    · obtain ⟨s, hs, hno, hblame⟩ := Variable.reading_eq_error_iff.1 hlevel
      refine ⟨.debugInfo, s, hs, hno, hblame, ?_⟩
      have hbefore := (Variable.exists_reading_iff (v := .abiVersion)).1 ⟨version, hversion⟩
      simpa [Variable.earlier] using hbefore
    · obtain ⟨s, hs, hno, hblame⟩ := Variable.reading_eq_error_iff.1 htarget
      refine ⟨.target, s, hs, hno, hblame, ?_⟩
      have hbefore := (Variable.exists_reading_iff (v := .abiVersion)).1 ⟨version, hversion⟩
      have hbefore' := (Variable.exists_reading_iff (v := .debugInfo)).1 ⟨level, hlevel⟩
      simpa [Variable.earlier] using ⟨hbefore, hbefore'⟩
    · cases h
  · rintro ⟨v, s, hs, hno, hblame, hearlier⟩
    have hrefused := Variable.reading_eq_error_iff.2 ⟨s, hs, hno, hblame⟩
    have hread : ∀ u ∈ v.earlier, ∃ value, u.reading (env.value? u) = .ok value :=
      fun u hu => Variable.exists_reading_iff.2 (hearlier u hu)
    -- the variables before it are read, so its own error is the one that comes out
    cases v with
    | abiVersion => exact .inl hrefused
    | debugInfo =>
      obtain ⟨version, hversion⟩ := hread .abiVersion (by simp [Variable.earlier])
      exact .inr ⟨version, hversion, .inl hrefused⟩
    | target =>
      obtain ⟨version, hversion⟩ := hread .abiVersion (by simp [Variable.earlier])
      obtain ⟨level, hlevel⟩ := hread .debugInfo (by simp [Variable.earlier])
      exact .inr ⟨version, hversion, .inr ⟨level, hlevel, .inl hrefused⟩⟩

theorem override_again (h : c.override env = .ok d) : d.override env = .ok d := by
  have ⟨_, hsets⟩ := override_eq_ok_iff.1 h
  exact override_eq_ok_iff.2 ⟨rfl, fun v => (hsets v).again⟩

theorem override_override {later : Environment} (henv : env.Valid) (hlater : later.Valid) :
    (c.override env).bind (·.override later) = c.override (later.over env) := by
  obtain ⟨mid, hmid⟩ := (exists_override_iff (c := c)).2 henv
  obtain ⟨d, hd⟩ := (exists_override_iff (c := mid)).2 hlater
  have ⟨hpath, hsets⟩ := override_eq_ok_iff.1 hmid
  have ⟨hpath', hsets'⟩ := override_eq_ok_iff.1 hd
  -- variable by variable: what is set twice is set by the later environment
  have hboth : c.override (later.over env) = .ok d :=
    override_eq_ok_iff.2 ⟨hpath'.trans hpath, fun v => (hsets v).trans (hsets' v)⟩
  rw [hboth, hmid]
  exact hd

/-! ## Values as texts -/

theorem hasText_shown (hne : d.target ≠ "") (htrimmed : IsTrimmed d.target.toList) (v : Variable) :
    v.HasText (d.get v) (v.shown (d.get v)) := by
  cases v with
  | abiVersion => exact AbiVersion.hasText_text d.abiVersion
  | debugInfo => exact DebugLevel.hasText_text d.debugLevel
  | target => exact ⟨htrimmed.trimsTo, hne⟩

/-- Whatever the settings were, an environment that shows the values of others makes them these. -/
theorem override_of_shown (hne : d.target ≠ "") (htrimmed : IsTrimmed d.target.toList)
    (hshown : ∀ v : Variable, env.value? v = some (v.shown (d.get v))) :
    c.override env = .ok { d with outputPath := c.outputPath } := by
  refine override_eq_ok_iff.2 ⟨rfl, fun v => ?_⟩
  have hget : SessionConfig.get { d with outputPath := c.outputPath } v = d.get v := by
    cases v <;> rfl
  rw [hget, hshown]
  exact hasText_shown hne htrimmed v

/-! ## The result -/

/-- **Environments are laid over settings.** An environment is taken just if each variable that is present holds a
text that stands for a value. Then the settings of the variables that are present become these values, and the others
stay, as does the output path. Taking it again changes nothing, and taking one environment after another is taking the
second laid over the first. Settings whose target is not empty and has no white space around it can be carried by an
environment that shows them. An error is about the first variable that holds a text that stands for no value, in the
order in which they are looked at. -/
theorem environments_overlay (c : SessionConfig) (env : Environment) :
    ((∃ d, c.override env = .ok d) ↔ env.Valid) ∧
    (∀ d, c.override env = .ok d ↔
      d.outputPath = c.outputPath ∧ ∀ v : Variable, v.Sets (env.value? v) (c.get v) (d.get v)) ∧
    (∀ d, c.override env = .ok d → d.override env = .ok d) ∧
    (∀ later : Environment, env.Valid → later.Valid →
      (c.override env).bind (·.override later) = c.override (later.over env)) ∧
    (∀ d : SessionConfig, d.target ≠ "" → IsTrimmed d.target.toList →
      (∀ v : Variable, env.value? v = some (v.shown (d.get v))) →
      c.override env = .ok { d with outputPath := c.outputPath }) ∧
    (∀ e, c.override env = .error e ↔
      ∃ v s, env.value? v = some s ∧ (∀ value, ¬ v.HasText value s) ∧ v.Blames s e ∧
        ∀ u ∈ v.earlier, ∀ s', env.value? u = some s' → ∃ value, u.HasText value s') :=
  ⟨exists_override_iff, fun _ => override_eq_ok_iff, fun _ => override_again, fun _ => override_override,
    fun _ => override_of_shown, fun _ => override_eq_error_iff⟩

/-- An environment of two variables, one of two others over it, and one of all three that shows other settings. -/
theorem environments_overlay_twice :
    let env : Environment := fun name =>
      if name = "TERN_ABI_VERSION" then some " 3.1" else if name = "TERN_DEBUG_INFO" then some "FULL\n" else none
    let later : Environment := fun name =>
      if name = "TERN_DEBUG_INFO" then some "off" else if name = "TERN_TARGET" then some " wasm32-wasi\t" else none
    let d : SessionConfig := ⟨⟨3, 1, 0⟩, none, .none, "wasm32-wasi"⟩
    (({} : SessionConfig).override env).bind (·.override later) = .ok d ∧
    ∀ c : SessionConfig, c.override (fun name =>
      if name = "TERN_ABI_VERSION" then some "3.1.0" else if name = "TERN_DEBUG_INFO" then some "none" else
        if name = "TERN_TARGET" then some "wasm32-wasi" else none) = .ok { d with outputPath := c.outputPath } := by
  intro env later d
  have henv : env.Valid := by
    intro v s hs
    cases v with
    | abiVersion =>
      obtain rfl : " 3.1" = s := Option.some.inj hs
      exact ⟨⟨3, 1, 0⟩, Variable.read_eq_ok_iff.1 rfl⟩
    | debugInfo =>
      obtain rfl : "FULL\n" = s := Option.some.inj hs
      exact ⟨.full, Variable.read_eq_ok_iff.1 rfl⟩
    | target => cases hs
  have hlater : later.Valid := by
    intro v s hs
    cases v with
    | abiVersion => cases hs
    | debugInfo =>
      obtain rfl : "off" = s := Option.some.inj hs
      exact ⟨.none, Variable.read_eq_ok_iff.1 rfl⟩
    | target =>
      obtain rfl : " wasm32-wasi\t" = s := Option.some.inj hs
      exact ⟨"wasm32-wasi", Variable.read_eq_ok_iff.1 rfl⟩
  obtain ⟨-, -, -, hover, -⟩ := environments_overlay {} env
  refine ⟨(hover later henv hlater).trans rfl, fun c => ?_⟩
  obtain ⟨-, -, -, -, hcarried, -⟩ := environments_overlay c _
  refine hcarried d (by decide) (by decide) fun v => ?_
  cases v <;> decide +kernel

end SessionConfig

end TernBackend
