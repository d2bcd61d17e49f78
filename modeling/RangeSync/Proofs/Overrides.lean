import RangeSync.Settings.Groups

/-!
# What the environment does to the settings

A setting is read from its variable, and a variable that is missing or spells no value leaves the
setting to a default. Which default that is cannot be seen from a program that starts with the
defaults: what a setting held before and what it is declared with are the same then. They are not
the same for settings that somebody has changed, and there the two possible readings part.

The settings have eleven types and places, and everything said here is said of each of them. So
`RangeSync.SettingField` is a place with its type and the name of its variable, and
`RangeSync.Settings.fields` lists all of them: settings that agree there are equal
(`RangeSync.Settings.ext_fields`). The one fact about a place is that **it holds what its variable
spells, or its declared default** (`RangeSync.Settings.get_overridden`), whatever it held before. It
follows that the environment touches nothing else exactly if every setting that it does not spell
held its default to begin with (`RangeSync.Settings.overrides_iff_default`).
-/

namespace RangeSync

open Time

/-- The value of a setting is what the text of its variable spells, or the default. -/
theorem Setting.resolve_fst {α : Type} [Setting α] (name : String) (given : Option String)
    (default : α) : (Setting.resolve name given default).1 =
      (given.bind Setting.read?).getD default := by
  rcases given with _ | text
  · rfl
  · rw [Setting.resolve, Option.bind_some]
    cases (Setting.read? text : Option α) <;> rfl

/-! ### The places of the settings -/

/-- A place among the settings: the type of its values, the group and the name that make its
variable, and what the settings hold there. -/
structure SettingField where
  Value : Type
  [reader : Setting Value]
  group : SettingGroup
  name : String
  get : Settings → Value

namespace SettingField

/-- The variable that gives the setting. -/
def variableName (f : SettingField) : String :=
  f.group.variableName f.name

/-- The value that a text spells. -/
def read? (f : SettingField) : String → Option f.Value :=
  f.reader.read?

/-- The value that an environment spells: its variable is there, it is text, and it can be read. -/
def given? (f : SettingField) (env : Environment) : Option f.Value :=
  (env.text? f.variableName).bind f.read?

variable {f : SettingField} {env : Environment}

theorem given?_eq_some_iff {value : f.Value} : f.given? env = some value ↔
    ∃ text, env.text? f.variableName = some text ∧ f.read? text = some value :=
  Option.bind_eq_some_iff

theorem given?_eq_none_iff : f.given? env = none ↔
    ∀ text, env.text? f.variableName = some text → f.read? text = none :=
  Option.bind_eq_none_iff

end SettingField

namespace Settings

variable {before s t : Settings} {env : Environment} {f : SettingField}

/-- All places of the settings. -/
def fields : List SettingField :=
  [⟨Span, .client, "connect_timeout", (·.client.connectTimeout)⟩,
    ⟨Span, .client, "read_timeout", (·.client.readTimeout)⟩,
    ⟨String, .client, "user_agent", (·.client.userAgent)⟩,
    ⟨ByteSize, .reconstruction, "download_chunk_size", (·.reconstruction.downloadChunkSize)⟩,
    ⟨ByteSize, .reconstruction, "staging_memory_limit", (·.reconstruction.stagingMemoryLimit)⟩,
    ⟨IntegrityPolicy, .reconstruction, "integrity_policy", (·.reconstruction.integrityPolicy)⟩,
    ⟨Bool, .reconstruction, "preserve_mtime", (·.reconstruction.preserveMtime)⟩,
    ⟨String, .planner, "command", (·.planner.command)⟩,
    ⟨String, .planner, "args", (·.planner.args)⟩,
    ⟨Option String, .log, "dest", (·.log.dest)⟩,
    ⟨Option String, .log, "format", (·.log.format)⟩]

/-- **Settings that agree at every place are equal.** -/
theorem ext_fields (h : ∀ f ∈ fields, f.get s = f.get t) : s = t := by
  simp only [fields, List.forall_mem_cons] at h
  obtain ⟨h₁, h₂, h₃, h₄, h₅, h₆, h₇, h₈, h₉, h₁₀, h₁₁, _⟩ := h
  obtain ⟨⟨_, _, _⟩, ⟨_, _, _, _⟩, ⟨_, _⟩, ⟨_, _⟩⟩ := s
  obtain ⟨⟨_, _, _⟩, ⟨_, _, _, _⟩, ⟨_, _⟩, ⟨_, _⟩⟩ := t
  cases h₁; cases h₂; cases h₃; cases h₄; cases h₅; cases h₆
  cases h₇; cases h₈; cases h₉; cases h₁₀; cases h₁₁
  rfl

/-- **A place holds what its variable spells, or its declared default**, whatever it held before. -/
theorem get_overridden (hf : f ∈ fields) (before : Settings) (env : Environment) :
    f.get (before.overridden env).1 = (f.given? env).getD (f.get Settings.default) := by
  revert f
  simp only [fields, List.forall_mem_cons]
  have h {α : Type} [Setting α] := @Setting.resolve_fst α _
  exact ⟨h .., h .., h .., h .., h .., h .., h .., h .., h .., h .., h .., nofun⟩

/-! ### What is touched -/

/-- The environment has touched what it spells and nothing else: every place whose variable spells a
value holds that value, and every other place holds what it held before. -/
def Overrides (env : Environment) (before after : Settings) : Prop :=
  ∀ f ∈ fields,
    (∀ text value, env.text? f.variableName = some text → f.read? text = some value →
      f.get after = value) ∧
    ((∀ text, env.text? f.variableName = some text → f.read? text = none) →
      f.get after = f.get before)

/-- **The environment touches what it spells and nothing else exactly if** every setting that it
does not spell held its declared default before, as it does in a program that starts with the
defaults. Any other setting is reset to its default. A place never depends on the variable of
another one, and a second time changes nothing. -/
theorem overrides_iff_default (before : Settings) (env : Environment) :
    (Overrides env before (before.overridden env).1 ↔
      ∀ f ∈ fields, f.given? env = none → f.get before = f.get Settings.default) ∧
    (∀ f ∈ fields, f.get (before.overridden env).1 =
      (f.given? env).getD (f.get Settings.default)) ∧
    (∀ f ∈ fields, ∀ env', env'.text? f.variableName = env.text? f.variableName →
      f.get (before.overridden env').1 = f.get (before.overridden env).1) ∧
    ((before.overridden env).1.overridden env).1 = (before.overridden env).1 := by
  refine ⟨⟨fun h f hf hnone => ?_, fun h f hf => ⟨fun text value htext hvalue => ?_, fun hno => ?_⟩⟩,
    fun f hf => get_overridden hf before env, fun f hf env' hsame => ?_, ?_⟩
  · have hkept := (h f hf).2 (SettingField.given?_eq_none_iff.mp hnone)
    rw [get_overridden hf, hnone, Option.getD_none] at hkept
    exact hkept.symm
  · rw [get_overridden hf, SettingField.given?_eq_some_iff.mpr ⟨text, htext, hvalue⟩,
      Option.getD_some]
  · have hnone := SettingField.given?_eq_none_iff.mpr hno
    rw [get_overridden hf, hnone, Option.getD_none, h f hf hnone]
  · rw [get_overridden hf, get_overridden hf, SettingField.given?, SettingField.given?, hsame]
  · refine ext_fields fun f hf => ?_
    rw [get_overridden hf, get_overridden hf]

/-- Settings with one change: the output is not to be dated. -/
def undated : Settings :=
  { Settings.default with
    reconstruction := { Settings.default.reconstruction with preserveMtime := false } }

/-- **An environment without variables changes settings**: the change that was made to them is
forgotten. -/
theorem empty_environment_resets :
    ¬ Overrides .empty undated (undated.overridden .empty).1 := by
  intro h
  have hkept := (h ⟨Bool, .reconstruction, "preserve_mtime", (·.reconstruction.preserveMtime)⟩
    (by simp [fields])).2 nofun
  exact absurd hkept (by decide)

end Settings
end RangeSync
