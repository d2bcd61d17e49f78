import RangeSync.Environment.Basic
import RangeSync.Settings.Value

/-!
# The settings of the program

Settings come in four groups. Each setting has a default and a variable whose name is made of the
group and the setting; `Settings.overridden` reads all variables of an environment. A setting whose
variable is missing or cannot be read is set to its default, whatever it held before.
-/

namespace RangeSync

open Time

/-- The groups of settings. -/
inductive SettingGroup
  | client | reconstruction | planner | log
deriving DecidableEq, Repr

namespace SettingGroup

/-- The name of the group. -/
def name : SettingGroup → String
  | .client => "client"
  | .reconstruction => "reconstruction"
  | .planner => "planner"
  | .log => "log"

/-- The letters `a` to `z` in upper case, every other character as it is. -/
def raised (s : String) : String :=
  String.ofList (s.toList.map Char.toUpper)

/-- The variable that gives a setting of the group. -/
def variableName (g : SettingGroup) (setting : String) : String :=
  "ZSYNC_" ++ raised g.name ++ "_" ++ raised setting

end SettingGroup

/-- How the metadata and the missing ranges are fetched. -/
structure ClientSettings where
  connectTimeout : Span
  readTimeout : Span
  userAgent : String
deriving DecidableEq, Repr

/-- How a file is put together. -/
structure ReconstructionSettings where
  /-- The most bytes that are taken from a response at a time. -/
  downloadChunkSize : ByteSize
  /-- Staged outputs up to this size stay in memory. -/
  stagingMemoryLimit : ByteSize
  integrityPolicy : IntegrityPolicy
  /-- A verified output takes the modification time of the descriptor. -/
  preserveMtime : Bool
deriving DecidableEq, Repr

/-- Which program plans the ranges. -/
structure PlannerSettings where
  command : String
  /-- Arguments in front of the paths, separated by blanks. -/
  args : String
deriving DecidableEq, Repr

/-- Where the log goes. -/
structure LogSettings where
  dest : Option String
  format : Option String
deriving DecidableEq, Repr

/-- All settings. -/
structure Settings where
  client : ClientSettings
  reconstruction : ReconstructionSettings
  planner : PlannerSettings
  log : LogSettings
deriving DecidableEq, Repr

/-- The name of the program. -/
def productTitle : String := "zsyncdownload"

/-- The version of the program. -/
def productVersion : String := "0.3.0"

/-- The name and version that requests are signed with. -/
def productName : String := productTitle ++ "/" ++ productVersion

/-- The declared default of every setting. -/
def Settings.default : Settings where
  client := ⟨.ofSeconds 60, .ofSeconds 120, productName⟩
  reconstruction := ⟨⟨64 * 1024⟩, ⟨64 * 1024 * 1024⟩, .advisory, true⟩
  planner := ⟨"zsyncranges", ""⟩
  log := ⟨none, none⟩

/-- The names of the settings in each group. -/
def SettingGroup.fields : SettingGroup → List String
  | .client => ["connect_timeout", "read_timeout", "user_agent"]
  | .reconstruction =>
    ["download_chunk_size", "staging_memory_limit", "integrity_policy", "preserve_mtime"]
  | .planner => ["command", "args"]
  | .log => ["dest", "format"]

/-- The variables of all settings. -/
def Settings.variableNames : List String :=
  [SettingGroup.client, .reconstruction, .planner, .log].flatMap fun group =>
    group.fields.map group.variableName

/-- One setting of a group as an environment gives it. -/
def Environment.setting {α : Type} [Setting α] (env : Environment) (group : SettingGroup)
    (field : String) (default : α) : α × Entry :=
  let name := group.variableName field
  Setting.resolve name (env.text? name) default

/-- The client settings of an environment. -/
def Environment.client (env : Environment) : ClientSettings × List Entry :=
  let declared := Settings.default.client
  let connect := env.setting .client "connect_timeout" declared.connectTimeout
  let read := env.setting .client "read_timeout" declared.readTimeout
  let agent := env.setting .client "user_agent" declared.userAgent
  (⟨connect.1, read.1, agent.1⟩, [connect.2, read.2, agent.2])

/-- The reconstruction settings of an environment. -/
def Environment.reconstruction (env : Environment) : ReconstructionSettings × List Entry :=
  let declared := Settings.default.reconstruction
  let chunk := env.setting .reconstruction "download_chunk_size" declared.downloadChunkSize
  let limit := env.setting .reconstruction "staging_memory_limit" declared.stagingMemoryLimit
  let policy := env.setting .reconstruction "integrity_policy" declared.integrityPolicy
  let mtime := env.setting .reconstruction "preserve_mtime" declared.preserveMtime
  (⟨chunk.1, limit.1, policy.1, mtime.1⟩, [chunk.2, limit.2, policy.2, mtime.2])

/-- The planner settings of an environment. -/
def Environment.planner (env : Environment) : PlannerSettings × List Entry :=
  let declared := Settings.default.planner
  let command := env.setting .planner "command" declared.command
  let args := env.setting .planner "args" declared.args
  (⟨command.1, args.1⟩, [command.2, args.2])

/-- The log settings of an environment. -/
def Environment.log (env : Environment) : LogSettings × List Entry :=
  let declared := Settings.default.log
  let dest := env.setting .log "dest" declared.dest
  let format := env.setting .log "format" declared.format
  (⟨dest.1, format.1⟩, [dest.2, format.2])

/-- **The settings under an environment**: every setting of `before` is replaced by what its
variable gives, or by its declared default. -/
def Settings.overridden (_before : Settings) (env : Environment) : Settings × List Entry :=
  let client := env.client
  let reconstruction := env.reconstruction
  let planner := env.planner
  let log := env.log
  (⟨client.1, reconstruction.1, planner.1, log.1⟩,
    client.2 ++ reconstruction.2 ++ planner.2 ++ log.2)

end RangeSync
