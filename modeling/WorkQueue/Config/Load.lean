import WorkQueue.Config.Environment
import WorkQueue.Settings.File

/-!
# Loading a configuration

The configuration comes from the first of these: the file that a variable of the environment names,
a file of one of four default names, the other variables of the environment, and the standard
settings.  What is found is read, put together and validated, and an error there is final.
-/

namespace WorkQueue.Config

/-- Where a configuration came from. -/
inductive Source where
  | file (path : String)
  | environment
  | defaults
  deriving DecidableEq

/-- The kind of a source in one word. -/
def Source.kind : Source → String
  | .file _ => "file"
  | .environment => "env"
  | .defaults => "defaults"

/-- A source in words. -/
def Source.describe : Source → String
  | .file path => "file " ++ path
  | .environment => "environment variables"
  | .defaults => "built-in defaults"

/-! ## Fields from settings -/

/-- Weights under names. -/
def queuesOfSetting : Setting → Option (Table Nat)
  | .table entries => do
    let weights ← entries.mapM fun entry => do
      return (entry.1, ← entry.2.toNat? Text.bound32)
    return Table.ofEntries weights
  | _ => none

/-- A field of a configuration in settings: its name, and how a setting replaces it. -/
structure SettingField where
  name : String
  apply : Setting → Config → Option Config

/-- A field whose setting is converted by `convert` and put in place by `store`. -/
def settingField {α : Type} (name : String) (convert : Setting → Option α)
    (store : Config → α → Config) : SettingField where
  name := name
  apply value config := (convert value).map (store config)

/-- The fields of a configuration in settings. -/
def settingFields : List SettingField :=
  [settingField "worker_count" (·.toNat? Text.bound64) fun c n => { c with workerCount := n },
   settingField "queues" queuesOfSetting fun c q => { c with queues := q },
   settingField "max_queue_size" (·.toNat? Text.bound64) fun c n => { c with maxQueueSize := n },
   settingField "task_timeout_secs" (·.toNat? Text.bound64)
     fun c n => { c with taskTimeoutSecs := n },
   settingField "default_max_retry" (·.toNat? Text.bound32)
     fun c n => { c with defaultMaxRetry := n },
   settingField "retry_base_delay_ms" (·.toNat? Text.bound64)
     fun c n => { c with retryBaseDelayMs := n },
   settingField "retry_max_delay_ms" (·.toNat? Text.bound64)
     fun c n => { c with retryMaxDelayMs := n },
   settingField "retry_jitter" Setting.toReal? fun c x => { c with retryJitter := x },
   settingField "visibility_timeout_secs" (·.toNat? Text.bound64)
     fun c n => { c with visibilityTimeoutSecs := n },
   settingField "poll_interval_ms" (·.toNat? Text.bound64)
     fun c n => { c with pollIntervalMs := n },
   settingField "shutdown_timeout_secs" (·.toNat? Text.bound64)
     fun c n => { c with shutdownTimeoutSecs := n },
   settingField "completed_history" (·.toNat? Text.bound64)
     fun c n => { c with completedHistory := n },
   settingField "dead_letter_history" (·.toNat? Text.bound64)
     fun c n => { c with deadLetterHistory := n },
   settingField "verify_email_base_url" Setting.toText?
     fun c s => { c with verifyEmailBaseUrl := s },
   settingField "log_level" Setting.toText? fun c s => { c with logLevel := s },
   settingField "log_json" Setting.toTruth? fun c b => { c with logJson := b }]

/-- Puts a setting into a configuration; other names change nothing. -/
def applySetting (config : Config) (entry : String × Setting) : Option Config :=
  match settingFields.find? (·.name == entry.1) with
  | some field => field.apply entry.2 config
  | none => some config

/-- The configuration of settings, with standard values for what they leave out. -/
def ofSettings (settings : Table Setting) (processors : Nat := 1) : Except ConfigProblem Config :=
  match settings.foldlM applySetting (standard processors) with
  | some config => .ok config
  | none => .error (.mismatchedSettings "wrong type of a field")

/-! ## Sources -/

/-- The configuration of a file. -/
def ofFile (files : Files) (name : String) (processors : Nat := 1)
    (reading : Reading := .smooth) : Except QueueError Config := do
  let settings ← (files.settings name reading).mapError .config
  let config ← (ofSettings settings processors).mapError .config
  config.validate
  return config

/-- The names of files that are looked for. -/
def defaultFiles : List String :=
  ["task-relay.yaml", "task-relay.toml", "config/task-relay.yaml", "config/task-relay.toml"]

/-- The name of the file to load, if there is one: the variable's, or the first default name that
exists. -/
def chosenFile (env : Environment) (files : Files) : Option String :=
  match valueOf env "CONFIG" with
  | some name => some name
  | none => defaultFiles.find? files.has

/-- Loads the configuration on a machine with some processors, and says where it came from. -/
def load (env : Environment) (files : Files) (processors : Nat := 1)
    (reading : Reading := .smooth) : Except QueueError (Config × Source) :=
  match chosenFile env files with
  | some name => (ofFile files name processors reading).map fun config => (config, .file name)
  | none =>
    match ofEnvironment env processors with
    | .error error => .error error
    | .ok (some config) => .ok (config, .environment)
    | .ok none => .ok (standard processors, .defaults)

end WorkQueue.Config
