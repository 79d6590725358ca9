import WorkQueue.Config.Basic
import WorkQueue.Json.Access
import WorkQueue.Json.Reader
import WorkQueue.Text.Numeral

/-!
# Configuration as JSON

A configuration is an object of any of its fields, or a list of its first fields in order; what is
missing has its standard value.  Values have the types of the fields exactly: only a whole number is
accepted where a fraction may stand.
-/

namespace WorkQueue.Config

open WorkQueue.Json WorkQueue.Text

/-! ## Reading -/

/-- A field of a configuration: its name, and how a value replaces it. -/
structure Field where
  name : String
  apply : Json → Config → Option Config

/-- A field whose value is decoded by `decode` and put in place by `store`. -/
def field {α : Type} (name : String) (decode : Json → Option α) (store : Config → α → Config) :
    Field where
  name := name
  apply value config := (decode value).map (store config)

/-- The fields in order. -/
def fields : List Field :=
  [field "worker_count" (naturalBelow? bound64) fun c n => { c with workerCount := n },
   field "queues" (table? (naturalBelow? bound32)) fun c q => { c with queues := q },
   field "max_queue_size" (naturalBelow? bound64) fun c n => { c with maxQueueSize := n },
   field "task_timeout_secs" (naturalBelow? bound64) fun c n => { c with taskTimeoutSecs := n },
   field "default_max_retry" (naturalBelow? bound32) fun c n => { c with defaultMaxRetry := n },
   field "retry_base_delay_ms" (naturalBelow? bound64)
     fun c n => { c with retryBaseDelayMs := n },
   field "retry_max_delay_ms" (naturalBelow? bound64) fun c n => { c with retryMaxDelayMs := n },
   field "retry_jitter" real? fun c x => { c with retryJitter := x },
   field "visibility_timeout_secs" (naturalBelow? bound64)
     fun c n => { c with visibilityTimeoutSecs := n },
   field "poll_interval_ms" (naturalBelow? bound64) fun c n => { c with pollIntervalMs := n },
   field "shutdown_timeout_secs" (naturalBelow? bound64)
     fun c n => { c with shutdownTimeoutSecs := n },
   field "completed_history" (naturalBelow? bound64) fun c n => { c with completedHistory := n },
   field "dead_letter_history" (naturalBelow? bound64)
     fun c n => { c with deadLetterHistory := n },
   field "verify_email_base_url" text? fun c s => { c with verifyEmailBaseUrl := s },
   field "log_level" text? fun c s => { c with logLevel := s },
   field "log_json" truth? fun c b => { c with logJson := b }]

/-- Puts the value of a field into a configuration; other names change nothing. -/
def applyField (config : Config) (name : String) (value : Json) : Option Config :=
  match fields.find? (·.name == name) with
  | some field => field.apply value config
  | none => some config

/-- Puts values into a configuration in the order of the fields. -/
def applyInOrder : List Field → List Json → Config → Option Config
  | _, [], config => some config
  | [], _ :: _, _ => none
  | field :: fields, value :: values, config => do
    applyInOrder fields values (← field.apply value config)

/-- The configuration that a JSON value stands for. -/
def ofJson (value : Json) : Except Json.Fault Config :=
  let config := match value with
    | .object entries =>
      entries.foldlM (fun config entry => applyField config entry.1 entry.2) standard
    | .list values => applyInOrder fields values standard
    | _ => none
  match config with
  | some config => .ok config
  | none => .error .data

/-! ## Writing -/

/-- A configuration as a JSON object of all its fields. -/
def toJson (config : Config) : Json :=
  .object
    [("worker_count", .natural config.workerCount),
     ("queues", .object (config.queues.map fun entry => (entry.1, .natural entry.2))),
     ("max_queue_size", .natural config.maxQueueSize),
     ("task_timeout_secs", .natural config.taskTimeoutSecs),
     ("default_max_retry", .natural config.defaultMaxRetry),
     ("retry_base_delay_ms", .natural config.retryBaseDelayMs),
     ("retry_max_delay_ms", .natural config.retryMaxDelayMs),
     ("retry_jitter", .real config.retryJitter),
     ("visibility_timeout_secs", .natural config.visibilityTimeoutSecs),
     ("poll_interval_ms", .natural config.pollIntervalMs),
     ("shutdown_timeout_secs", .natural config.shutdownTimeoutSecs),
     ("completed_history", .natural config.completedHistory),
     ("dead_letter_history", .natural config.deadLetterHistory),
     ("verify_email_base_url", .text config.verifyEmailBaseUrl),
     ("log_level", .text config.logLevel),
     ("log_json", .bool config.logJson)]

end WorkQueue.Config
