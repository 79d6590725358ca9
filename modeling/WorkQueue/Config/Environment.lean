import WorkQueue.Binary64.Decimal
import WorkQueue.Config.Basic
import WorkQueue.Text.Blank
import WorkQueue.Text.Split
import WorkQueue.Text.Utf8

/-!
# Configuration from the environment

Every setting has a variable.  The variables that are set replace the standard settings one by one,
in a fixed order; the first one that does not parse is an error.  Without any of them the
environment configures nothing.

A variable can be set to any octets.  One whose octets are not those of a text is passed over as if
it were not set.
-/

namespace WorkQueue

/-- What a variable is set to: a text, or octets that are not those of a text. -/
inductive RawText where
  | text (s : String)
  | octets (octets : List UInt8) (broken : ∃ n, .damaged n ∈ Text.Utf8.decode octets)

instance : Coe String RawText := ⟨.text⟩

/-- The text that a variable is set to, if it is one. -/
def RawText.text? : RawText → Option String
  | .text s => some s
  | .octets _ _ => none

/-- Variables and what they are set to. -/
abbrev Environment := Table RawText

namespace Config

open WorkQueue.Text

/-- What the names of all variables begin with. -/
def variableStem : String := "TASK_RELAY_"

/-- The text of a variable, named without the common beginning, if it is set to one. -/
def valueOf (env : Environment) (name : String) : Option String :=
  (Table.get? (variableStem ++ name) env).bind RawText.text?

/-! ## Values -/

/-- The wording for a text that is neither of the two truth values. -/
def truthProblem : String := "provided string was not `true` or `false`"

/-- A natural number below `bound`. -/
def parseNat (bound : Nat) (text : String) : Except String Nat :=
  (readNat bound text.toList).mapError NumeralError.message

/-- A number of the binary format. -/
def parseReal (text : String) : Except String Binary64 :=
  (Binary64.read text.toList).mapError Binary64.DecimalError.message

/-- A truth value. -/
def parseTruth (text : String) : Except String Bool :=
  if text = "true" then .ok true else if text = "false" then .ok false else .error truthProblem

/-- One entry of a list of queues: a name, an equals sign and a weight, with blanks around each. -/
def parseQueueEntry (entry : List Char) : Except ConfigProblem (String × Nat) :=
  match cut '=' entry with
  | none => .error (.badQueueEntry (String.ofList entry))
  | some (name, weight) =>
    match readNat bound32 (trim weight) with
    | .error error => .error (.badQueueWeight (String.ofList name) error.message)
    | .ok weight => .ok (String.ofList (trim name), weight)

/-- The entries of a list of queues, read from left to right into a table; of entries of one name
the last counts. -/
def readQueueEntries : Table Nat → List (List Char) → Except ConfigProblem (Table Nat)
  | queues, [] => .ok queues
  | queues, entry :: rest =>
    match parseQueueEntry entry with
    | .error problem => .error problem
    | .ok (name, weight) => readQueueEntries (Table.put name weight queues) rest

/-- A list of queues: entries separated by commas, of which blank ones are passed over. -/
def parseQueues (text : String) : Except ConfigProblem (Table Nat) :=
  readQueueEntries [] (((pieces ',' text.toList).map trim).filter fun entry => !entry.isEmpty)

/-! ## Variables -/

/-- A setting of the environment: the name of its variable, and how a value replaces the setting. -/
structure Variable where
  name : String
  apply : String → Config → Except ConfigProblem Config

/-- A variable whose value is parsed by `parse` and put in place by `store`. -/
def setting {α : Type} (name : String) (parse : String → Except String α)
    (store : Config → α → Config) : Variable where
  name := name
  apply text config :=
    match parse text with
    | .ok value => .ok (store config value)
    | .error reason => .error (.badVariable name reason)

/-- The variables in the order in which they are looked at. -/
def allVariables : List Variable :=
  [setting "WORKER_COUNT" (parseNat bound64) fun c n => { c with workerCount := n },
   setting "MAX_QUEUE_SIZE" (parseNat bound64) fun c n => { c with maxQueueSize := n },
   setting "TASK_TIMEOUT_SECS" (parseNat bound64) fun c n => { c with taskTimeoutSecs := n },
   setting "DEFAULT_MAX_RETRY" (parseNat bound32) fun c n => { c with defaultMaxRetry := n },
   setting "RETRY_BASE_DELAY_MS" (parseNat bound64) fun c n => { c with retryBaseDelayMs := n },
   setting "RETRY_MAX_DELAY_MS" (parseNat bound64) fun c n => { c with retryMaxDelayMs := n },
   setting "RETRY_JITTER" parseReal fun c x => { c with retryJitter := x },
   setting "VISIBILITY_TIMEOUT_SECS" (parseNat bound64)
     fun c n => { c with visibilityTimeoutSecs := n },
   setting "POLL_INTERVAL_MS" (parseNat bound64) fun c n => { c with pollIntervalMs := n },
   setting "SHUTDOWN_TIMEOUT_SECS" (parseNat bound64)
     fun c n => { c with shutdownTimeoutSecs := n },
   setting "COMPLETED_HISTORY" (parseNat bound64) fun c n => { c with completedHistory := n },
   setting "DEAD_LETTER_HISTORY" (parseNat bound64) fun c n => { c with deadLetterHistory := n },
   setting "VERIFY_EMAIL_BASE_URL" .ok fun c s => { c with verifyEmailBaseUrl := s },
   setting "LOG_LEVEL" .ok fun c s => { c with logLevel := s },
   setting "LOG_JSON" parseTruth fun c b => { c with logJson := b },
   { name := "QUEUES"
     apply text config := do return { config with queues := ← parseQueues text } }]

/-- Applies the variables that are set to texts, in order. -/
def applyVariables (env : Environment) : List Variable → Config → Except ConfigProblem Config
  | [], config => .ok config
  | entry :: rest, config =>
    match valueOf env entry.name with
    | none => applyVariables env rest config
    | some text =>
      match entry.apply text config with
      | .error problem => .error problem
      | .ok config => applyVariables env rest config

/-- Whether any setting has its variable set to a text. -/
def isConfigured (env : Environment) : Bool :=
  allVariables.any fun entry => (valueOf env entry.name).isSome

/-- The configuration of the environment, or nothing if none of its variables is set to a text. -/
def ofEnvironment (env : Environment) (processors : Nat := 1) : Except QueueError (Option Config) :=
  match applyVariables env allVariables (standard processors) with
  | .error problem => .error (.config problem)
  | .ok config =>
    if isConfigured env then
      match config.validate with
      | .error error => .error error
      | .ok () => .ok (some config)
    else .ok none

end Config

end WorkQueue
