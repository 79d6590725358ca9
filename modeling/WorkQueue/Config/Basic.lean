import WorkQueue.Binary64.Basic
import WorkQueue.Error
import WorkQueue.Queue.Weights
import WorkQueue.Retry
import WorkQueue.Table
import WorkQueue.Task.Basic

/-!
# Configuration

The settings of a deployment, their defaults, and the rules that make them usable.  `validate` gives
the first rule that is broken; everything else in the library is derived from a configuration by the
functions at the end.
-/

namespace WorkQueue

/-- The settings of a deployment. -/
structure Config where
  /-- How many workers run. -/
  workerCount : Nat
  /-- The served queues and their weights. -/
  queues : Table Nat
  /-- How many tasks a queue holds. -/
  maxQueueSize : Nat
  /-- The time that a handler has for a task, in seconds. -/
  taskTimeoutSecs : Nat
  /-- The budget of retries of tasks that name none. -/
  defaultMaxRetry : Nat
  /-- The first delay before a retry, in milliseconds. -/
  retryBaseDelayMs : Nat
  /-- The greatest delay before a retry, in milliseconds. -/
  retryMaxDelayMs : Nat
  /-- The share by which delays are lengthened at random. -/
  retryJitter : Binary64
  /-- The time after which a claim lapses, in seconds. -/
  visibilityTimeoutSecs : Nat
  /-- The pause of a worker that found no task, in milliseconds. -/
  pollIntervalMs : Nat
  /-- The time that workers have for stopping, in seconds. -/
  shutdownTimeoutSecs : Nat
  /-- How many completed tasks are kept. -/
  completedHistory : Nat
  /-- How many tasks that failed for good are kept. -/
  deadLetterHistory : Nat
  /-- The address under which verification links are served. -/
  verifyEmailBaseUrl : String
  /-- The level of the log. -/
  logLevel : String
  /-- Whether the log is written as JSON. -/
  logJson : Bool
  deriving DecidableEq

namespace Config

/-- The settings when nothing is configured: there is a worker for each processor of the machine. -/
def standard (processors : Nat := 1) : Config where
  workerCount := processors
  queues := [(criticalQueue, 10), (defaultQueue, 5)]
  maxQueueSize := 10000
  taskTimeoutSecs := 60
  defaultMaxRetry := 25
  retryBaseDelayMs := 1000
  retryMaxDelayMs := 600000
  retryJitter := ⟨0x3FC999999999999A⟩
  visibilityTimeoutSecs := 300
  pollIntervalMs := 200
  shutdownTimeoutSecs := 30
  completedHistory := 1000
  deadLetterHistory := 10000
  verifyEmailBaseUrl := "http://localhost:8080"
  logLevel := "info"
  logJson := false

/-- The standard settings with a number of workers. -/
def ofWorkers (workerCount : Nat) : Config :=
  { standard with workerCount := workerCount }

/-! ## Rules -/

/-- Whether the jitter is a share: a number from zero to one. -/
def jitterInRange (config : Config) : Bool :=
  Binary64.zero.le config.retryJitter && config.retryJitter.le Binary64.one

/-- The first rule that a configuration breaks, if there is one. -/
def firstProblem (config : Config) : Option ConfigProblem :=
  if config.workerCount = 0 then some .noWorkers
  else if config.queues.isEmpty then some .noQueues
  else
    match config.queues.find? fun entry => entry.2 == 0 with
    | some (name, _) => some (.weightlessQueue name)
    | none =>
      if config.maxQueueSize = 0 then some .noCapacity
      else if config.taskTimeoutSecs = 0 then some .noTaskTime
      else if config.visibilityTimeoutSecs ≤ config.taskTimeoutSecs then some .claimTooShort
      else if config.pollIntervalMs = 0 then some .noPollInterval
      else if config.retryMaxDelayMs < config.retryBaseDelayMs then some .retryDelays
      else if config.deadLetterHistory = 0 then some .noDeadLetters
      else if config.jitterInRange then none
      else some .jitterRange

/-- Accepts a configuration that breaks no rule. -/
def validate (config : Config) : Except QueueError Unit :=
  match config.firstProblem with
  | some problem => .error (.config problem)
  | none => .ok ()

/-! ## What is derived from a configuration -/

/-- The weights by which workers choose among the queues. -/
def queueWeights (config : Config) : QueueWeights :=
  QueueWeights.ofList config.queues

/-- The delays before retries. -/
def retryPolicy (config : Config) : RetryPolicy :=
  RetryPolicy.make (Duration.ofMillis config.retryBaseDelayMs)
    (Duration.ofMillis config.retryMaxDelayMs) config.retryJitter

/-- The time that a handler has for a task. -/
def taskTimeout (config : Config) : Duration :=
  Duration.ofSeconds config.taskTimeoutSecs

/-- The time after which a claim lapses. -/
def visibilityTimeout (config : Config) : Duration :=
  Duration.ofSeconds config.visibilityTimeoutSecs

/-- The pause of a worker that found no task. -/
def pollInterval (config : Config) : Duration :=
  Duration.ofMillis config.pollIntervalMs

/-- The time that workers have for stopping. -/
def shutdownTimeout (config : Config) : Duration :=
  Duration.ofSeconds config.shutdownTimeoutSecs

end Config

end WorkQueue
