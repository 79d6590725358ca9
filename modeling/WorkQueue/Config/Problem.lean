import WorkQueue.Time.Duration

/-!
# Problems with a configuration

Everything that can be wrong with a configuration or with the place it is loaded from, and the
wording of each.
-/

namespace WorkQueue

/-- What is wrong with a configuration. -/
inductive ConfigProblem where
  /-- There are no workers. -/
  | noWorkers
  /-- There are no queues. -/
  | noQueues
  /-- A queue has the weight zero. -/
  | weightlessQueue (name : String)
  /-- Queues hold nothing. -/
  | noCapacity
  /-- Tasks get no time. -/
  | noTaskTime
  /-- A claim lapses before its task has used up its time. -/
  | claimTooShort
  /-- Workers ask without pause. -/
  | noPollInterval
  /-- The first delay before a retry is beyond the greatest. -/
  | retryDelays
  /-- Tasks that failed for good are not kept. -/
  | noDeadLetters
  /-- The jitter is not a share. -/
  | jitterRange
  /-- Tasks may take longer than the claims of the broker at hand last. -/
  | outlivesClaim (taskTime claimTime : Duration)
  /-- A variable of the environment does not parse. -/
  | badVariable (name reason : String)
  /-- An entry of the list of queues has no weight. -/
  | badQueueEntry (entry : String)
  /-- The weight of an entry of the list of queues does not parse. -/
  | badQueueWeight (name reason : String)
  /-- There is no file of a name. -/
  | missingFile (name : String)
  /-- A file is not readable as settings. -/
  | unreadableFile (detail : String)
  /-- Settings do not have the types of the fields. -/
  | mismatchedSettings (detail : String)
  /-- A problem in words. -/
  | stated (text : String)
  deriving DecidableEq

/-- The wording of a problem. -/
def ConfigProblem.message : ConfigProblem → String
  | .noWorkers => "Worker count must be greater than 0"
  | .noQueues => "At least one queue must be configured"
  | .weightlessQueue name => "Queue '" ++ name ++ "' must have a weight greater than 0"
  | .noCapacity => "Max queue size must be greater than 0"
  | .noTaskTime => "Task timeout must be greater than 0"
  | .claimTooShort => "Task timeout must be shorter than the visibility timeout"
  | .noPollInterval => "Poll interval must be greater than 0"
  | .retryDelays => "Retry base delay must not exceed the max delay"
  | .noDeadLetters => "Dead letter history must be greater than 0"
  | .jitterRange => "Retry jitter must be between 0.0 and 1.0"
  | .outlivesClaim taskTime claimTime =>
    "Task timeout " ++ taskTime.describe ++
      " must be shorter than the broker visibility timeout " ++ claimTime.describe
  | .badVariable name reason => "Invalid " ++ name ++ ": " ++ reason
  | .badQueueEntry entry => "Invalid QUEUES entry: " ++ entry
  | .badQueueWeight name reason => "Invalid weight for queue " ++ name ++ ": " ++ reason
  | .missingFile name =>
    "Failed to load config file: configuration file \"" ++ name ++ "\" not found"
  | .unreadableFile detail => "Failed to load config file: " ++ detail
  | .mismatchedSettings detail => "Failed to parse config: " ++ detail
  | .stated text => text

end WorkQueue
