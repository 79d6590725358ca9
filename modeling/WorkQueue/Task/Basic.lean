import WorkQueue.Text.Utf8
import WorkQueue.Time.Instant

/-!
# Tasks

A task is one unit of work as a broker stores it: a type that selects its handler, a payload that
only the handler understands, a queue, a budget of retries, and the traces of what happened to it.
The `mark` operations are the transitions of its life; each of them notes the time.

Retries are counted in 32 bits.  What becomes of a task that is retried when its count is at its end
depends on how the program was built: either whoever raises the count crashes, or it starts again
(`Overflow`).
-/

namespace WorkQueue

/-- The queue of tasks that name none. -/
def defaultQueue : String := "default"

/-- The queue of urgent tasks. -/
def criticalQueue : String := "critical"

/-- The stages of a task's life. -/
inductive TaskState where
  /-- Queued. -/
  | pending
  /-- Claimed by a worker. -/
  | running
  /-- Its handler succeeded. -/
  | completed
  /-- Its handler failed, and it is about to be queued again. -/
  | retrying
  /-- It failed for good. -/
  | failed
  deriving DecidableEq

namespace TaskState

/-- The stages in order. -/
def all : List TaskState :=
  [.pending, .running, .completed, .retrying, .failed]

/-- The name of a stage. -/
def name : TaskState → String
  | .pending => "Pending"
  | .running => "Running"
  | .completed => "Completed"
  | .retrying => "Retrying"
  | .failed => "Failed"

/-- The stage with a name. -/
def ofName? (name : String) : Option TaskState :=
  all.find? fun state => state.name == name

end TaskState

/-- What becomes of a count that is raised beyond its greatest number. -/
inductive Overflow where
  /-- Whoever raises it crashes, in a program that was built with checks. -/
  | crashes
  /-- It starts again at zero, in a program that was built without. -/
  | wraps
  deriving DecidableEq

/-- The greatest number of retries that can be counted. -/
def greatestCount : UInt32 := 4294967295

/-- One unit of work. -/
structure Task where
  /-- What tells the task from all others. -/
  id : String
  /-- The type, which selects the handler. -/
  kind : String
  /-- The encoded payload. -/
  payload : List UInt8
  /-- The queue it belongs to. -/
  queue : String
  /-- How often it may be retried. -/
  maxRetry : UInt32
  /-- How often it was retried. -/
  retryCount : UInt32
  /-- The earliest time at which it may be claimed. -/
  processAt : Option Instant
  /-- The stage of its life. -/
  state : TaskState
  /-- The error of the last failed attempt. -/
  lastError : Option String
  /-- The token of the claim that holds it; reports with another token are refused. -/
  lease : Option Nat
  createdAt : Instant
  updatedAt : Instant
  deriving DecidableEq

namespace Task

/-- A new task on the default queue, made at `now`. -/
def create (id kind : String) (payload : List UInt8) (maxRetry : UInt32) (now : Instant) :
    Task where
  id := id
  kind := kind
  payload := payload
  queue := defaultQueue
  maxRetry := maxRetry
  retryCount := 0
  processAt := none
  state := .pending
  lastError := none
  lease := none
  createdAt := now
  updatedAt := now

/-! ## Questions -/

/-- Whether the task may be claimed at `now`. -/
def isReadyAt (task : Task) (now : Instant) : Bool :=
  match task.processAt with
  | some time => decide (time ≤ now)
  | none => true

/-- Whether another failure would be followed by another attempt. -/
def canRetry (task : Task) : Bool :=
  decide (task.retryCount < task.maxRetry)

/-- The time by which the task is ordered in its queue: its own time, or that of its making. -/
def eligibleAt (task : Task) : Instant :=
  task.processAt.getD task.createdAt

/-- The number of the delivery that the task is on or waits for, counted from one. -/
def attempt (task : Task) : Nat :=
  task.retryCount.toNat + 1

/-- Whether whoever marks the task for another attempt crashes, because it cannot be counted. -/
def overflows (task : Task) (overflow : Overflow) : Bool :=
  decide (overflow = .crashes) && decide (task.retryCount = greatestCount)

/-- The payload shown as text. -/
def payloadText (task : Task) : String :=
  Text.Utf8.lossy task.payload

/-! ## Transitions -/

/-- The task once a worker holds it. -/
def markRunning (task : Task) (now : Instant) : Task :=
  { task with state := .running, updatedAt := now }

/-- The task once its handler has succeeded. -/
def markCompleted (task : Task) (now : Instant) : Task :=
  { task with state := .completed, updatedAt := now }

/-- The task after a failure that another attempt is to follow at `next`; a count that does not
crash at its end starts again. -/
def markRetrying (task : Task) (error : String) (next now : Instant) : Task :=
  { task with
    retryCount := task.retryCount + 1
    state := .retrying
    lastError := some error
    processAt := some next
    updatedAt := now }

/-- The task after a failure for good. -/
def markFailed (task : Task) (error : String) (now : Instant) : Task :=
  { task with state := .failed, lastError := some error, updatedAt := now }

/-- The task as it waits in its queue, held by no one. -/
def markPending (task : Task) (now : Instant) : Task :=
  { task with state := .pending, lease := none, updatedAt := now }

end Task

end WorkQueue
