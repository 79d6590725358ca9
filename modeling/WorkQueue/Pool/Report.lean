import WorkQueue.Broker.Operation
import WorkQueue.Text.Quoted

/-!
# Reports of workers

A worker makes one report on each task that it claimed.  This module holds the decisions that lead
from the end of an execution to the report, what the report does to the broker, and the event that
tells of it.
-/

namespace WorkQueue

/-- A change in the life of a task, as observers of a pool learn of it. -/
structure TaskEvent where
  taskId : String
  kind : String
  queue : String
  /-- The stage that the task has come to. -/
  state : TaskState
  retryCount : UInt32
  /-- The last error of the task. -/
  error : Option String
  deriving DecidableEq

/-- The event of a task coming to a stage. -/
def TaskEvent.ofTask (task : Task) (state : TaskState) : TaskEvent :=
  ⟨task.id, task.kind, task.queue, state, task.retryCount, task.lastError⟩

/-- The fields of an event as JSON. -/
def TaskEvent.fields (event : TaskEvent) : List (String × Json) :=
  [("task_id", .text event.taskId),
   ("task_type", .text event.kind),
   ("queue", .text event.queue),
   ("state", .text event.state.name),
   ("retry_count", .natural event.retryCount.toNat),
   ("error", .ofOption .text event.error)]

/-- How the execution of a task ended. -/
inductive Ending where
  /-- The handler returned. -/
  | returned (result : Except HandlerError Unit)
  /-- The handler crashed; executions are numbered. -/
  | crashed (execution : Nat) (message : String)
  /-- The handler took too long. -/
  | timedOut
  /-- The worker was told to stop at once. -/
  | interrupted

/-- The result that the end of an execution counts as; `limit` is the time that handlers have. -/
def Ending.result (limit : Duration) : Ending → Except HandlerError Unit
  | returned result => result
  | crashed execution message =>
    .error (.retry ("handler panicked: task " ++ toString execution ++ " panicked with message " ++
      Text.quote message))
  | timedOut => .error (.retry ("task timed out after " ++ limit.describe))
  | interrupted => .error .cancelled

/-- A report on a claimed task. -/
inductive Report where
  /-- The task is done. -/
  | complete
  /-- The task is to be tried again after a delay. -/
  | reschedule (delay : Duration) (error : String)
  /-- The task failed for good. -/
  | fail (error : QueueError)
  /-- The task is given back. -/
  | release
  deriving DecidableEq

namespace Report

/-- The report on a task whose type has no handler. -/
def unregistered (task : Task) : Report :=
  .fail (.unregisteredKind task.kind)

/-- The report on a task that was executed with a result; `draw` decides on the jitter. -/
def ofResult (policy : RetryPolicy) (draw : Nat) (task : Task) : Except HandlerError Unit → Report
  | .ok () => .complete
  | .error .cancelled => .release
  | .error (.skipRetry reason) => .fail (.skipRetry reason)
  | .error (.retry reason) =>
    if task.canRetry then .reschedule (policy.backoff task.retryCount.toNat draw) reason
    else .fail (.retriesExhausted task.retryCount.toNat reason)

/-- The stage that a task comes to by a report. -/
def state : Report → TaskState
  | complete => .completed
  | reschedule _ _ => .retrying
  | fail _ => .failed
  | release => .pending

/-- Makes a report on a task to a broker: the task as it is afterwards, and the broker. -/
def perform (report : Report) (broker : Broker) (task : Task) (now : Instant) :
    Outcome Task × Broker :=
  match report with
  | complete => broker.settle ((broker.ack task now).map (task.markCompleted now, ·))
  | reschedule delay error => broker.retry task delay error now
  | fail error => broker.settle (broker.deadLetter task error.message now)
  | release => broker.settle ((broker.release task now).map (task.markPending now, ·))

/-- The event of an accepted report, for the task as it is afterwards. -/
def event (report : Report) (record : Task) : TaskEvent :=
  TaskEvent.ofTask record report.state

end Report

end WorkQueue
