import WorkQueue.Config.Problem
import WorkQueue.Json.Reader

/-!
# Errors

What can go wrong between a submission and the end of a task, by cause: errors of the queue
(`QueueError`), and what a handler says about its failure (`HandlerError`).  Each has its wording in
one function.
-/

namespace WorkQueue

/-- Why a broker or a distributor refuses a task. -/
inductive Refusal where
  /-- A task of this id is held already. -/
  | alreadyQueued (id : String)
  /-- The queue is full. -/
  | queueFull (queue : String) (size : Nat)
  /-- The type of the task is blank. -/
  | blankKind
  /-- The name of the queue is blank. -/
  | blankQueue
  /-- A reason in words. -/
  | stated (reason : String)
  deriving DecidableEq

/-- The wording of a refusal. -/
def Refusal.message : Refusal → String
  | .alreadyQueued id => "task " ++ id ++ " is already queued"
  | .queueFull queue size => "queue " ++ queue ++ " is full (" ++ toString size ++ " tasks)"
  | .blankKind => "task type must not be empty"
  | .blankQueue => "queue name must not be empty"
  | .stated reason => reason

/-- What is wrong with a pool of workers. -/
inductive PoolProblem where
  /-- The pool was started before. -/
  | alreadyRunning
  /-- Workers were still busy when the time for stopping ran out. -/
  | shutdownTimeout
  /-- A problem in words. -/
  | stated (text : String)
  deriving DecidableEq

/-- The wording of a problem of a pool. -/
def PoolProblem.message : PoolProblem → String
  | .alreadyRunning => "Worker pool already running"
  | .shutdownTimeout => "Shutdown timeout exceeded"
  | .stated text => text

/-- An error of the queue. -/
inductive QueueError where
  /-- A payload could not be encoded or decoded. -/
  | encoding (fault : Json.Fault)
  /-- A submission was refused. -/
  | enqueue (refusal : Refusal)
  /-- No handler is registered for the type of the task. -/
  | unregisteredKind (kind : String)
  /-- The handler said that the failure is for good. -/
  | skipRetry (reason : String)
  /-- The task kept failing until its budget was spent. -/
  | retriesExhausted (retries : Nat) (reason : String)
  /-- Two handlers were registered for one type. -/
  | duplicateHandler (kind : String)
  /-- No served queue has a task that is due. -/
  | queueEmpty
  /-- The broker does not hold the task, or not under this claim. -/
  | taskNotFound (id : String)
  /-- Something is wrong with a pool. -/
  | workerPool (problem : PoolProblem)
  /-- Something is wrong with a configuration. -/
  | config (problem : ConfigProblem)
  deriving DecidableEq

namespace QueueError

/-- The detail of an encoding error. -/
def faultDetail : Json.Fault → String
  | .data => "data of the wrong shape"
  | .malformed => "malformed data"
  | .truncated => "data ends early"

/-- The wording of an error. -/
def message : QueueError → String
  | encoding fault => "Serialization error: " ++ faultDetail fault
  | enqueue refusal => "Enqueue error: " ++ refusal.message
  | unregisteredKind kind => "No handler registered for task type: " ++ kind
  | skipRetry reason => "Task failed without retry: " ++ reason
  | retriesExhausted retries reason =>
    "Task failed after " ++ toString retries ++ " retries: " ++ reason
  | duplicateHandler kind => "Handler already registered for task type: " ++ kind
  | queueEmpty => "Queue is empty"
  | taskNotFound id => "Task not found: " ++ id
  | workerPool problem => "Worker pool error: " ++ problem.message
  | config problem => "Configuration error: " ++ problem.message

/-- Whether the error ends the life of a task. -/
def isTerminal : QueueError → Bool
  | unregisteredKind _ => true
  | skipRetry _ => true
  | retriesExhausted _ _ => true
  | _ => false

end QueueError

/-- What a handler says about its failure. -/
inductive HandlerError where
  /-- Trying again later may help. -/
  | retry (reason : String)
  /-- Trying again cannot help. -/
  | skipRetry (reason : String)
  /-- The handler was told to stop. -/
  | cancelled
  deriving DecidableEq

/-- The wording of a handler's error. -/
def HandlerError.message : HandlerError → String
  | .retry reason => reason
  | .skipRetry reason => reason
  | .cancelled => "task execution cancelled"

end WorkQueue
