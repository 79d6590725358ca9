import WorkQueue.Task.Basic

/-!
# Options of a submission

Whoever submits a task may name its queue, its budget of retries and the earliest time of its
delivery.  What is left open is filled in from defaults.
-/

namespace WorkQueue

/-- The choices of a submission. -/
structure TaskOptions where
  queue : Option String
  maxRetry : Option UInt32
  processAt : Option Instant
  deriving DecidableEq

namespace TaskOptions

/-- Nothing chosen. -/
def empty : TaskOptions := ⟨none, none, none⟩

/-- The options with a queue. -/
def onQueue (options : TaskOptions) (queue : String) : TaskOptions :=
  { options with queue := some queue }

/-- The options with a budget of retries. -/
def withMaxRetry (options : TaskOptions) (maxRetry : UInt32) : TaskOptions :=
  { options with maxRetry := some maxRetry }

/-- The options with an earliest time of delivery. -/
def notBefore (options : TaskOptions) (time : Instant) : TaskOptions :=
  { options with processAt := some time }

/-- The options with a delay before delivery, counted from `now`. -/
def delayedBy (options : TaskOptions) (delay : Duration) (now : Instant) : TaskOptions :=
  options.notBefore (now.after delay)

end TaskOptions

/-- A new task with options, made at `now`. -/
def Task.withOptions (id kind : String) (payload : List UInt8) (options : TaskOptions)
    (defaultMaxRetry : UInt32) (now : Instant) : Task :=
  { Task.create id kind payload (options.maxRetry.getD defaultMaxRetry) now with
    queue := options.queue.getD defaultQueue
    processAt := options.processAt }

end WorkQueue
