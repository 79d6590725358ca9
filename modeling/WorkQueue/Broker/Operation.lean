import WorkQueue.Broker.Basic

/-!
# Operations of the broker

Submitting, claiming and the four reports on a claimed task: it is done, it is to be retried, it
failed for good, or it is given back.  Each operation is a function of the state and the time.  A
report counts only if it names the claim that holds the task; one that does not changes nothing.

A retry takes the claim off before it raises the count of retries.  If the count is at its end and
the program was built with checks, whoever reports crashes in between: the claim is gone then, and
the task with it.
-/

namespace WorkQueue.Broker

/-- The outcome of an operation, and the broker afterwards: an operation that fails changes
nothing. -/
def settle {α : Type} (broker : Broker) : Except QueueError (α × Broker) → Outcome α × Broker
  | .ok (result, next) => (.ok result, next)
  | .error error => (.error error, broker)

/-- Accepts a task that the broker does not hold, if its queue has room. -/
def enqueue (broker : Broker) (task : Task) (now : Instant) : Except QueueError Broker :=
  let size := (broker.entries task.queue).length
  if broker.holds task.id then .error (.enqueue (.alreadyQueued task.id))
  else if broker.limits.maxQueueSize ≤ size then .error (.enqueue (.queueFull task.queue size))
  else
    let task := task.markPending now
    .ok (broker.push task task.eligibleAt)

/-- Claims the first entry of a queue at `now`. -/
def claimFrom (broker : Broker) (queue : String) (now : Instant) :
    Except QueueError Task × Broker :=
  match broker.entries queue with
  | [] => (.error .queueEmpty, broker)
  | entry :: rest =>
    let token := broker.nextLease + 1
    let task := { entry.task.markRunning now with lease := some token }
    let lease : Lease := ⟨task, token, now.after broker.limits.visibilityTimeout⟩
    (.ok task,
      { broker with
        queues := Table.put queue rest broker.queues
        index := Table.erase task.id broker.index
        leases := Table.put task.id lease broker.leases
        nextLease := token })

/-- Claims a task that is due in one of the served queues.  Lapsed claims go back first.  The words
decide among several queues that have a task that is due; the result says which of them are left. -/
def claim (broker : Broker) (order : ReturnOrder) (weights : QueueWeights) (words : List UInt32)
    (now : Instant) : Except QueueError Task × Broker × List UInt32 :=
  let broker := broker.recover order now
  match weights.pick (broker.hasDue now) words with
  | (none, rest) => (.error .queueEmpty, broker, rest)
  | (some queue, rest) =>
    let (result, broker) := broker.claimFrom queue now
    (result, broker, rest)

/-- Reports that a task is done. -/
def ack (broker : Broker) (report : Task) (now : Instant) : Except QueueError Broker :=
  match broker.takeLease report with
  | .error error => .error error
  | .ok (task, broker) =>
    .ok { broker with
      completed :=
        keepLast broker.limits.completedHistory (broker.completed ++ [task.markCompleted now]) }

/-- Reports that a task failed and is to be tried again after a delay. -/
def retry (broker : Broker) (report : Task) (delay : Duration) (error : String) (now : Instant) :
    Outcome Task × Broker :=
  match broker.takeLease report with
  | .error error => (.error error, broker)
  | .ok (task, broker) =>
    let next := now.after delay
    if task.overflows broker.limits.overflow then (.crashed, broker)
    else
      let retrying := task.markRetrying error next now
      (.ok retrying, broker.push (retrying.markPending now) next)

/-- Reports that a task failed for good. -/
def deadLetter (broker : Broker) (report : Task) (error : String) (now : Instant) :
    Except QueueError (Task × Broker) :=
  match broker.takeLease report with
  | .error error => .error error
  | .ok (task, broker) =>
    let failed := task.markFailed error now
    .ok (failed,
      { broker with
        dead := keepLast broker.limits.deadLetterHistory (broker.dead ++ [failed]) })

/-- Gives a task back untouched. -/
def release (broker : Broker) (report : Task) (now : Instant) : Except QueueError Broker :=
  match broker.takeLease report with
  | .error error => .error error
  | .ok (task, broker) => .ok (broker.push (task.markPending now) now)

/-! ## Questions -/

/-- The numbers of tasks in the parts of a broker. -/
structure Stats where
  /-- Queued and due. -/
  pending : Nat
  /-- Queued for later. -/
  scheduled : Nat
  /-- Claimed. -/
  inFlight : Nat
  /-- Kept as completed. -/
  completed : Nat
  /-- Kept as failed for good. -/
  dead : Nat
  deriving DecidableEq

/-- How many tasks a queue holds. -/
def size (broker : Broker) (queue : String) : Nat :=
  (broker.entries queue).length

/-- All entries of all queues. -/
def allEntries (broker : Broker) : List QueueEntry :=
  broker.queues.flatMap (·.2)

/-- The numbers of tasks at `now`. -/
def stats (broker : Broker) (now : Instant) : Stats where
  pending := (broker.allEntries.filter fun entry => decide (entry.eligibleAt ≤ now)).length
  scheduled := (broker.allEntries.filter fun entry => !decide (entry.eligibleAt ≤ now)).length
  inFlight := broker.leases.length
  completed := broker.completed.length
  dead := broker.dead.length

/-- The queued task with an id. -/
def queued? (broker : Broker) (id : String) : Option Task := do
  let queue ← Table.get? id broker.index
  let entry ← (broker.entries queue).find? fun entry => entry.task.id == id
  return entry.task

/-- The record of a task: claimed, queued, failed for good or completed, in this order. -/
def get (broker : Broker) (id : String) : Except QueueError Task :=
  let found :=
    ((Table.get? id broker.leases).map (·.task)).or <|
      (broker.queued? id).or <|
        (broker.dead.find? fun task => task.id == id).or <|
          broker.completed.find? fun task => task.id == id
  match found with
  | some task => .ok task
  | none => .error (.taskNotFound id)

end WorkQueue.Broker
