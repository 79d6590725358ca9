import WorkQueue.Config.Basic
import WorkQueue.Task.Basic

/-!
# Broker

The broker holds every task that was accepted and is not finished: in a queue, ordered by the time
from which it may be claimed and then by arrival, or under a claim, which lapses after a while.
Finished tasks stay for a while in two histories.  This module holds the state and the moves that
the operations are made of; the operations are in `WorkQueue.Broker.Operation`.
-/

namespace WorkQueue

/-- A task in a queue. -/
structure QueueEntry where
  task : Task
  /-- The time from which the task may be claimed. -/
  eligibleAt : Instant
  /-- The number of the arrival. -/
  sequence : Nat
  deriving DecidableEq

/-- A claim on a task. -/
structure Lease where
  task : Task
  /-- The number of the claim, which reports must name. -/
  token : Nat
  /-- The time from which the claim counts no more. -/
  expiresAt : Instant
  deriving DecidableEq

/-- The limits of a broker, its own and those of the words that it counts in. -/
structure BrokerLimits where
  /-- How many tasks a queue may hold when another is submitted. -/
  maxQueueSize : Nat
  /-- The time after which a claim lapses. -/
  visibilityTimeout : Duration
  /-- How many completed tasks are kept. -/
  completedHistory : Nat
  /-- How many tasks that failed for good are kept. -/
  deadLetterHistory : Nat
  /-- What becomes of a count of retries at its end. -/
  overflow : Overflow
  deriving DecidableEq

/-- The limits of a configuration, in a program that was built without checks. -/
def BrokerLimits.ofConfig (config : Config) : BrokerLimits where
  maxQueueSize := config.maxQueueSize
  visibilityTimeout := config.visibilityTimeout
  completedHistory := config.completedHistory
  deadLetterHistory := config.deadLetterHistory
  overflow := .wraps

/-- The state of a broker. -/
structure Broker where
  limits : BrokerLimits
  /-- The entries of each queue, the next one first. -/
  queues : Table (List QueueEntry)
  /-- The queue of each queued task, by id. -/
  index : Table String
  /-- The claim on each claimed task, by id. -/
  leases : Table Lease
  /-- The tasks that were completed, oldest first. -/
  completed : List Task
  /-- The tasks that failed for good, oldest first. -/
  dead : List Task
  /-- The number of the next arrival. -/
  sequence : Nat
  /-- The number of claims so far. -/
  nextLease : Nat

/-- What a call of an operation comes to for its caller. -/
inductive Outcome (α : Type) where
  /-- The operation gives a result. -/
  | ok (result : α)
  /-- It fails. -/
  | error (error : QueueError)
  /-- The caller crashes in the middle of it. -/
  | crashed
  deriving DecidableEq

namespace Outcome

variable {α β : Type}

/-- An outcome with its result changed. -/
def map (f : α → β) : Outcome α → Outcome β
  | ok result => ok (f result)
  | error cause => error cause
  | crashed => crashed

/-- The outcome of an operation in which nobody crashes. -/
def ofExcept : Except QueueError α → Outcome α
  | .ok result => ok result
  | .error cause => error cause

end Outcome

namespace QueueEntry

/-- Whether an entry comes before another: by time, then by arrival. -/
def before (a b : QueueEntry) : Bool :=
  decide (a.eligibleAt < b.eligibleAt) ||
    (decide (a.eligibleAt.rank = b.eligibleAt.rank) && decide (a.sequence < b.sequence))

/-- Puts an entry into a queue, behind every entry that it does not come before. -/
def insert (entry : QueueEntry) : List QueueEntry → List QueueEntry
  | [] => [entry]
  | other :: rest =>
    if entry.before other then entry :: other :: rest else other :: insert entry rest

end QueueEntry

namespace Broker

/-- A broker without tasks. -/
def empty (limits : BrokerLimits) : Broker where
  limits := limits
  queues := []
  index := []
  leases := []
  completed := []
  dead := []
  sequence := 0
  nextLease := 0

/-- The entries of a queue. -/
def entries (broker : Broker) (queue : String) : List QueueEntry :=
  (Table.get? queue broker.queues).getD []

/-- Whether the first entry of a queue may be claimed at `now`. -/
def hasDue (broker : Broker) (now : Instant) (queue : String) : Bool :=
  match broker.entries queue with
  | [] => false
  | entry :: _ => decide (entry.eligibleAt ≤ now)

/-- Whether a task is queued or claimed. -/
def holds (broker : Broker) (id : String) : Bool :=
  Table.has id broker.index || Table.has id broker.leases

/-- Puts a task into its queue, to be claimed from `eligibleAt` on. -/
def push (broker : Broker) (task : Task) (eligibleAt : Instant) : Broker :=
  let entry : QueueEntry := ⟨task, eligibleAt, broker.sequence⟩
  { broker with
    queues := Table.put task.queue (entry.insert (broker.entries task.queue)) broker.queues
    index := Table.put task.id task.queue broker.index
    sequence := broker.sequence + 1 }

/-- Takes the claim that a report names off the broker: the claim on the task's id, if its token is
the task's. -/
def takeLease (broker : Broker) (report : Task) : Except QueueError (Task × Broker) :=
  match Table.get? report.id broker.leases with
  | some lease =>
    if report.lease = some lease.token then
      .ok (lease.task, { broker with leases := Table.erase report.id broker.leases })
    else .error (.taskNotFound report.id)
  | none => .error (.taskNotFound report.id)

/-! ## Lapsed claims -/

/-- The claims that have lapsed at `now`. -/
def lapsed (broker : Broker) (now : Instant) : List Lease :=
  (broker.leases.map (·.2)).filter fun lease => decide (lease.expiresAt ≤ now)

/-- An order in which claims that have lapsed together go back: a rearrangement of their list. -/
structure ReturnOrder where
  arrange : List Lease → List Lease
  perm : ∀ leases, (arrange leases).Perm leases

/-- The order in which the claims are listed. -/
def ReturnOrder.listed : ReturnOrder := ⟨id, fun _ => List.Perm.refl _⟩

/-- Puts the task of a lapsed claim back into its queue at `now`. -/
def giveBack (now : Instant) (broker : Broker) (lease : Lease) : Broker :=
  { broker with leases := Table.erase lease.task.id broker.leases }.push
    (lease.task.markPending now) now

/-- Puts the tasks of all lapsed claims back. -/
def recover (broker : Broker) (order : ReturnOrder) (now : Instant) : Broker :=
  (order.arrange (broker.lapsed now)).foldl (giveBack now) broker

/-- The last `count` of a list. -/
def keepLast {α : Type} (count : Nat) (items : List α) : List α :=
  items.drop (items.length - count)

end Broker

end WorkQueue
