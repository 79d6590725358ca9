import WorkQueue.Pool.Report
import WorkQueue.Registry

/-!
# Pools of workers

A pool is a number of workers that claim tasks from one broker and execute them with the handlers of
one registry.  It is accepted only if its configuration is valid and no handler can take longer than
a claim of the broker lasts.
-/

namespace WorkQueue

/-- A failure for good that a hook is told of. -/
structure HookCall where
  task : Task
  error : QueueError

/-- Code that a pool runs when a task failed for good.  It is told of the failure, may note what it
likes in place of its earlier notes, and may crash with a message. -/
structure ErrorHook where
  run : HookCall → List HookCall → List HookCall × Option String

namespace ErrorHook

/-- The hook that notes every failure. -/
def record : ErrorHook := ⟨fun call notes => (call :: notes, none)⟩

/-- The hook that notes nothing. -/
def log : ErrorHook := ⟨fun _ notes => (notes, none)⟩

/-- The hook that does nothing but crash. -/
def crash : ErrorHook := ⟨fun _ notes => (notes, some "hook exploded")⟩

end ErrorHook

/-- What the workers of a pool share. -/
structure Pool where
  workerCount : Nat
  weights : QueueWeights
  policy : RetryPolicy
  /-- The time that a handler has for a task. -/
  taskTimeout : Duration
  /-- The pause of a worker that found no task. -/
  pollInterval : Duration
  registry : Registry
  hook : ErrorHook

namespace Pool

/-- How long workers that were told to stop at once have for giving their claims back, in
milliseconds. -/
def cancelGraceMs : Nat := 250

/-- How many events an observer may be behind. -/
def eventCapacity : Nat := 1024

/-- Of a number of events that an observer is behind, those that it has lost and those that it can
still receive. -/
def backlog (behind : Nat) : Nat × Nat :=
  (behind - eventCapacity, min behind eventCapacity)

/-- The pool of a configuration over a broker and a registry. -/
def make (config : Config) (broker : Broker) (registry : Registry) (hook : ErrorHook) :
    Except QueueError Pool := do
  config.validate
  if broker.limits.visibilityTimeout ≤ config.taskTimeout then
    throw (.config (.outlivesClaim config.taskTimeout broker.limits.visibilityTimeout))
  return {
    workerCount := config.workerCount
    weights := config.queueWeights
    policy := config.retryPolicy
    taskTimeout := config.taskTimeout
    pollInterval := config.pollInterval
    registry := registry
    hook := hook }

end Pool

end WorkQueue
