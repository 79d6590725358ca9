import WorkQueue.Simulation.Worker

/-!
# Running a deployment

Time passes for a deployment only while something outside waits: for a time to come, or for the
workers to stop.  Meanwhile every thread that can go on does; when none can, the clock moves to the
next time that a thread or the one who waits is waiting for.  The one who waits goes on first.

A pool that was told to stop comes to an end by itself, in a number of steps that can be told
beforehand (`stepsUntil`).
-/

namespace WorkQueue

/-! ## How many steps are left -/

/-- How many steps a thread can lead to in some milliseconds, at most, when the workers were told to
stop: a handler can be woken once in a millisecond, and a worker goes on only to its end. -/
def Thread.steps (leftMs : Nat) : Thread → Nat
  | .worker _ => 1
  | .handler _ => 2 * leftMs + 3

/-- How many steps more a worker can cause by what it is doing. -/
def Phase.steps (leftMs : Nat) : Phase → Nat
  | .claiming _ => 3 * leftMs + 9
  | .executing _ _ _ => leftMs + 4
  | .reporting _ _ _ => 1
  | _ => 0

/-- How often a handler that was given up can go on in some milliseconds, at most. -/
def Straggler.turns (leftMs : Nat) : Nat := leftMs + 1

/-- How many steps the items of a list lead to together. -/
def totalSteps {α : Type} (steps : α → Nat) (items : List α) : Nat :=
  items.foldr (fun item total => steps item + total) 0

namespace World

/-- How many steps the threads and the stragglers can take until a time, at most, when the workers
were told to stop. -/
def stepsUntil (w : World) (deadlineMs : Nat) : Nat :=
  totalSteps (·.steps (deadlineMs - w.elapsedMs)) w.runnable +
    totalSteps (fun timer => timer.thread.steps (deadlineMs - max timer.dueMs w.elapsedMs) + 1)
      w.timers +
    totalSteps (·.steps (deadlineMs - w.elapsedMs)) w.workers +
    totalSteps (fun straggler => Straggler.turns (deadlineMs - max straggler.untilMs w.elapsedMs))
      w.stragglers

/-! ## Letting time pass -/

/-- How many steps a wait for a time may take at most. -/
def stepLimit : Nat := Nat.pow 2 60

/-- The first time that a thread waits for, or that a straggler computes to. -/
def nextDue (w : World) : Option Nat :=
  (w.timers.map (·.dueMs) ++
    w.stragglers.map fun straggler => max straggler.untilMs w.elapsedMs).min?

/-- The clock moved to a time, with the threads woken that waited for it, in the order of their
waiting. -/
def moveTo (w : World) (timeMs : Nat) : World :=
  let due := w.timers.filter fun timer => timer.dueMs ≤ timeMs
  let w := { w with
    elapsedMs := timeMs
    timers := w.timers.filter fun timer => timeMs < timer.dueMs }
  due.foldl (fun w timer => w.wake timer.thread) w

/-- Lets time pass until a time or until a goal is reached, whichever is first. -/
def runUntil (pool : Pool) (deadlineMs : Nat) (goal : World → Bool) : Nat → World → World
  | 0, w => w
  | fuel + 1, w =>
    if deadlineMs ≤ w.elapsedMs then w
    else
      match w.runnable with
      | thread :: rest =>
        runUntil pool deadlineMs goal fuel ({ w with runnable := rest }.step pool thread)
      | [] =>
        if goal w then w
        else
          let timeMs := min deadlineMs (w.nextDue.getD deadlineMs)
          runUntil pool deadlineMs goal fuel (w.moveTo timeMs).resumeStragglers

/-- Lets some time pass. -/
def wait (w : World) (millis : Nat) : World :=
  match w.pool with
  | some pool => runUntil pool (w.elapsedMs + millis) (fun _ => false) stepLimit w
  | none => { w with elapsedMs := w.elapsedMs + millis }

/-! ## Starting and stopping -/

/-- Starts the workers of the pool. -/
def startPool (w : World) (pool : Pool) : Except QueueError World :=
  if w.running then .error (.workerPool .alreadyRunning)
  else
    .ok { w with
      running := decide (0 < pool.workerCount)
      stopping := false
      cancelled := false
      workers := List.replicate pool.workerCount .ready
      stragglers := w.stragglers.map (·.leave w.cancelled)
      runnable := (List.range pool.workerCount).map .worker
      timers := [] }

/-- Whether a worker has stopped. -/
def hasStopped : Phase → Bool
  | .stopped => true
  | _ => false

/-- Whether all workers have stopped. -/
def allStopped (w : World) : Bool :=
  w.workers.all hasStopped

/-- Wakes the workers of a kind. -/
def wakeWorkers (w : World) (which : Phase → Bool) : World :=
  (List.range w.workers.length).foldl
    (fun (w : World) number =>
      match w.workers[number]? with
      | some phase => if which phase then w.wake (.worker number) else w
      | none => w) w

/-- Wakes the handlers that wait to be told to stop. -/
def wakeHandlers (w : World) : World :=
  (List.range w.workers.length).foldl
    (fun (w : World) number =>
      match w.workers[number]? with
      | some (Phase.executing _ _ (.suspended _ .cancel)) => w.wake (.handler number)
      | _ => w) w

/-- Whether a worker waits before it looks for a task again. -/
def isPolling : Phase → Bool
  | .polling _ => true
  | _ => false

/-- Whether a worker waits for its handler. -/
def isExecuting : Phase → Bool
  | .executing _ _ _ => true
  | _ => false

/-- Tells the workers to stop when they have reported on their tasks. -/
def orderStop (w : World) : World :=
  { w with stopping := true }.wakeWorkers isPolling

/-- Tells the workers to stop at once and give their tasks back. -/
def orderCancel (w : World) : World :=
  ({ w with cancelled := true }.wakeHandlers).wakeWorkers isExecuting

/-- Lets time pass until all workers have stopped, which they were told to, or until a time. -/
def awaitStop (w : World) (pool : Pool) (deadlineMs : Nat) : World :=
  runUntil pool deadlineMs allStopped (w.stepsUntil deadlineMs + 1) w

/-- Stops the workers where they are, if they have not stopped. -/
def halt (w : World) : World :=
  { w with running := false, workers := [], runnable := [], timers := [] }

/-- Tells the workers that have not stopped to do so at once, and gives them a short time to give
their tasks back.  Workers that take longer are stopped where they are. -/
def cancelRest (w : World) (pool : Pool) : Except QueueError Unit × World :=
  let w := w.orderCancel.awaitStop pool (w.elapsedMs + Pool.cancelGraceMs)
  (.error (.workerPool .shutdownTimeout), w.halt)

/-- Stops the pool: its workers have some milliseconds to finish their tasks, and those that have
not stopped by then are told to stop at once. -/
def shutdown (w : World) (pool : Pool) (graceMs : Nat) : Except QueueError Unit × World :=
  let w := w.orderStop.awaitStop pool (w.elapsedMs + graceMs)
  if w.allStopped then (.ok (), w.halt) else w.cancelRest pool

/-- Whether the clock that deadlines are read from, which counts less than `2 ^ 63` seconds, can
hold the deadline some time after a reading. -/
def holdsDeadline (reading wait : Duration) : Bool :=
  decide ((reading.nanos + wait.nanos) / nanosPerSecond < Nat.pow 2 63)

/-- Stops the pool with a grace of any length, on a clock at a reading.  Where the clock cannot hold
a deadline, the caller crashes: after the workers were told to stop, when the pool still counts as
running, or after they were told to stop at once, when it does not any more. -/
def shutdownWithin (w : World) (pool : Pool) (reading grace : Duration) : Outcome Unit × World :=
  if holdsDeadline reading grace then
    let w := w.orderStop.awaitStop pool (w.elapsedMs + grace.millis)
    if w.allStopped then (.ok (), w.halt)
    else if holdsDeadline (.ofNanos (reading.nanos + grace.nanos))
        (.ofMillis Pool.cancelGraceMs) then
      let (result, w) := w.cancelRest pool
      (.ofExcept result, w)
    else (.crashed, { w.orderCancel with running := false })
  else (.crashed, w.orderStop)

/-! ## Code outside the pool -/

/-- Carries out a procedure, waiting where it has to; of a crash only its message comes back.
`cancelled` says whether the procedure is to stop. -/
def run {α : Type} (cancelled : Bool) : Procedure α → World → Except String α × World
  | .done result, w => (.ok result, w)
  | .crash message, w => (.error message, w)
  | .ask (.pause millis) next, w => run cancelled (next ()) (w.wait millis)
  | .ask (.compute millis) next, w => run cancelled (next ()) (w.wait millis)
  | .ask .awaitCancel next, w => run cancelled (next ()) w
  | .ask request next, w =>
    let (fault, w) := w.beginRequest request
    let w := if fault.delayMs = 0 then w else w.wait fault.delayMs
    match w.attempt cancelled fault.failure request with
    | (.ok answer, w) => run cancelled (next answer) w
    | (.error message, w) => (.error message, w)

/-- Calls an operation of the broker, which may be late or fail. -/
def call {α : Type} (w : World) (operation : Operation)
    (act : World → Except QueueError α × World) : Except QueueError α × World :=
  let (fault, w) := w.takeFault operation
  let w := if fault.delayMs = 0 then w else w.wait fault.delayMs
  match queueFailure fault.failure with
  | some error => (.error error, w)
  | none => act w

/-- Claims tasks and reports them as done until no more can be claimed, but at most `count` of them;
gives the claimed tasks in order. -/
def drain (weights : QueueWeights) : (count : Nat) → World → List Task × World
  | 0, w => ([], w)
  | count + 1, w =>
    match w.call .claim (·.claim weights) with
    | (.error _, w) => ([], w)
    | (.ok task, w) =>
      let (_, w) := w.call .ack (·.ack task)
      let (rest, w) := drain weights count w
      (task :: rest, w)

end World
end WorkQueue
