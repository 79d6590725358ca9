import WorkQueue.Simulation.World

/-!
# Workers and handlers at work

A worker claims a task, starts its handler, waits for the handler, for the end of its time or for
the order to stop at once, makes its report, and begins anew.  A step takes one thread from where it
was woken to where it has to wait next.
-/

namespace WorkQueue.World

/-! ## Threads and timers -/

/-- Lets a thread go on, after those that can already. -/
def wake (w : World) (thread : Thread) : World :=
  if w.runnable.contains thread then w else { w with runnable := w.runnable ++ [thread] }

/-- Lets a worker go on before all others. -/
def goOn (w : World) (number : Nat) : World :=
  { w with runnable := .worker number :: w.runnable }

/-- Wakes a thread some milliseconds from now. -/
def startTimer (w : World) (thread : Thread) (millis : Nat) : World :=
  { w with timers := w.timers ++ [⟨w.elapsedMs + millis, thread⟩] }

/-- Forgets that a thread waits or can go on. -/
def forget (w : World) (thread : Thread) : World :=
  { w with
    timers := w.timers.filter fun timer => timer.thread ≠ thread
    runnable := w.runnable.filter fun other => other ≠ thread }

/-- Sets what a worker is doing. -/
def setPhase (w : World) (number : Nat) (phase : Phase) : World :=
  { w with workers := w.workers.set number phase }

/-- Tells the observers of an event. -/
def emit (w : World) (event : TaskEvent) : World :=
  { w with events := (event, w.elapsedMs) :: w.events }

/-! ## Handlers -/

/-- Where a handler stops: at its end, for some time, until it is told to stop, or while it
computes. -/
inductive Pause where
  | ended (ending : Ending)
  | sleeping (millis : Nat) (rest : Resumption)
  | awaitingCancel (rest : Resumption)
  | computing (millis : Nat) (rest : Procedure (Except HandlerError Unit))

/-- Runs the procedure of a handler up to where it stops; `cancelled` says whether it was told to
stop. -/
def drive (cancelled : Bool) (execution : Nat) :
    Procedure (Except HandlerError Unit) → World → Pause × World
  | .done result, w => (.ended (.returned result), w)
  | .crash message, w => (.ended (.crashed execution message), w)
  | .ask (.pause millis) next, w =>
    if millis = 0 then drive cancelled execution (next ()) w
    else (.sleeping millis (.run (next ())), w)
  | .ask (.compute millis) next, w =>
    if millis = 0 then drive cancelled execution (next ()) w
    else (.computing millis (next ()), w)
  | .ask .awaitCancel next, w =>
    if cancelled then drive cancelled execution (next ()) w
    else (.awaitingCancel (.run (next ())), w)
  | .ask request next, w =>
    let (fault, w) := w.beginRequest request
    if fault.delayMs = 0 then
      match w.attempt cancelled fault.failure request with
      | (.ok answer, w) => drive cancelled execution (next answer) w
      | (.error message, w) => (.ended (.crashed execution message), w)
    else (.sleeping fault.delayMs (.attempt fault.failure request next), w)

/-- Lets a handler go on. -/
def resume (cancelled : Bool) (execution : Nat) (rest : Resumption) (w : World) : Pause × World :=
  match rest with
  | .run procedure => drive cancelled execution procedure w
  | .attempt failure request next =>
    match w.attempt cancelled failure request with
    | (.ok answer, w) => drive cancelled execution (next answer) w
    | (.error message, w) => (.ended (.crashed execution message), w)

/-- The step of the handler of a worker. -/
def stepHandler (w : World) (number : Nat) : World :=
  match w.workers[number]? with
  | some (.executing task dueMs (.suspended rest _)) =>
    match resume w.cancelled w.executions rest w with
    | (.ended ending, w) =>
      (w.setPhase number (.executing task dueMs (.ended ending))).wake (.worker number)
    | (.sleeping millis rest, w) =>
      (w.setPhase number (.executing task dueMs (.suspended rest .time))).startTimer
        (.handler number) millis
    | (.awaitingCancel rest, w) =>
      w.setPhase number (.executing task dueMs (.suspended rest .cancel))
    | (.computing millis rest, w) =>
      (w.setPhase number (.executing task dueMs
        (.suspended (.run rest) (.computing (w.elapsedMs + millis))))).startTimer
        (.handler number) millis
  | _ => w

/-- A worker gives its handler up.  One that waits is gone; one that computes goes on until it has
to wait. -/
def giveUp (w : World) (number : Nat) : World :=
  match w.workers[number]? with
  | some (.executing task _ (.suspended (.run rest) (.computing untilMs))) =>
    let straggler := ⟨task, max untilMs w.elapsedMs, rest, none⟩
    { w with stragglers := w.stragglers ++ [straggler] }
  | _ => w

/-- Lets a handler that was given up go on.  Where it has to wait it is gone, and so is its
result. -/
def goOnStraggler (w : World) (straggler : Straggler) : World :=
  match drive (straggler.cancelled.getD w.cancelled) 0 straggler.rest w with
  | (.computing millis rest, w) =>
    let straggler := { straggler with untilMs := w.elapsedMs + millis, rest := rest }
    { w with stragglers := w.stragglers ++ [straggler] }
  | (_, w) => w

/-- Lets the handlers go on that were given up and have computed long enough. -/
def resumeStragglers (w : World) : World :=
  let due := w.stragglers.filter fun straggler => straggler.untilMs ≤ w.elapsedMs
  due.foldl goOnStraggler
    { w with stragglers := w.stragglers.filter fun straggler => w.elapsedMs < straggler.untilMs }

/-! ## Reports -/

/-- The operation of the broker that a report calls. -/
def reportOperation : Report → Operation
  | .complete => .ack
  | .reschedule _ _ => .retry
  | .fail _ => .deadLetter
  | .release => .release

/-- Runs the hook of the pool if a task failed for good; gives the message if it crashes. -/
def callHook (w : World) (pool : Pool) (record : Task) : Report → Option String × World
  | .fail error =>
    let (notes, crash) := pool.hook.run ⟨record, error⟩ w.hookCalls
    (crash, { w with hookCalls := notes })
  | _ => (none, w)

/-- Runs the hook of the pool if a task failed for good.  If it crashes, the crash is caught, and
the worker goes on as if it had not. -/
def notify (w : World) (pool : Pool) (record : Task) (report : Report) : World :=
  match w.callHook pool record report with
  | (none, w) => w
  | (some _, w) => w

/-- Makes the report of a worker under a failure.  An accepted report is followed by its event; a
refused one by nothing, because the claim is lost.  A worker that crashes is gone. -/
def makeReport (w : World) (pool : Pool) (number : Nat) (task : Task) (report : Report)
    (failure : Failure) : World :=
  match failure with
  | .crash _ => w.setPhase number .stopped
  | failure =>
    match queueFailure failure with
    | some _ => (w.setPhase number .ready).goOn number
    | none =>
      match report.perform w.broker task w.now with
      | (.crashed, broker) => { w with broker := broker }.setPhase number .stopped
      | (.error _, _) => (w.setPhase number .ready).goOn number
      | (.ok record, broker) =>
        ({ (w.setPhase number .ready).goOn number with broker := broker }.emit
          (report.event record)).notify pool record report

/-- Begins the report of a worker, which may be late. -/
def beginReport (w : World) (pool : Pool) (number : Nat) (task : Task) (report : Report) : World :=
  let (fault, w) := w.takeFault (reportOperation report)
  if fault.delayMs = 0 then w.makeReport pool number task report fault.failure
  else
    (w.setPhase number (.reporting task report fault.failure)).startTimer (.worker number)
      fault.delayMs

/-- Ends the execution of a task and begins the report on it. -/
def endExecution (w : World) (pool : Pool) (number : Nat) (task : Task) (ending : Ending) : World :=
  let w := ((w.giveUp number).forget (.worker number)).forget (.handler number)
  let (draw, generator) := w.generator.below (RetryPolicy.drawLimit + 1)
  let report := Report.ofResult pool.policy draw task (ending.result pool.taskTimeout)
  { w with generator := generator }.beginReport pool number task report

/-! ## Claims -/

/-- Lets a worker wait before it looks for a task again, unless it is to stop. -/
def poll (w : World) (pool : Pool) (number : Nat) : World :=
  if w.stopping then w.setPhase number .stopped
  else
    let millis := pool.pollInterval.millis
    (w.setPhase number (.polling (w.elapsedMs + millis))).startTimer (.worker number) millis

/-- Starts the handler of a claimed task, or reports that there is none. -/
def execute (w : World) (pool : Pool) (number : Nat) (task : Task) : World :=
  let w := w.emit (TaskEvent.ofTask task .running)
  match pool.registry.resolve? task.kind with
  | none => w.beginReport pool number task (.unregistered task)
  | some handler =>
    if w.cancelled then w.endExecution pool number task .interrupted
    else
      let rest := Resumption.run (handler (Delivery.ofTask task) task)
      let millis := pool.taskTimeout.millis
      let phase := Phase.executing task (w.elapsedMs + millis) (.suspended rest .time)
      (({ w with executions := w.executions + 1 }.setPhase number phase).wake
        (.handler number)).startTimer (.worker number) millis

/-- Claims a task for a worker under a failure. -/
def makeClaim (w : World) (pool : Pool) (number : Nat) (failure : Failure) : World :=
  match failure with
  | .crash _ => w.setPhase number .stopped
  | failure =>
    match queueFailure failure with
    | some _ => w.poll pool number
    | none =>
      match w.claim pool.weights with
      | (.ok task, w) => w.execute pool number task
      | (.error _, w) => w.poll pool number

/-- Begins the claim of a worker, which may be late. -/
def beginClaim (w : World) (pool : Pool) (number : Nat) : World :=
  let (fault, w) := w.takeFault .claim
  if fault.delayMs = 0 then w.makeClaim pool number fault.failure
  else
    (w.setPhase number (.claiming fault.failure)).startTimer (.worker number) fault.delayMs

/-! ## Steps -/

/-- The step of a worker. -/
def stepWorker (w : World) (pool : Pool) (number : Nat) : World :=
  match w.workers[number]? with
  | none => w
  | some .stopped => w
  | some .ready => if w.stopping then w.setPhase number .stopped else w.beginClaim pool number
  | some (.claiming failure) => w.makeClaim pool number failure
  | some (.polling dueMs) =>
    if w.stopping then (w.forget (.worker number)).setPhase number .stopped
    else if dueMs ≤ w.elapsedMs then w.beginClaim pool number
    else w
  | some (.reporting task report failure) => w.makeReport pool number task report failure
  | some (.executing task dueMs execution) =>
    if w.cancelled then w.endExecution pool number task .interrupted
    else
      match execution with
      | .ended ending => w.endExecution pool number task ending
      | .suspended _ _ =>
        if dueMs ≤ w.elapsedMs then w.endExecution pool number task .timedOut else w

/-- The step of a thread. -/
def step (w : World) (pool : Pool) : Thread → World
  | .worker number => w.stepWorker pool number
  | .handler number => w.stepHandler number

end WorkQueue.World
