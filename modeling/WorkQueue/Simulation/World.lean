import WorkQueue.Pool.Basic
import WorkQueue.Random.Generator

/-!
# A deployment on a virtual clock

A world is a whole deployment: broker, store, mailer, and a pool of workers, on a clock that moves
only when nothing is left to do at its time.  Operations can be made to take time or to fail: a
fault is queued for an operation and strikes its next call.
-/

namespace WorkQueue

/-! ## Faults -/

/-- The operations that faults can strike. -/
inductive Operation where
  | enqueue
  | claim
  | ack
  | retry
  | deadLetter
  | release
  | getUser
  | createUser
  | createVerifyEmail
  | verifyEmail
  | send
  deriving DecidableEq

/-- What becomes of a call that a fault strikes. -/
inductive Failure where
  /-- It is only late. -/
  | none
  /-- The caller crashes with a message. -/
  | crash (message : String)
  /-- It fails with an error of the queue. -/
  | queue (error : QueueError)
  /-- It fails with an error of the store. -/
  | store (error : StoreError)
  /-- It fails with an error of the mailer. -/
  | mail (error : MailError)

/-- A fault: how late a call is, and what becomes of it. -/
structure Fault where
  delayMs : Nat
  failure : Failure

/-- No fault. -/
def Fault.none : Fault := ⟨0, .none⟩

/-! ## Workers -/

/-- A thread of control: a worker, or the handler that it runs. -/
inductive Thread where
  | worker (number : Nat)
  | handler (number : Nat)
  deriving DecidableEq

/-- A thread to be woken at a time. -/
structure Timer where
  dueMs : Nat
  thread : Thread
  deriving DecidableEq

/-- How a handler goes on: with a procedure, or with a request that was late. -/
inductive Resumption where
  | run (procedure : Procedure (Except HandlerError Unit))
  | attempt (failure : Failure) (request : Request)
      (next : request.Answer → Procedure (Except HandlerError Unit))

/-- What a handler at work is waiting for. -/
inductive Waiting where
  /-- A time, or the answer to a request that is late. -/
  | time
  /-- To be told to stop. -/
  | cancel
  /-- Its own computing, up to a time.  Nothing can stop it before. -/
  | computing (untilMs : Nat)

/-- A handler at work: it goes on when it is woken, or it has ended. -/
inductive Execution where
  | suspended (rest : Resumption) (waiting : Waiting)
  | ended (ending : Ending)

/-- A handler that was computing when its worker gave it up.  It goes on after that, up to where it
has to wait, and its result is lost. -/
structure Straggler where
  task : Task
  untilMs : Nat
  rest : Procedure (Except HandlerError Unit)
  /-- Whether it was told to stop; unknown while its worker's pool can still be told. -/
  cancelled : Option Bool

/-- A straggler of a pool that is started anew: what the pool is told from now on does not concern
it. -/
def Straggler.leave (cancelled : Bool) (straggler : Straggler) : Straggler :=
  { straggler with cancelled := some (straggler.cancelled.getD cancelled) }

/-- What a worker is doing. -/
inductive Phase where
  /-- It is about to claim a task. -/
  | ready
  /-- It waits for a claim that is late. -/
  | claiming (failure : Failure)
  /-- It found no task and waits. -/
  | polling (dueMs : Nat)
  /-- It waits for the handler of its task, at most until a time. -/
  | executing (task : Task) (dueMs : Nat) (execution : Execution)
  /-- It waits for a report that is late. -/
  | reporting (task : Task) (report : Report) (failure : Failure)
  /-- It has ended. -/
  | stopped

/-! ## The world -/

/-- A noted delivery to a scripted handler. -/
structure Visit where
  delivery : Delivery
  task : Task
  atMs : Nat

/-- A deployment at a moment. -/
structure World where
  /-- The time of the start, in milliseconds since 1970. -/
  startMs : Int
  /-- The milliseconds since the start. -/
  elapsedMs : Nat
  broker : Broker
  store : Store
  mailer : Mailer
  generator : Generator
  /-- The faults that wait for a call, oldest first. -/
  faults : List (Operation × Fault)
  /-- The tasks that the broker has accepted, in order. -/
  accepted : List Task
  /-- The random ids that were made. -/
  freshIds : List String
  /-- Those of them that were submitted, in order. -/
  submittedIds : List String
  /-- The secrets that handlers made, in order. -/
  secrets : List String
  /-- The pool, if there is one. -/
  pool : Option Pool
  /-- Whether the pool counts as running. -/
  running : Bool
  /-- Whether the workers were told to stop. -/
  stopping : Bool
  /-- Whether the workers were told to stop at once. -/
  cancelled : Bool
  workers : List Phase
  /-- The handlers that go on although their workers gave them up, in the order in which they
  did. -/
  stragglers : List Straggler
  /-- The threads that can go on, in the order in which they will. -/
  runnable : List Thread
  /-- The threads that wait for a time, in the order in which they began to. -/
  timers : List Timer
  /-- How many handlers were started. -/
  executions : Nat
  /-- The events, newest first, with their times. -/
  events : List (TaskEvent × Nat)
  /-- The noted deliveries, newest first. -/
  visits : List Visit
  /-- How many of them came from pools before this one. -/
  earlierVisits : Nat
  /-- What the hook has noted, newest first. -/
  hookCalls : List HookCall

namespace World

/-- A deployment without tasks, accounts and pool. -/
def start (startMs : Int) (broker : Broker) (store : Store) (mailer : Mailer) : World where
  startMs := startMs
  elapsedMs := 0
  broker := broker
  store := store
  mailer := mailer
  generator := Generator.ofSeed 1
  faults := []
  accepted := []
  freshIds := []
  submittedIds := []
  secrets := []
  pool := none
  running := false
  stopping := false
  cancelled := false
  workers := []
  stragglers := []
  runnable := []
  timers := []
  executions := 0
  events := []
  visits := []
  earlierVisits := 0
  hookCalls := []

/-- The time. -/
def now (w : World) : Instant :=
  Instant.ofMillis (w.startMs + w.elapsedMs)

/-- Puts a pool in the place of the one that was there, if there was one. -/
def setPool (w : World) (pool : Pool) : World :=
  { w with pool := some pool, running := false, earlierVisits := w.visits.length }

/-- Queues a fault for an operation. -/
def addFault (w : World) (operation : Operation) (fault : Fault) : World :=
  { w with faults := w.faults ++ [(operation, fault)] }

/-- The oldest fault for an operation. -/
def takeFault (w : World) (operation : Operation) : Fault × World :=
  match w.faults.find? fun entry => entry.1 = operation with
  | none => (.none, w)
  | some (_, fault) =>
    (fault, { w with faults := w.faults.eraseP fun entry => entry.1 = operation })

/-- A new random id. -/
def freshId (w : World) : String × World :=
  let (id, generator) := w.generator.uuid
  (id, { w with generator := generator, freshIds := id :: w.freshIds })

/-- Random words for the choice of a queue. -/
def words (w : World) : List UInt32 × World :=
  let (words, generator) := w.generator.halves 16
  (words, { w with generator := generator })

/-! ## Operations -/

/-- The result of an operation of the broker, with the broker as it is afterwards. -/
def settle {α : Type} (w : World) :
    Except QueueError (α × Broker) → Except QueueError α × World
  | .ok (result, broker) => (.ok result, { w with broker := broker })
  | .error error => (.error error, w)

/-- Hands a task to the broker. -/
def enqueue (w : World) (task : Task) : Except QueueError Unit × World :=
  match w.broker.enqueue task w.now with
  | .ok broker => (.ok (), { w with broker := broker, accepted := w.accepted ++ [task] })
  | .error error => (.error error, w)

/-- Claims a task from the broker. -/
def claim (w : World) (weights : QueueWeights) : Except QueueError Task × World :=
  let (words, w) := w.words
  let (result, broker, _) := w.broker.claim .listed weights words w.now
  (result, { w with broker := broker })

/-- Reports to the broker that a task is done. -/
def ack (w : World) (task : Task) : Except QueueError Unit × World :=
  w.settle ((w.broker.ack task w.now).map ((), ·))

/-- Reports to the broker that a task is to be tried again after a delay.  A crash is shown to the
code outside the pool as an error that says so. -/
def retry (w : World) (task : Task) (delay : Duration) (error : String) :
    Except QueueError Task × World :=
  let (outcome, broker) := w.broker.retry task delay error w.now
  let w := { w with broker := broker }
  match outcome with
  | .ok task => (.ok task, w)
  | .error error => (.error error, w)
  | .crashed => (.error (.workerPool (.stated "attempt to add with overflow")), w)

/-- Reports to the broker that a task failed for good. -/
def deadLetter (w : World) (task : Task) (error : String) : Except QueueError Task × World :=
  w.settle (w.broker.deadLetter task error w.now)

/-- Gives a task back to the broker. -/
def release (w : World) (task : Task) : Except QueueError Unit × World :=
  w.settle ((w.broker.release task w.now).map ((), ·))

/-- The error of the queue that a failure stands for. -/
def queueFailure : Failure → Option QueueError
  | .queue error => some error
  | _ => none

/-- Notes the id of a task that is about to be submitted, if the id was made at random. -/
def noteSubmission (w : World) (id : String) : World :=
  if w.freshIds.contains id && !w.submittedIds.contains id then
    { w with submittedIds := w.submittedIds ++ [id] }
  else w

/-- Notes a delivery, and says how many there were of this task and type to this pool before. -/
def noteVisit (w : World) (delivery : Delivery) (task : Task) : Nat × World :=
  let before := (w.visits.take (w.visits.length - w.earlierVisits)).filter fun visit =>
    visit.delivery.taskId == delivery.taskId && visit.delivery.kind == delivery.kind
  (before.length, { w with visits := ⟨delivery, task, w.elapsedMs⟩ :: w.visits })

end World

namespace Request

/-- The operation that a request calls, if faults can strike it. -/
def operation? : Request → Option Operation
  | getUser _ => some .getUser
  | createUser _ => some .createUser
  | createVerifyEmail _ => some .createVerifyEmail
  | verifyEmail _ _ => some .verifyEmail
  | enqueue _ => some .enqueue
  | send _ => some .send
  | _ => none

/-- The answer to a request that a failure strikes. -/
def failed? : (request : Request) → Failure → Option request.Answer
  | getUser _, .store error => some (.error error)
  | createUser _, .store error => some (.error error)
  | createVerifyEmail _, .store error => some (.error error)
  | verifyEmail _ _, .store error => some (.error error)
  | enqueue _, .queue error => some (.error error)
  | send _, .mail error => some (.error error)
  | _, _ => none

end Request

namespace World

/-- What is noted of a request when it is made. -/
def note (w : World) : Request → World
  | .enqueue task => w.noteSubmission task.id
  | .createVerifyEmail params => { w with secrets := w.secrets ++ [params.secretCode] }
  | _ => w

/-- Notes a request and takes the fault for it. -/
def beginRequest (w : World) (request : Request) : Fault × World :=
  let w := w.note request
  match request.operation? with
  | some operation => w.takeFault operation
  | none => (.none, w)

/-- Carries a request out; `cancelled` says whether its procedure is to stop. -/
def perform (w : World) (cancelled : Bool) : (request : Request) → request.Answer × World
  | .visit delivery task => w.noteVisit delivery task
  | .clock => (w.now, w)
  | .freshId => w.freshId
  | .secret length =>
    let (secretCode, generator) := w.generator.secret length
    (secretCode, { w with generator := generator })
  | .cancelled => (cancelled, w)
  | .pause _ => ((), w)
  | .compute _ => ((), w)
  | .awaitCancel => ((), w)
  | .getUser username => (w.store.getUser username, w)
  | .createUser params =>
    match w.store.createUser params w.now with
    | .ok (user, store) => (.ok user, { w with store := store })
    | .error error => (.error error, w)
  | .createVerifyEmail params =>
    match w.store.createVerifyEmail params w.now with
    | .ok (record, store) => (.ok record, { w with store := store })
    | .error error => (.error error, w)
  | .verifyEmail id secretCode =>
    match w.store.verifyEmail id secretCode w.now with
    | .ok (user, store) => (.ok user, { w with store := store })
    | .error error => (.error error, w)
  | .enqueue task => w.enqueue task
  | .send email =>
    match w.mailer.send email with
    | .ok mailer => (.ok (), { w with mailer := mailer })
    | .error error => (.error error, w)

/-- The message of the crash of whoever makes a request that would be carried out, if any. -/
def crash? (w : World) : Request → Option String
  | .createVerifyEmail params =>
    if w.store.crashes params w.now then some Store.crashMessage else none
  | _ => none

/-- Carries a request out under a failure; of a crash only its message comes back. -/
def attempt (w : World) (cancelled : Bool) (failure : Failure) (request : Request) :
    Except String request.Answer × World :=
  match failure with
  | .crash message => (.error message, w)
  | failure =>
    match request.failed? failure with
    | some answer => (.ok answer, w)
    | none =>
      match w.crash? request with
      | some message => (.error message, w)
      | none =>
        let (answer, w) := w.perform cancelled request
        (.ok answer, w)

end World

end WorkQueue
