import WorkQueue.Proofs.Fleet.Shift
import WorkQueue.Simulation.Run

/-!
# Deployments

When a shift shows a deployment on a virtual clock (`Deployed`): they have the same broker, they
have accepted the same tasks, they have the same time, and the workers have the same tasks in hand.
Most of what happens in a deployment does not concern that.  `Unmoved` says so of a change, `Apart`
says in addition that no thread is concerned; `Handled` is what a handler or a client can do, also a
handler that its worker gave up, and `Wakes` how a signal reaches the workers.

Faults can make a worker late or crash it, and the flag `crashes` says whether that is allowed;
where it is not, faults strike handlers and clients only.
-/

namespace WorkQueue

open Broker

/-! ## What the workers of a deployment have in hand -/

/-- The task that a worker has in hand. -/
def Phase.task? : Phase → Option Task
  | .executing task _ _ => some task
  | .reporting task _ _ => some task
  | _ => none

/-- How an execution has ended by a time, if it has: by itself, or because its time is over. -/
def Execution.outcome? (dueMs nowMs : Nat) : Execution → Option Ending
  | .ended ending => some ending
  | .suspended _ _ => if dueMs ≤ nowMs then some .timedOut else none

/-- Whether workers call an operation. -/
def Operation.isWorkers : Operation → Bool
  | .claim | .ack | .retry | .deadLetter | .release => true
  | _ => false

namespace World

variable {pool : Pool} {crashes : Prop} {w w' : World} {shift : Shift} {number : Nat} {task : Task}

/-- The task that a worker of a deployment has in hand. -/
def hand (w : World) (number : Nat) : Option Task :=
  w.workers[number]?.bind Phase.task?

/-- What the time of a deployment depends on. -/
def time (w : World) : Int × Nat := (w.startMs, w.elapsedMs)

/-- The broker of a deployment, and the tasks that it has accepted. -/
def ledger (w : World) : Broker × List Task := (w.broker, w.accepted)

/-- What the workers of a deployment were told, whether their pool counts as running, and what they
have told of. -/
def notices (w : World) : (Bool × Bool × Bool) × List (TaskEvent × Nat) :=
  ((w.stopping, w.cancelled, w.running), w.events)

/-- What goes on beside the work on the tasks: the notices, and the handlers that were given up. -/
def aside (w : World) :
    ((Bool × Bool × Bool) × List (TaskEvent × Nat)) × List Straggler :=
  (w.notices, w.stragglers)

/-- What the clock of a deployment showed at the start, in nanoseconds since 1970. -/
def origin (w : World) : Int := w.startMs * nanosPerMilli

lemma origin_eq (h : w'.time = w.time) : w'.origin = w.origin :=
  congrArg (fun time : Int × Nat => time.1 * nanosPerMilli) h

lemma elapsedMs_eq (h : w'.time = w.time) : w'.elapsedMs = w.elapsedMs :=
  congrArg Prod.snd h

lemma now_eq (h : w'.time = w.time) : w'.now = w.now :=
  congrArg (fun time : Int × Nat => Instant.ofMillis (time.1 + time.2)) h

/-- The clock of a deployment is that of a shift. -/
lemma clock_eq (w : World) : Shift.clock w.origin (w.elapsedMs * nanosPerMilli) = w.now := by
  unfold Shift.clock origin now Instant.ofMillis nanosPerMilli
  congr 1
  omega

/-- Whether a worker does what it is to do: it executes only tasks that have a handler, none of them
beyond its time `due`, no handler interrupts itself, and the worker makes the report that it has
decided on.  It is late only where there are crashes. -/
def Honest (pool : Pool) (crashes : Prop) (due : Nat) : Phase → Prop
  | .claiming _ => crashes
  | .executing task dueMs execution =>
    pool.registry.resolve? task.kind ≠ none ∧ dueMs * nanosPerMilli ≤ due ∧
      execution ≠ .ended .interrupted
  | .reporting task report _ => crashes ∧ ∃ draw ending, pool.reportOn draw task ending = report
  | _ => True

/-- Whether a shift shows a deployment. -/
structure Deployed (pool : Pool) (crashes : Prop) (w : World) (shift : Shift) : Prop where
  elapsed : shift.elapsed = w.elapsedMs * nanosPerMilli
  ledger : shift.fleet.trace.ledger = w.ledger
  hands : shift.fleet.hands = w.hand
  honest : ∀ number phase, w.workers[number]? = some phase →
    Honest pool crashes (shift.due number) phase
  faults : crashes ∨ ∀ entry ∈ w.faults, entry.1.isWorkers = false

/-- Whether a shift shows a deployment but for one worker, which has something else in hand. -/
structure Nearly (pool : Pool) (crashes : Prop) (w : World) (shift : Shift) (number : Nat)
    (held : Option Task) : Prop where
  elapsed : shift.elapsed = w.elapsedMs * nanosPerMilli
  ledger : shift.fleet.trace.ledger = w.ledger
  hands : shift.fleet.hands = Function.update w.hand number held
  honest : ∀ other phase, other ≠ number → w.workers[other]? = some phase →
    Honest pool crashes (shift.due other) phase
  faults : crashes ∨ ∀ entry ∈ w.faults, entry.1.isWorkers = false
  present : number < w.workers.length

lemma Deployed.broker (h : Deployed pool crashes w shift) :
    shift.fleet.trace.broker = w.broker := congrArg Prod.fst h.ledger

lemma Nearly.broker {held : Option Task} (h : Nearly pool crashes w shift number held) :
    shift.fleet.trace.broker = w.broker := congrArg Prod.fst h.ledger

lemma Deployed.clock (h : Deployed pool crashes w shift) :
    Shift.clock w.origin shift.elapsed = w.now := by
  rw [h.elapsed, clock_eq]

lemma Nearly.clock {held : Option Task} (h : Nearly pool crashes w shift number held) :
    Shift.clock w.origin shift.elapsed = w.now := by
  rw [h.elapsed, clock_eq]

lemma Nearly.hands_self {held : Option Task} (h : Nearly pool crashes w shift number held) :
    shift.fleet.hands number = held := by
  rw [h.hands, Function.update_self]

lemma hand_setPhase (h : number < w.workers.length) (phase : Phase) :
    (w.setPhase number phase).hand = Function.update w.hand number phase.task? := by
  funext other
  rw [Function.update_apply]
  by_cases hother : other = number
  · subst hother
    simp [hand, setPhase, h]
  · simp [hand, setPhase, hother, List.getElem?_set_ne (Ne.symm hother)]

lemma Deployed.nearly {phase : Phase} (h : Deployed pool crashes w shift)
    (hphase : w.workers[number]? = some phase) :
    Nearly pool crashes w shift number phase.task? where
  elapsed := h.elapsed
  ledger := h.ledger
  hands := by
    have hhand : w.hand number = phase.task? := by simp [hand, hphase]
    rw [h.hands, ← hhand, Function.update_eq_self]
  honest other phase _ := h.honest other phase
  faults := h.faults
  present := (List.getElem?_eq_some_iff.mp hphase).1

lemma Nearly.setPhase {held : Option Task} (h : Nearly pool crashes w shift number held)
    (phase : Phase) (hheld : phase.task? = held)
    (hhonest : Honest pool crashes (shift.due number) phase) :
    Deployed pool crashes (w.setPhase number phase) shift where
  elapsed := h.elapsed
  ledger := h.ledger
  hands := by rw [h.hands, hand_setPhase h.present, hheld]
  honest other phase' hphase' := by
    by_cases hother : other = number
    · subst hother
      simp only [World.setPhase, List.getElem?_set_self h.present, Option.some.injEq] at hphase'
      exact hphase' ▸ hhonest
    · rw [World.setPhase, List.getElem?_set_ne (Ne.symm hother)] at hphase'
      exact h.honest other phase' hother hphase'
  faults := h.faults

/-- A deployment at its start. -/
lemma deployed_start {limits : BrokerLimits} (startMs : Int) (store : Store) (mailer : Mailer) :
    Deployed pool crashes (World.start startMs (.empty limits) store mailer)
      ⟨.start limits, 0, fun _ => 0⟩ where
  elapsed := by simp [World.start]
  ledger := rfl
  hands := by
    funext number
    simp [Fleet.start, hand, World.start]
  honest := by simp [World.start]
  faults := by simp [World.start]

/-! ## Steps that leave broker and workers alone -/

/-- Whether nothing has changed that a shift shows. -/
structure Unmoved (w w' : World) : Prop where
  time : w'.time = w.time
  ledger : w'.ledger = w.ledger
  workers : w'.workers = w.workers
  faults : ∀ entry ∈ w'.faults, entry ∈ w.faults ∨ entry.1.isWorkers = false

@[refl] lemma Unmoved.refl (w : World) : Unmoved w w :=
  ⟨rfl, rfl, rfl, fun _ => .inl⟩

lemma Unmoved.broker (h : Unmoved w w') : w'.broker = w.broker := congrArg Prod.fst h.ledger

lemma Unmoved.trans {w'' : World} (h : Unmoved w w') (h' : Unmoved w' w'') : Unmoved w w'' where
  time := h'.time.trans h.time
  ledger := h'.ledger.trans h.ledger
  workers := h'.workers.trans h.workers
  faults entry hentry := (h'.faults entry hentry).elim (h.faults entry) .inr

lemma Unmoved.quiet (h : Unmoved w w')
    (hfaults : crashes ∨ ∀ entry ∈ w.faults, entry.1.isWorkers = false) :
    crashes ∨ ∀ entry ∈ w'.faults, entry.1.isWorkers = false :=
  hfaults.imp id fun hquiet entry hentry => (h.faults entry hentry).elim (hquiet entry) id

lemma Deployed.unmoved (h : Deployed pool crashes w shift) (hsame : Unmoved w w') :
    Deployed pool crashes w' shift where
  elapsed := by rw [h.elapsed, elapsedMs_eq hsame.time]
  ledger := h.ledger.trans hsame.ledger.symm
  hands := by
    funext number
    rw [h.hands, hand, hand, hsame.workers]
  honest := hsame.workers ▸ h.honest
  faults := hsame.quiet h.faults

lemma Nearly.unmoved {held : Option Task} (h : Nearly pool crashes w shift number held)
    (hsame : Unmoved w w') : Nearly pool crashes w' shift number held where
  elapsed := by rw [h.elapsed, elapsedMs_eq hsame.time]
  ledger := h.ledger.trans hsame.ledger.symm
  hands := by
    have hhand : w'.hand = w.hand := funext fun number => by rw [hand, hand, hsame.workers]
    rw [h.hands, hhand]
  honest := hsame.workers ▸ h.honest
  faults := hsame.quiet h.faults
  present := hsame.workers ▸ h.present

lemma unmoved_wake (w : World) (thread : Thread) : Unmoved w (w.wake thread) := by
  unfold wake
  split
  · exact .refl w
  · exact ⟨rfl, rfl, rfl, fun _ => .inl⟩

lemma aside_wake (w : World) (thread : Thread) : (w.wake thread).aside = w.aside := by
  unfold wake
  split <;> rfl

@[simp] lemma notices_wake (w : World) (thread : Thread) :
    (w.wake thread).notices = w.notices :=
  congrArg Prod.fst (aside_wake w thread)

lemma unmoved_goOn (w : World) (number : Nat) : Unmoved w (w.goOn number) :=
  ⟨rfl, rfl, rfl, fun _ => .inl⟩

lemma unmoved_startTimer (w : World) (thread : Thread) (millis : Nat) :
    Unmoved w (w.startTimer thread millis) :=
  ⟨rfl, rfl, rfl, fun _ => .inl⟩

lemma unmoved_forget (w : World) (thread : Thread) : Unmoved w (w.forget thread) :=
  ⟨rfl, rfl, rfl, fun _ => .inl⟩

/-- Whether nothing has changed that concerns the workers. -/
structure Apart (w w' : World) : Prop extends Unmoved w w' where
  runnable : w'.runnable = w.runnable
  timers : w'.timers = w.timers

@[refl] lemma Apart.refl (w : World) : Apart w w := ⟨.refl w, rfl, rfl⟩

lemma Apart.trans {w'' : World} (h : Apart w w') (h' : Apart w' w'') : Apart w w'' :=
  ⟨h.toUnmoved.trans h'.toUnmoved, h'.runnable.trans h.runnable, h'.timers.trans h.timers⟩

/-- A change that has nothing to do with the workers, if it is one by definition. -/
lemma apart_of_rfl (htime : w'.time = w.time) (hledger : w'.ledger = w.ledger)
    (hworkers : w'.workers = w.workers) (hfaults : w'.faults = w.faults)
    (hrunnable : w'.runnable = w.runnable) (htimers : w'.timers = w.timers) : Apart w w' :=
  ⟨⟨htime, hledger, hworkers, fun _ hentry => .inl (hfaults ▸ hentry)⟩, hrunnable, htimers⟩

lemma apart_emit (w : World) (event : TaskEvent) : Apart w (w.emit event) :=
  apart_of_rfl rfl rfl rfl rfl rfl rfl

/-- A crash of the hook is caught, so that only its notes are left. -/
lemma notify_eq (w : World) (pool : Pool) (record : Task) (report : Report) :
    w.notify pool record report = (w.callHook pool record report).2 := by
  unfold notify
  split
  · next h => rw [h]
  · next h => rw [h]

lemma apart_notify (w : World) (pool : Pool) (record : Task) (report : Report) :
    Apart w (w.notify pool record report) := by
  rw [notify_eq]
  cases report with
  | fail => exact apart_of_rfl rfl rfl rfl rfl rfl rfl
  | complete | reschedule | release => exact .refl w

lemma aside_notify (w : World) (pool : Pool) (record : Task) (report : Report) :
    (w.notify pool record report).aside = w.aside := by
  rw [notify_eq]
  cases report <;> rfl

@[simp] lemma notices_notify (w : World) (pool : Pool) (record : Task) (report : Report) :
    (w.notify pool record report).notices = w.notices :=
  congrArg Prod.fst (aside_notify w pool record report)

lemma apart_takeFault (w : World) (operation : Operation) :
    Apart w (w.takeFault operation).2 := by
  unfold takeFault
  split
  · exact .refl w
  · exact ⟨⟨rfl, rfl, rfl, fun _ hentry => .inl (List.mem_of_mem_eraseP hentry)⟩, rfl, rfl⟩

lemma aside_takeFault (w : World) (operation : Operation) :
    (w.takeFault operation).2.aside = w.aside := by
  unfold takeFault
  split <;> rfl

@[simp] lemma notices_takeFault (w : World) (operation : Operation) :
    (w.takeFault operation).2.notices = w.notices :=
  congrArg Prod.fst (aside_takeFault w operation)

/-- A worker meets no fault where there are no crashes. -/
lemma takeFault_none {operation : Operation} (hworkers : operation.isWorkers = true)
    (h : crashes ∨ ∀ entry ∈ w.faults, entry.1.isWorkers = false) :
    crashes ∨ (w.takeFault operation).1 = .none := by
  refine h.imp id fun hquiet => ?_
  have hnone : w.faults.find? (fun entry => entry.1 = operation) = none := by
    rw [List.find?_eq_none]
    intro entry hentry hoperation
    have hother := hquiet entry hentry
    rw [of_decide_eq_true hoperation, hworkers] at hother
    cases hother
  rw [takeFault, hnone]

/-! ### Calls of the broker -/

/-- The deployment after a call of its broker. -/
def called (w : World) (call : Call) : World :=
  { w with
    broker := (w.broker.serve call).2
    accepted := w.accepted ++ (Exchange.enqueued? ⟨call, (w.broker.serve call).1⟩).toList }

lemma enqueue_eq (w : World) (task : Task) :
    (w.enqueue task).2 = w.called (.enqueue task w.now) := by
  simp only [enqueue, called, serve]
  cases w.broker.enqueue task w.now with
  | ok => rfl
  | error =>
    change w = { w with accepted := w.accepted ++ [] }
    rw [List.append_nil]

/-- A claim of a deployment is a call of its broker. -/
lemma claim_eq (w : World) (weights : QueueWeights) :
    ∃ words w', Apart w w' ∧
      Outcome.ofExcept ((w.claim weights).1.map some) =
        (w.broker.serve (.claim .listed weights words w.now)).1 ∧
      (w.claim weights).2 =
        { w' with broker := (w.broker.serve (.claim .listed weights words w.now)).2 } := by
  unfold World.claim World.words
  generalize w.generator.halves 16 = drawn
  obtain ⟨words, generator⟩ := drawn
  exact ⟨words, { w with generator := generator }, apart_of_rfl rfl rfl rfl rfl rfl rfl, rfl, rfl⟩

lemma aside_claim (w : World) (weights : QueueWeights) :
    (w.claim weights).2.aside = w.aside := by
  unfold World.claim World.words
  generalize w.generator.halves 16 = drawn
  obtain ⟨words, generator⟩ := drawn
  rfl

/-! ## What handlers and clients do -/

lemma apart_note (w : World) (request : Request) : Apart w (w.note request) := by
  cases request with
  | enqueue task =>
    unfold note noteSubmission
    simp only
    split
    · exact apart_of_rfl rfl rfl rfl rfl rfl rfl
    · exact .refl w
  | createVerifyEmail => exact apart_of_rfl rfl rfl rfl rfl rfl rfl
  | _ => exact .refl w

lemma apart_beginRequest (w : World) (request : Request) : Apart w (w.beginRequest request).2 := by
  unfold beginRequest
  simp only
  split
  · exact (apart_note w request).trans (apart_takeFault _ _)
  · exact apart_note w request

/-- Whether a handler can bring a deployment from one world to another without a pause: it submits
tasks, and all else that it does has nothing to do with the workers. -/
inductive Handled (w : World) : World → Prop
  | refl : Handled w w
  | apart {w' w'' : World} (handled : Handled w w') (apart : Apart w' w'') : Handled w w''
  | enqueue {w' : World} (handled : Handled w w') (task : Task) : Handled w (w'.enqueue task).2

lemma Apart.handled (h : Apart w w') : Handled w w' := .apart .refl h

lemma Handled.trans {w'' : World} (h : Handled w w') (h' : Handled w' w'') : Handled w w'' := by
  induction h' with
  | refl => exact h
  | apart _ apart ih => exact ih.apart apart
  | enqueue _ task ih => exact ih.enqueue task

lemma apart_freshId (w : World) : Apart w w.freshId.2 := by
  unfold freshId
  generalize w.generator.uuid = drawn
  obtain ⟨id, generator⟩ := drawn
  exact apart_of_rfl rfl rfl rfl rfl rfl rfl

lemma apart_secret (w : World) (cancelled : Bool) (length : Nat) :
    Apart w (w.perform cancelled (.secret length)).2 := by
  unfold perform
  generalize w.generator.secret length = drawn
  obtain ⟨secretCode, generator⟩ := drawn
  exact apart_of_rfl rfl rfl rfl rfl rfl rfl

lemma handled_perform (w : World) (cancelled : Bool) (request : Request) :
    Handled w (w.perform cancelled request).2 := by
  cases request with
  | enqueue task => exact .enqueue .refl task
  | freshId => exact (apart_freshId w).handled
  | secret length => exact (apart_secret w cancelled length).handled
  | visit => exact Apart.handled (apart_of_rfl rfl rfl rfl rfl rfl rfl)
  | createUser | createVerifyEmail | verifyEmail | send =>
    unfold perform
    simp only
    split <;> exact Apart.handled (apart_of_rfl rfl rfl rfl rfl rfl rfl)
  | _ => exact .refl

/-- A request that is attempted is carried out, or nothing is done. -/
lemma attempt_eq_or (w : World) (cancelled : Bool) (failure : Failure) (request : Request) :
    (w.attempt cancelled failure request).2 = w ∨
      (w.attempt cancelled failure request).2 = (w.perform cancelled request).2 := by
  unfold attempt
  split
  · exact .inl rfl
  · split
    · exact .inl rfl
    · split
      · exact .inl rfl
      · exact .inr rfl

lemma handled_attempt (w : World) (cancelled : Bool) (failure : Failure) (request : Request) :
    Handled w (w.attempt cancelled failure request).2 := by
  rcases w.attempt_eq_or cancelled failure request with hnothing | hdone
  · rw [hnothing]
    exact .refl
  · rw [hdone]
    exact handled_perform w cancelled request

/-- How a handler goes on after a request that is no pause. -/
lemma drive_ask (cancelled : Bool) (execution : Nat) {request : Request}
    (next : request.Answer → Procedure (Except HandlerError Unit)) (w : World)
    (hpause : ∀ millis, request ≠ .pause millis) (hcompute : ∀ millis, request ≠ .compute millis)
    (hcancel : request ≠ .awaitCancel) :
    drive cancelled execution (.ask request next) w =
      if (w.beginRequest request).1.delayMs = 0 then
        match (w.beginRequest request).2.attempt cancelled
            (w.beginRequest request).1.failure request with
        | (.ok answer, w) => drive cancelled execution (next answer) w
        | (.error message, w) => (.ended (.crashed execution message), w)
      else
        (.sleeping (w.beginRequest request).1.delayMs
          (.attempt (w.beginRequest request).1.failure request next),
          (w.beginRequest request).2) := by
  rewrite [drive]
  · rfl
  · exact fun millis _ heq _ => hpause millis heq
  · exact fun millis _ heq _ => hcompute millis heq
  · exact fun _ heq _ => hcancel heq

section Ends

variable {cancelled : Bool} {holds : World → Prop} {ends : Pause → World → Prop} (execution : Nat)
  (begun : ∀ w request, holds w → holds (w.beginRequest request).2)
  (attempted : ∀ w failure request, holds w → holds (w.attempt cancelled failure request).2)
  (ended : ∀ w ending, holds w → ending ≠ .interrupted → ends (.ended ending) w)
  (sleeping : ∀ w millis rest, holds w → millis ≠ 0 → ends (.sleeping millis rest) w)
  (computing : ∀ w millis rest, holds w → millis ≠ 0 → ends (.computing millis rest) w)
  (awaiting : ∀ w rest, holds w → cancelled = false → ends (.awaitingCancel rest) w)

include begun attempted ended sleeping computing awaiting

/-- What handlers do up to their next pause: what holds at the start and is kept by every request
and every answer to it leads to what is said of the pause.  The induction is on the procedure. -/
lemma drive_ends (procedure : Procedure (Except HandlerError Unit)) {w : World} (start : holds w) :
    ends (drive cancelled execution procedure w).1 (drive cancelled execution procedure w).2 := by
  induction procedure generalizing w with
  | done result => exact ended w _ start Ending.noConfusion
  | crash message => exact ended w _ start Ending.noConfusion
  | ask request next ih =>
    by_cases hpause : ∃ millis, request = .pause millis
    · obtain ⟨millis, rfl⟩ := hpause
      unfold drive
      split
      · exact ih () start
      · next hmillis => exact sleeping w millis _ start hmillis
    by_cases hcompute : ∃ millis, request = .compute millis
    · obtain ⟨millis, rfl⟩ := hcompute
      unfold drive
      split
      · exact ih () start
      · next hmillis => exact computing w millis _ start hmillis
    by_cases hcancel : request = .awaitCancel
    · subst hcancel
      unfold drive
      split
      · exact ih () start
      · next hgoing => exact awaiting w _ start (by simpa using hgoing)
    rw [drive_ask cancelled execution next w (not_exists.mp hpause) (not_exists.mp hcompute)
      hcancel]
    have hbegun := begun w request start
    generalize w.beginRequest request = begun at hbegun ⊢
    obtain ⟨fault, w'⟩ := begun
    simp only
    split
    · have hattempt := attempted w' fault.failure request hbegun
      generalize w'.attempt cancelled fault.failure request = attempted at hattempt ⊢
      obtain ⟨answer, w''⟩ := attempted
      cases answer with
      | ok answer => exact ih answer hattempt
      | error message => exact ended w'' _ hattempt Ending.noConfusion
    · next hlate => exact sleeping w' _ _ hbegun hlate

lemma resume_ends (rest : Resumption) {w : World} (start : holds w) :
    ends (resume cancelled execution rest w).1 (resume cancelled execution rest w).2 := by
  unfold resume
  cases rest with
  | run procedure =>
    exact drive_ends execution begun attempted ended sleeping computing awaiting procedure start
  | attempt failure request next =>
    have hattempt := attempted w failure request start
    simp only
    generalize w.attempt cancelled failure request = result at hattempt ⊢
    obtain ⟨answer, w'⟩ := result
    cases answer with
    | ok answer =>
      exact drive_ends execution begun attempted ended sleeping computing awaiting (next answer)
        hattempt
    | error message => exact ended w' _ hattempt Ending.noConfusion

end Ends

/-- What is kept by every request of a handler and every answer to it. -/
lemma resume_induction {motive : World → Prop} {cancelled : Bool}
    (begun : ∀ w request, motive w → motive (w.beginRequest request).2)
    (attempted : ∀ w failure request, motive w → motive (w.attempt cancelled failure request).2)
    (execution : Nat) (rest : Resumption) {w : World} (start : motive w) :
    motive (resume cancelled execution rest w).2 :=
  @resume_ends cancelled motive (fun _ => motive) execution begun attempted (fun _ _ h _ => h)
    (fun _ _ _ h _ => h) (fun _ _ _ h _ => h) (fun _ _ h _ => h) rest w start

lemma handled_resume (cancelled : Bool) (execution : Nat) (rest : Resumption) (w : World) :
    Handled w (resume cancelled execution rest w).2 :=
  resume_induction (fun w' request h => h.apart (apart_beginRequest w' request))
    (fun w' failure request h => h.trans (handled_attempt w' cancelled failure request))
    execution rest .refl

/-- A handler ends by itself. -/
lemma resume_own {cancelled : Bool} {execution : Nat} {rest : Resumption} {ending : Ending}
    (h : (resume cancelled execution rest w).1 = .ended ending) : ending ≠ .interrupted := by
  have hends := @resume_ends cancelled (fun _ => True) (fun pause _ => pause ≠ .ended .interrupted)
    execution (fun _ _ _ => trivial) (fun _ _ _ _ => trivial)
    (fun _ _ _ hown => by simpa using hown) (fun _ _ _ _ _ => Pause.noConfusion)
    (fun _ _ _ _ _ => Pause.noConfusion) (fun _ _ _ _ => Pause.noConfusion) rest w trivial
  rw [h] at hends
  simpa using hends

lemma Handled.frame (h : Handled w w') :
    w'.time = w.time ∧ w'.workers = w.workers ∧ w'.runnable = w.runnable ∧
      w'.timers = w.timers := by
  induction h with
  | refl => exact ⟨rfl, rfl, rfl, rfl⟩
  | apart _ apart ih =>
    obtain ⟨htime, hworkers, hrunnable, htimers⟩ := ih
    exact ⟨apart.time.trans htime, apart.workers.trans hworkers, apart.runnable.trans hrunnable,
      apart.timers.trans htimers⟩
  | enqueue _ task ih =>
    rw [enqueue_eq]
    exact ih

/-! ### What they leave alone -/

lemma aside_beginRequest (w : World) (request : Request) :
    (w.beginRequest request).2.aside = w.aside := by
  have hnote : (w.note request).aside = w.aside := by
    cases request with
    | enqueue =>
      unfold note noteSubmission
      simp only
      split <;> rfl
    | _ => rfl
  unfold beginRequest
  simp only
  split
  · rw [aside_takeFault, hnote]
  · exact hnote

lemma aside_attempt (w : World) (cancelled : Bool) (failure : Failure) (request : Request) :
    (w.attempt cancelled failure request).2.aside = w.aside := by
  have hperform : (w.perform cancelled request).2.aside = w.aside := by
    cases request with
    | enqueue task =>
      change (w.enqueue task).2.aside = w.aside
      rw [enqueue_eq]
      rfl
    | freshId =>
      change w.freshId.2.aside = w.aside
      unfold freshId
      generalize w.generator.uuid = drawn
      obtain ⟨id, generator⟩ := drawn
      rfl
    | secret length =>
      unfold perform
      generalize w.generator.secret length = drawn
      obtain ⟨secretCode, generator⟩ := drawn
      rfl
    | createUser | createVerifyEmail | verifyEmail | send =>
      unfold perform
      simp only
      split <;> rfl
    | _ => rfl
  rcases w.attempt_eq_or cancelled failure request with hnothing | hdone
  · rw [hnothing]
  · rw [hdone, hperform]

lemma aside_resume (cancelled : Bool) (execution : Nat) (rest : Resumption) (w : World) :
    (resume cancelled execution rest w).2.aside = w.aside :=
  resume_induction (motive := fun w' => w'.aside = w.aside)
    (fun w' request h => (aside_beginRequest w' request).trans h)
    (fun w' failure request h => (aside_attempt w' cancelled failure request).trans h)
    execution rest rfl

/-- A handler gives the workers no order and tells observers nothing. -/
lemma notices_resume (cancelled : Bool) (execution : Nat) (rest : Resumption) (w : World) :
    (resume cancelled execution rest w).2.notices = w.notices :=
  congrArg Prod.fst (aside_resume cancelled execution rest w)

/-! ### Handlers that were given up -/

/-- What is kept by every change of the list of stragglers and by every handler that goes on is kept
when stragglers do. -/
lemma resumeStragglers_induction {motive : World → Prop}
    (list : ∀ w stragglers, motive w → motive { w with stragglers := stragglers })
    (goesOn : ∀ w cancelled rest, motive w → motive (resume cancelled 0 rest w).2) {w : World}
    (start : motive w) : motive w.resumeStragglers := by
  have hstraggler : ∀ w straggler, motive w → motive (w.goOnStraggler straggler) := by
    intro w straggler h
    have hdriven := goesOn w (straggler.cancelled.getD w.cancelled) (.run straggler.rest) h
    unfold goOnStraggler
    change motive (drive _ 0 straggler.rest w).2 at hdriven
    generalize drive _ 0 straggler.rest w = driven at hdriven ⊢
    obtain ⟨pause, w'⟩ := driven
    cases pause with
    | computing millis rest => exact list w' _ hdriven
    | ended | sleeping | awaitingCancel => exact hdriven
  have hfold : ∀ (due : List Straggler) w, motive w → motive (due.foldl goOnStraggler w) := by
    intro due
    induction due with
    | nil => exact fun _ h => h
    | cons straggler rest ih => exact fun w h => ih _ (hstraggler w straggler h)
  exact hfold _ _ (list w _ start)

/-- What the stragglers do is what handlers do. -/
lemma handled_resumeStragglers (w : World) : Handled w w.resumeStragglers :=
  resumeStragglers_induction
    (fun _ _ h => h.apart (apart_of_rfl rfl rfl rfl rfl rfl rfl))
    (fun w' cancelled rest h => h.trans (handled_resume cancelled 0 rest w')) .refl

lemma notices_resumeStragglers (w : World) : w.resumeStragglers.notices = w.notices :=
  resumeStragglers_induction (motive := fun w' => w'.notices = w.notices) (fun _ _ h => h)
    (fun w' cancelled rest h => (notices_resume cancelled 0 rest w').trans h) rfl

/-- A worker that gives its handler up changes nothing but the list of stragglers. -/
lemma giveUp_eq (w : World) (number : Nat) :
    ∃ stragglers, w.giveUp number = { w with stragglers := stragglers } := by
  unfold giveUp
  split
  · exact ⟨_, rfl⟩
  · exact ⟨w.stragglers, rfl⟩

lemma apart_giveUp (w : World) (number : Nat) : Apart w (w.giveUp number) := by
  obtain ⟨stragglers, heq⟩ := w.giveUp_eq number
  rw [heq]
  exact apart_of_rfl rfl rfl rfl rfl rfl rfl

lemma notices_giveUp (w : World) (number : Nat) : (w.giveUp number).notices = w.notices := by
  obtain ⟨stragglers, heq⟩ := w.giveUp_eq number
  rw [heq]
  rfl

/-- A worker that ends an execution gives its handler up and begins the report on how it has ended,
for which it draws a number. -/
lemma endExecution_eq (w : World) (pool : Pool) (number : Nat) (task : Task) (ending : Ending) :
    ∃ draw generator, w.endExecution pool number task ending =
      beginReport
        { ((w.giveUp number).forget (.worker number)).forget (.handler number) with
          generator := generator }
        pool number task (.ofResult pool.policy draw task (ending.result pool.taskTimeout)) :=
  ⟨_, _, rfl⟩

/-! ## Signals -/

/-- Whether threads were woken, one after the other. -/
inductive Wakes (w : World) : World → Prop
  | refl : Wakes w w
  | wake {w' : World} (wakes : Wakes w w') (thread : Thread) : Wakes w (w'.wake thread)

lemma Wakes.trans {w'' : World} (h : Wakes w w') (h' : Wakes w' w'') : Wakes w w'' := by
  induction h' with
  | refl => exact h
  | wake _ thread ih => exact ih.wake thread

lemma Wakes.unmoved (h : Wakes w w') : Unmoved w w' := by
  induction h with
  | refl => exact .refl w
  | wake _ thread ih => exact ih.trans (unmoved_wake _ thread)

lemma wakes_foldl {α : Type} {f : World → α → World} (hf : ∀ w item, Wakes w (f w item))
    (items : List α) (w : World) : Wakes w (items.foldl f w) := by
  induction items generalizing w with
  | nil => exact .refl
  | cons item rest ih => exact (hf w item).trans (ih _)

lemma wakes_wakeWorkers (w : World) (which : Phase → Bool) : Wakes w (w.wakeWorkers which) := by
  refine wakes_foldl (fun w number => ?_) _ w
  split
  · split
    · exact .wake .refl _
    · exact .refl
  · exact .refl

lemma wakes_wakeHandlers (w : World) : Wakes w w.wakeHandlers := by
  refine wakes_foldl (fun w number => ?_) _ w
  split
  · exact .wake .refl _
  · exact .refl

/-- An order to the workers is a flag, and a signal to those that wait. -/
lemma orderStop_wakes (w : World) : ∃ w', Apart w w' ∧ Wakes w' w.orderStop :=
  ⟨{ w with stopping := true }, apart_of_rfl rfl rfl rfl rfl rfl rfl, wakes_wakeWorkers _ _⟩

lemma orderCancel_wakes (w : World) : ∃ w', Apart w w' ∧ Wakes w' w.orderCancel :=
  ⟨{ w with cancelled := true }, apart_of_rfl rfl rfl rfl rfl rfl rfl,
    (wakes_wakeHandlers _).trans (wakes_wakeWorkers _ _)⟩

lemma Wakes.aside (h : Wakes w w') : w'.aside = w.aside := by
  induction h with
  | refl => rfl
  | wake _ thread ih => rw [aside_wake, ih]

lemma Wakes.notices (h : Wakes w w') : w'.notices = w.notices := congrArg Prod.fst h.aside

lemma notices_orderStop (w : World) :
    w.orderStop.notices = ((true, w.cancelled, w.running), w.events) :=
  (wakes_wakeWorkers { w with stopping := true } isPolling).notices

lemma notices_orderCancel (w : World) :
    w.orderCancel.notices = ((w.stopping, true, w.running), w.events) :=
  ((wakes_wakeHandlers { w with cancelled := true }).trans
    (wakes_wakeWorkers _ isExecuting)).notices

lemma unmoved_orderStop (w : World) : Unmoved w w.orderStop := by
  obtain ⟨w', hflag, hwakes⟩ := orderStop_wakes w
  exact hflag.toUnmoved.trans hwakes.unmoved

lemma unmoved_orderCancel (w : World) : Unmoved w w.orderCancel := by
  obtain ⟨w', hflag, hwakes⟩ := orderCancel_wakes w
  exact hflag.toUnmoved.trans hwakes.unmoved

/-- The clock moved to a time, before anything is woken. -/
def clockAt (w : World) (timeMs : Nat) : World :=
  { w with elapsedMs := timeMs, timers := w.timers.filter (timeMs < ·.dueMs) }

lemma moveTo_wakes (w : World) (timeMs : Nat) : Wakes (w.clockAt timeMs) (w.moveTo timeMs) :=
  wakes_foldl (fun _ (timer : Timer) => .wake .refl timer.thread) _ _

lemma time_moveTo (w : World) (timeMs : Nat) : (w.moveTo timeMs).time = (w.startMs, timeMs) :=
  (moveTo_wakes w timeMs).unmoved.time

/-! ## Letting time pass -/

/-- What is kept by every step, and by the passing of time when nothing can go on, is kept when time
passes. -/
lemma runUntil_induction {motive : World → Prop} {deadlineMs : Nat} {goal : World → Bool}
    (step : ∀ w thread rest, motive w → w.elapsedMs < deadlineMs → w.runnable = thread :: rest →
      motive ({ w with runnable := rest }.step pool thread))
    (idle : ∀ w, motive w → w.elapsedMs < deadlineMs → w.runnable = [] → goal w = false →
      motive (w.moveTo (min deadlineMs (w.nextDue.getD deadlineMs))).resumeStragglers)
    (fuel : Nat) {w : World} (start : motive w) :
    motive (runUntil pool deadlineMs goal fuel w) := by
  induction fuel generalizing w with
  | zero => exact start
  | succ fuel ih =>
    unfold runUntil
    split
    · exact start
    · next hlate =>
      have hearly := Nat.lt_of_not_le hlate
      split
      · next thread rest hrunnable => exact ih (step w thread rest start hearly hrunnable)
      · next hidle =>
        split
        · exact start
        · next hgoal => exact ih (idle w start hearly hidle (by simpa using hgoal))

end World
end WorkQueue
