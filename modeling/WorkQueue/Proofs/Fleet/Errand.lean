import WorkQueue.Proofs.Fleet.Duty
import WorkQueue.Proofs.Fleet.Engagement
import WorkQueue.Proofs.Fleet.Simulation

/-!
# Errands

An errand is all that a worker does about one task that it has claimed, from the claim until its
hands are empty again.  It can take many steps, and between them anything can happen to the
deployment that is not done by the worker itself (`Passes`): clients submit, other workers move, the
handler of the task runs, the clock moves, faults are added, orders are given.

A worker that has nothing in hand finds no task in a step, or begins an errand (`seeks_stepWorker`).
A worker that has a task in hand waits, or goes on with the errand (`deals_stepWorker`).  Hence
whoever has a task in hand is on an errand with it (`Ran.exists_errand`), and what the worker has
done on it so far can be read off what it does now (`Errand.standing`).
-/

namespace WorkQueue

open Broker

namespace World

variable {pool : Pool} {limits : BrokerLimits} {forward : Prop} {w w' w'' : World} {number : Nat}
  {task : Task} {phase : Phase} {deeds : List Deed}

/-- A deployment in which one of the threads that can go on has done so. -/
def proceed (w : World) (pool : Pool) (thread : Thread) : World :=
  { w with runnable := w.runnable.erase thread }.step pool thread

/-! ## Looking for a task -/

/-- What can be seen of a deployment besides the broker, the faults that wait and the threads. -/
def seen (w : World) :
    (Int × Nat) × ((Bool × Bool × Bool) × List (TaskEvent × Nat)) × List HookCall × Nat :=
  (w.time, w.notices, w.hookCalls, w.executions)

/-- Whether a worker may have called the broker for a task, and has done nothing else that can be
seen. -/
structure Asks (w w' : World) : Prop where
  seen : w'.seen = w.seen
  faults : w'.faults = w.faults ∨ w'.faults = w.faults.eraseP fun entry => entry.1 = .claim

/-- Whether the broker has given a task to a worker, which has done nothing about it. -/
structure Claims (pool : Pool) (task : Task) (w w' : World) : Prop extends Asks w w' where
  delivered : ∃ words, w.broker.serve (.claim .listed pool.weights words w.now) =
    (.ok (some task), w'.broker)
  workers : w'.workers = w.workers

/-- Whether a worker has got no task. -/
structure Looks (number : Nat) (w w' : World) : Prop extends Asks w w' where
  undelivered : w'.broker.nextLease = w.broker.nextLease
  hand : w'.hand number = none

/-- What a worker does at once about a task that it was given. -/
inductive Starts (pool : Pool) (task : Task) (w : World) : List Deed → Phase → Prop
  | undispatched {deeds : List Deed} {phase : Phase}
      (unregistered : ∀ handler, (task.kind, handler) ∉ pool.registry.handlers)
      (reports : Reports w.broker task w.now (.fail (.unregisteredKind task.kind))
        (w.takeFault .deadLetter).1 deeds phase) :
      Starts pool task w (.tells (TaskEvent.ofTask task .running) :: deeds) phase
  | interrupted {deeds : List Deed} {phase : Phase}
      (registered : ∃ handler, (task.kind, handler) ∈ pool.registry.handlers)
      (cancelled : w.cancelled = true)
      (reports : Reports w.broker task w.now .release (w.takeFault .release).1 deeds phase) :
      Starts pool task w (.tells (TaskEvent.ofTask task .running) :: deeds) phase
  | executes {handler : Handler} (registered : (task.kind, handler) ∈ pool.registry.handlers)
      (going : w.cancelled = false) :
      Starts pool task w [.tells (TaskEvent.ofTask task .running), .starts]
        (.executing task (w.elapsedMs + pool.taskTimeout.millis)
          (.suspended (.run (handler (Delivery.ofTask task) task)) .time))

/-- What a step of a worker with nothing in hand comes to. -/
inductive Seeks (pool : Pool) (number : Nat) (w : World) : World → Prop
  | looks {w' : World} (looks : Looks number w w') : Seeks pool number w w'
  | takes {w' w'' : World} (task : Task) (deeds : List Deed) (phase : Phase)
      (claims : Claims pool task w w') (starts : Starts pool task w' deeds phase)
      (did : Did pool number w' deeds phase w'') : Seeks pool number w w''

@[refl] lemma Asks.refl (w : World) : Asks w w := ⟨rfl, .inl rfl⟩

lemma Asks.tail (h : Asks w w') (hseen : w''.seen = w'.seen) (hfaults : w''.faults = w'.faults) :
    Asks w w'' where
  seen := hseen.trans h.seen
  faults := by
    rw [hfaults]
    exact h.faults

lemma asks_takeFault (w : World) : Asks w (w.takeFault .claim).2 := by
  rw [takeFault_eq]
  exact ⟨rfl, .inr rfl⟩

/-- A worker that waits, for a task or for a late claim, or has stopped, has nothing in hand. -/
lemma Asks.idles (h : Asks w w') (hpresent : number < w'.workers.length)
    (hbroker : w'.broker.nextLease = w.broker.nextLease) (hphase : phase.task? = none) :
    Looks number w (w'.setPhase number phase) where
  toAsks := h.tail rfl rfl
  undelivered := hbroker
  hand := by rw [hand_setPhase hpresent, Function.update_self, hphase]

lemma Looks.tail (h : Looks number w w') (hseen : w''.seen = w'.seen)
    (hfaults : w''.faults = w'.faults) (hbroker : w''.broker = w'.broker)
    (hworkers : w''.workers = w'.workers) : Looks number w w'' where
  toAsks := h.toAsks.tail hseen hfaults
  undelivered := by rw [hbroker, h.undelivered]
  hand := by
    rw [World.hand, hworkers]
    exact h.hand

lemma Asks.poll (h : Asks w w') (pool : Pool) (hpresent : number < w'.workers.length)
    (hbroker : w'.broker.nextLease = w.broker.nextLease) :
    Looks number w (w'.poll pool number) := by
  unfold World.poll
  split
  · exact h.idles hpresent hbroker rfl
  · exact (h.idles hpresent hbroker rfl).tail rfl rfl rfl rfl

/-- The claim under which a task was just given out is on the envelope that was given out. -/
lemma own_of_delivered {b next : Broker} {order : ReturnOrder} {weights : QueueWeights}
    {words : List UInt32} {now : Instant}
    (h : b.serve (.claim order weights words now) = (.ok (some task), next)) {lease : Lease}
    (howns : next.Owns task lease) : lease.task = task := by
  have htransition := Transition.of_serve h
  generalize hcall : Call.claim order weights words now = call at htransition
  generalize hanswer : (Outcome.ok (some task) : Answer) = answer at htransition
  cases htransition with
  | claimed first =>
    cases hanswer
    have hget := howns.1
    simp only [handOver, delivery, Task.markRunning, Table.get?_put, if_true,
      Option.some.injEq] at hget
    rw [← hget]
    rfl
  | disowned isReport =>
    subst hcall
    cases isReport
  | turnedAway | enqueued | unserved => cases hanswer
  | acked | retried | crashed | buried | released => cases hcall

/-- What a claim comes to: a task with its claim, or nothing. -/
lemma Asks.claim (h : Asks w w') (pool : Pool) (hbroker : w'.broker = w.broker) :
    Asks w (w'.claim pool.weights).2 ∧ (w'.claim pool.weights).2.workers = w'.workers ∧
      (∀ task, (w'.claim pool.weights).1 = .ok task →
        ∃ words, w.broker.serve (.claim .listed pool.weights words w.now) =
          (.ok (some task), (w'.claim pool.weights).2.broker)) ∧
      ∀ error, (w'.claim pool.weights).1 = .error error →
        (w'.claim pool.weights).2.broker.nextLease = w.broker.nextLease := by
  unfold World.claim World.words
  generalize w'.generator.halves 16 = drawn
  obtain ⟨words, generator⟩ := drawn
  have hnow : ({ w' with generator := generator } : World).now = w.now :=
    now_eq (congrArg Prod.fst h.seen)
  have hserve : w.broker.serve (.claim .listed pool.weights words w.now) =
      (.ofExcept ((w.broker.claim .listed pool.weights words w.now).1.map some),
        (w.broker.claim .listed pool.weights words w.now).2.1) := rfl
  have htransition := Transition.of_serve hserve
  simp only
  rw [hnow, hbroker]
  refine ⟨h.tail rfl rfl, trivial, fun task htask => ⟨words, ?_⟩,
    fun error herror => ?_⟩
  · rw [hserve, htask]
    rfl
  · rw [herror] at htransition
    exact htransition.nextLease_eq

/-! ### What follows a claim -/

lemma did_execute (pool : Pool) (hpresent : number < w.workers.length)
    (hown : ∀ lease, w.broker.Owns task lease → lease.task = task) :
    ∃ deeds phase, Starts pool task w deeds phase ∧
      Did pool number w deeds phase (w.execute pool number task) := by
  unfold World.execute
  let told := w.emit (TaskEvent.ofTask task .running)
  have hfault : ∀ operation, (told.takeFault operation).1 = (w.takeFault operation).1 :=
    fun operation => takeFault_congr w told rfl operation
  cases hresolve : pool.registry.resolve? task.kind with
  | none =>
    have hunregistered := Registry.resolve?_eq_none_iff.mp hresolve
    have hcounts : (Report.unregistered task).Counts task :=
      Report.counts_of_final (fun _ _ => Report.noConfusion) task
    obtain ⟨deeds, phase, hreports, hdid⟩ :=
      did_beginReport pool (w := told) hpresent hcounts hown
    rw [hfault] at hreports
    exact ⟨_, phase, .undispatched hunregistered hreports,
      hdid.after [.tells (TaskEvent.ofTask task .running)] rfl⟩
  | some handler =>
    have hregistered := Registry.mem_of_resolve? hresolve
    by_cases hcancelled : w.cancelled = true
    · simp only [show (w.emit (TaskEvent.ofTask task .running)).cancelled = true from hcancelled,
        if_true]
      obtain ⟨report, deeds, phase, howes, hreports, hdid⟩ :=
        did_endExecution pool (w := told) hpresent .interrupted hown
      obtain rfl : report = .release := by
        cases howes with
        | interrupted => rfl
        | again fails | spent fails => cases fails
      rw [hfault] at hreports
      exact ⟨_, phase, .interrupted ⟨handler, hregistered⟩ hcancelled hreports,
        hdid.after [.tells (TaskEvent.ofTask task .running)] rfl⟩
    · have hgoing : w.cancelled = false := by simpa using hcancelled
      simp only [show (w.emit (TaskEvent.ofTask task .running)).cancelled = false from hgoing,
        Bool.false_eq_true, if_false]
      refine ⟨_, _, .executes hregistered hgoing, ?_, ?_⟩
      · unfold World.wake
        split <;> rfl
      · unfold World.wake
        split <;> exact setPhase_self hpresent _

lemma Asks.makeClaim (h : Asks w w') (pool : Pool) (hpresent : number < w.workers.length)
    (hbroker : w'.broker = w.broker) (hworkers : w'.workers = w.workers) (failure : Failure) :
    Seeks pool number w (w'.makeClaim pool number failure) := by
  have hpresent' : number < w'.workers.length := by rwa [hworkers]
  unfold World.makeClaim
  split
  · exact .looks (h.idles hpresent' (by rw [hbroker]) rfl)
  · split
    · exact .looks (h.poll pool hpresent' (by rw [hbroker]))
    · obtain ⟨hasks, hsame, hserved, hunserved⟩ := h.claim pool hbroker
      generalize w'.claim pool.weights = claimed at hasks hsame hserved hunserved ⊢
      obtain ⟨result, m⟩ := claimed
      have hmworkers : m.workers = w.workers := hsame.trans hworkers
      have hmpresent : number < m.workers.length := by rwa [hmworkers]
      cases result with
      | ok task =>
        obtain ⟨words, hserve⟩ := hserved task rfl
        obtain ⟨deeds, phase, hstarts, hdid⟩ :=
          did_execute pool hmpresent fun _ howns => own_of_delivered hserve howns
        exact .takes task deeds phase ⟨hasks, ⟨words, hserve⟩, hmworkers⟩ hstarts hdid
      | error error => exact .looks (hasks.poll pool hmpresent (hunserved error rfl))

/-- A worker that looks for a task gets none, or begins at once with what it got. -/
lemma seeks_beginClaim (pool : Pool) (hpresent : number < w.workers.length) :
    Seeks pool number w (w.beginClaim pool number) := by
  have hasks := asks_takeFault w
  have htaken := takeFault_eq w .claim
  unfold World.beginClaim
  generalize w.takeFault .claim = taken at hasks htaken ⊢
  obtain ⟨fault, w'⟩ := taken
  obtain rfl : w' = _ := htaken
  simp only
  split
  · exact hasks.makeClaim pool hpresent rfl rfl fault.failure
  · exact .looks ((hasks.idles hpresent rfl rfl).tail rfl rfl rfl rfl)

/-- **What a worker with nothing in hand does in a step**: it gets no task, or it gets one and
begins with it. -/
theorem seeks_stepWorker (pool : Pool) (hidle : w.hand number = none) :
    Seeks pool number w (w.stepWorker pool number) := by
  have hstays : Looks number w w := ⟨.refl w, rfl, hidle⟩
  unfold World.stepWorker
  cases hphase : w.workers[number]? with
  | none => exact .looks hstays
  | some phase =>
    have hpresent := (List.getElem?_eq_some_iff.mp hphase).1
    cases phase with
    | stopped => exact .looks hstays
    | ready =>
      simp only
      split
      · exact .looks ((Asks.refl w).idles hpresent rfl rfl)
      · exact seeks_beginClaim pool hpresent
    | claiming failure => exact (Asks.refl w).makeClaim pool hpresent rfl rfl failure
    | polling dueMs =>
      simp only
      split
      · have hforgot : Asks w (w.forget (.worker number)) := (Asks.refl w).tail rfl rfl
        exact .looks (hforgot.idles hpresent rfl rfl)
      · split
        · exact seeks_beginClaim pool hpresent
        · exact .looks hstays
    | executing | reporting =>
      rw [hand, hphase] at hidle
      cases hidle

/-- What a worker does does not depend on which threads can go on. -/
lemma seeks_proceed (pool : Pool) (hidle : w.hand number = none) :
    Seeks pool number w (w.proceed pool (.worker number)) := by
  have hseeks : Seeks pool number { w with runnable := w.runnable.erase (.worker number) }
      (w.proceed pool (.worker number)) := seeks_stepWorker pool hidle
  generalize w.proceed pool (.worker number) = w' at hseeks ⊢
  cases hseeks with
  | looks looks =>
    exact .looks ⟨⟨looks.seen, looks.faults⟩, looks.undelivered, looks.hand⟩
  | takes task deeds phase claims starts did =>
    exact .takes task deeds phase
      ⟨⟨claims.seen, claims.faults⟩, claims.delivered, claims.workers⟩ starts did

/-! ## Going on with a task -/

/-- What a worker with a task in hand does in a step.  What it executes is the procedure of a
handler that is registered for the type of the task.  It waits while this has no result, its time is
not over and nobody told the workers to stop at once; it makes the report that it owes for how the
execution has ended; or it hears of the report that it has made. -/
inductive Deals (pool : Pool) (number : Nat) (task : Task) (w : World) : List Deed → Phase → Prop
  | waits {dueMs : Nat} {rest : Resumption} {waiting : Waiting}
      (executing : w.workers[number]? = some (.executing task dueMs (.suspended rest waiting)))
      (engages : pool.Engages task (.suspended rest waiting))
      (going : w.cancelled = false) (early : w.elapsedMs < dueMs) :
      Deals pool number task w [] (.executing task dueMs (.suspended rest waiting))
  | ends {dueMs : Nat} {execution : Execution} {ending : Ending} {report : Report}
      {deeds : List Deed} {phase : Phase}
      (executing : w.workers[number]? = some (.executing task dueMs execution))
      (engages : pool.Engages task execution)
      (ended : if w.cancelled then ending = .interrupted
        else execution.outcome? dueMs w.elapsedMs = some ending)
      (owes : pool.Owes task ending report)
      (reports : Reports w.broker task w.now report (w.takeFault (reportOperation report)).1
        deeds phase) : Deals pool number task w deeds phase
  | hears {report : Report} {failure : Failure} {deeds : List Deed} {phase : Phase}
      (reporting : w.workers[number]? = some (.reporting task report failure))
      (reacts : Reacts w.broker task w.now report failure deeds phase) :
      Deals pool number task w deeds phase

/-- The claim that a worker can report under is on its own copy of the envelope. -/
lemma Ran.own (h : Ran pool limits w) (hhand : w.hand number = some task) {lease : Lease}
    (howns : w.broker.Owns task lease) : lease.task = task := by
  obtain ⟨events, shift, hrun, hdeployed, -⟩ := h.shown
  rw [← hdeployed.hands, hrun] at hhand
  rw [← hdeployed.broker, hrun] at howns
  exact Fleet.lease_of_accepted limits events hhand howns

/-- Every handler that is at work in a run is registered. -/
lemma Ran.engaged (h : Ran pool limits w) : Engaged pool w := by
  induction h with
  | start | halt => exact engaged_of_none rfl
  | outside _ handled _ ih => exact ih.congr handled.frame.2.1
  | addFault _ _ _ ih => exact ih
  | startPool _ start =>
    obtain ⟨-, rfl⟩ := startPool_eq start
    exact engaged_of_idle fun phase hphase => (List.mem_replicate.mp hphase).2
  | @step w _ thread _ ih =>
    have hpopped : Engaged pool { w with runnable := w.runnable.erase thread } := ih.congr rfl
    exact hpopped.step thread
  | moveTo _ timeMs ih => exact ih.congr (moveTo_wakes _ timeMs).unmoved.workers
  | orderStop _ ih => exact ih.congr (unmoved_orderStop _).workers
  | orderCancel _ ih => exact ih.congr (unmoved_orderCancel _).workers

/-- What a worker has reported can be counted. -/
lemma Ran.counts (h : Ran pool limits w) {report : Report} {failure : Failure}
    (hphase : w.workers[number]? = some (.reporting task report failure)) : report.Counts task := by
  obtain ⟨events, shift, -, hdeployed, -⟩ := h.shown
  obtain ⟨-, draw, ending, rfl⟩ := hdeployed.honest number _ hphase
  exact pool.counts_reportOn draw task ending

lemma deals_of_outcome (pool : Pool) {dueMs : Nat} {execution : Execution} {ending : Ending}
    (hown : ∀ lease, w.broker.Owns task lease → lease.task = task)
    (hphase : w.workers[number]? = some (.executing task dueMs execution))
    (hengages : pool.Engages task execution) (hended : if w.cancelled then ending = .interrupted
      else execution.outcome? dueMs w.elapsedMs = some ending) :
    ∃ deeds phase, Deals pool number task w deeds phase ∧
      Did pool number w deeds phase (w.endExecution pool number task ending) := by
  have hpresent := (List.getElem?_eq_some_iff.mp hphase).1
  obtain ⟨report, deeds, phase, howes, hreports, hdid⟩ :=
    did_endExecution pool hpresent ending hown
  exact ⟨deeds, phase, .ends hphase hengages hended howes hreports, hdid⟩

/-- **What a worker with a task in hand does in a step.** -/
theorem deals_stepWorker (pool : Pool) (hhand : w.hand number = some task)
    (hown : ∀ lease, w.broker.Owns task lease → lease.task = task) (hengaged : Engaged pool w)
    (hcounts : ∀ report failure, w.workers[number]? = some (.reporting task report failure) →
      report.Counts task) :
    ∃ deeds phase, Deals pool number task w deeds phase ∧
      Did pool number w deeds phase (w.stepWorker pool number) := by
  obtain ⟨phase, hphase, htask⟩ := Option.bind_eq_some_iff.mp hhand
  have hpresent := (List.getElem?_eq_some_iff.mp hphase).1
  unfold World.stepWorker
  rw [hphase]
  cases phase with
  | ready | claiming | polling | stopped => cases htask
  | reporting held report failure =>
    obtain rfl : held = task := Option.some.inj htask
    obtain ⟨deeds, phase, hreacts, hdid⟩ :=
      did_makeReport pool hpresent (hcounts report failure hphase) hown failure
    exact ⟨deeds, phase, .hears hphase hreacts, hdid⟩
  | executing held dueMs execution =>
    obtain rfl : held = task := Option.some.inj htask
    have hengages := hengaged number held dueMs execution hphase
    simp only
    split
    · next hcancelled =>
      exact deals_of_outcome pool hown hphase hengages (by rw [if_pos hcancelled])
    · next hgoing =>
      cases execution with
      | ended ending =>
        exact deals_of_outcome pool hown hphase hengages (by rw [if_neg hgoing]; rfl)
      | suspended rest waiting =>
        simp only
        split
        · next hdue =>
          exact deals_of_outcome pool hown hphase hengages
            (by rw [if_neg hgoing]; exact if_pos hdue)
        · next hearly =>
          exact ⟨[], _, .waits hphase hengages (by simpa using hgoing) (Nat.lt_of_not_le hearly),
            rfl, hphase⟩

lemma deals_proceed (hran : Ran pool limits w) (hhand : w.hand number = some task) :
    ∃ deeds phase, Deals pool number task w deeds phase ∧
      Did pool number w deeds phase (w.proceed pool (.worker number)) := by
  let popped : World := { w with runnable := w.runnable.erase (.worker number) }
  have hpopped : popped.hand number = some task := hhand
  obtain ⟨deeds, phase, hdeals, hdid⟩ :=
    deals_stepWorker pool hpopped (fun _ howns => hran.own hhand howns) (hran.engaged.congr rfl)
      fun _ _ hphase => hran.counts hphase
  refine ⟨deeds, phase, ?_, hdid.since rfl⟩
  cases hdeals with
  | waits executing engages going early => exact .waits executing engages going early
  | ends executing engages ended owes reports =>
    rw [takeFault_congr w popped rfl] at reports
    exact .ends executing engages ended owes reports
  | hears reporting reacts => exact .hears reporting reacts

/-! ## What happens meanwhile -/

/-- What can happen to a deployment without a step of a worker; `forward` says that the clock does
not go back. -/
inductive Passes (pool : Pool) (forward : Prop) (number : Nat) (w : World) : World → Prop
  /-- A client or the code around the pool does something. -/
  | outside {w' : World} (handled : Handled w w') (quiet : w'.notices = w.notices) :
      Passes pool forward number w w'
  | addFault (operation : Operation) (fault : Fault) :
      Passes pool forward number w (w.addFault operation fault)
  /-- Another thread that can go on does, be it the handler of this worker. -/
  | step (thread : Thread) (other : thread ≠ .worker number) (ready : thread ∈ w.runnable) :
      Passes pool forward number w (w.proceed pool thread)
  | moveTo (timeMs : Nat) (onward : forward → w.elapsedMs ≤ timeMs) :
      Passes pool forward number w (w.moveTo timeMs)
  | orderStop : Passes pool forward number w w.orderStop
  | orderCancel : Passes pool forward number w w.orderCancel

lemma Passes.ran (h : Passes pool forward number w w') (hran : Ran pool limits w) :
    Ran pool limits w' := by
  cases h with
  | outside handled quiet => exact hran.outside handled quiet
  | addFault operation fault => exact hran.addFault operation fault
  | step thread _ ready => exact hran.step thread ready
  | moveTo timeMs => exact hran.moveTo timeMs
  | orderStop => exact hran.orderStop
  | orderCancel => exact hran.orderCancel

/-- What a handler does is no business of its worker but for how the execution stands. -/
lemma HandlerRests.stays {dueMs : Nat} {execution : Execution}
    (h : HandlerRests w number task dueMs execution w') (hpresent : number < w.workers.length) :
    w'.workers[number]? = some (.executing task dueMs execution) := by
  rw [h.grown.workers, setPhase_self hpresent]

/-- A worker goes on with what it does while others move; its handler may come further. -/
lemma Passes.stays (h : Passes pool forward number w w') :
    w'.workers[number]? = w.workers[number]? ∨
      ∃ task dueMs execution execution',
        w.workers[number]? = some (.executing task dueMs execution) ∧
          w'.workers[number]? = some (.executing task dueMs execution') := by
  cases h with
  | outside handled => exact .inl (congrArg (·[number]?) handled.frame.2.1)
  | addFault => exact .inl rfl
  | moveTo timeMs => exact .inl (congrArg (·[number]?) (moveTo_wakes w timeMs).unmoved.workers)
  | orderStop => exact .inl (congrArg (·[number]?) (unmoved_orderStop w).workers)
  | orderCancel => exact .inl (congrArg (·[number]?) (unmoved_orderCancel w).workers)
  | step thread other =>
    cases thread with
    | worker mover =>
      have hother : number ≠ mover := fun heq => other (congrArg Thread.worker heq.symm)
      exact .inl ((touches_stepWorker _ pool mover).workers number hother)
    | handler mover =>
      by_cases hown : number = mover
      · subst hown
        rcases stepHandler_turn { w with runnable := w.runnable.erase (.handler number) } number
          with ⟨hsame, -⟩ | ⟨task, dueMs, rest, waiting, execution, hphase, -, hrests⟩
        · have hworkers := congrArg World.workers hsame
          exact .inl (show (World.stepHandler _ number).workers[number]? = _ by rw [hworkers])
        · have hafter := hrests.stays (List.getElem?_eq_some_iff.mp hphase).1
          exact .inr ⟨task, dueMs, _, execution, hphase, hafter⟩
      · exact .inl ((touches_stepHandler _ mover).workers number hown)

/-- What a worker has in hand stays there while others move. -/
lemma Passes.hand (h : Passes pool forward number w w') : w'.hand number = w.hand number := by
  rcases h.stays with hsame | ⟨task, dueMs, execution, execution', hbefore, hafter⟩
  · rw [World.hand, World.hand, hsame]
  · rw [World.hand, World.hand, hbefore, hafter]
    rfl

/-! ## Errands -/

/-- Whether a worker has come to a world on an errand with a task, or at the end of it, and what it
has done on the errand, oldest first; `forward` says that the clock did not go back meanwhile. -/
inductive Errand (pool : Pool) (limits : BrokerLimits) (forward : Prop) (number : Nat)
    (task : Task) : World → List Deed → Prop
  /-- The broker gives the task to the worker, whose hands were empty. -/
  | begins {w w' : World} {deeds : List Deed} {phase : Phase} (ran : Ran pool limits w)
      (ready : .worker number ∈ w.runnable) (idle : w.hand number = none)
      (claims : Claims pool task w w') (starts : Starts pool task w' deeds phase)
      (did : Did pool number w' deeds phase (w.proceed pool (.worker number))) :
      Errand pool limits forward number task (w.proceed pool (.worker number)) deeds
  /-- The worker goes on, with the task in hand. -/
  | goesOn {w : World} {deeds new : List Deed} {phase : Phase}
      (errand : Errand pool limits forward number task w deeds)
      (ready : .worker number ∈ w.runnable) (deals : Deals pool number task w new phase)
      (did : Did pool number w new phase (w.proceed pool (.worker number))) :
      Errand pool limits forward number task (w.proceed pool (.worker number)) (deeds ++ new)
  /-- Something else happens. -/
  | passes {w w' : World} {deeds : List Deed}
      (errand : Errand pool limits forward number task w deeds)
      (passes : Passes pool forward number w w') :
      Errand pool limits forward number task w' deeds

lemma Errand.ran (h : Errand pool limits forward number task w deeds) : Ran pool limits w := by
  induction h with
  | begins ran ready => exact ran.step _ ready
  | goesOn _ ready _ _ ih => exact ih.step _ ready
  | passes _ passes ih => exact passes.ran ih

/-! ### Whoever has a task in hand is on an errand -/

lemma Did.hand (h : Did pool number w deeds phase w') : w'.hand number = phase.task? := by
  rw [World.hand, h.phase]
  rfl

lemma Reacts.idle {b : Broker} {now : Instant} {report : Report} {failure : Failure}
    (h : Reacts b task now report failure deeds phase) : phase.task? = none := by
  cases h <;> rfl

lemma Reports.held {b : Broker} {now : Instant} {report : Report} {fault : Fault}
    (h : Reports b task now report fault deeds phase) {held : Task}
    (hheld : phase.task? = some held) : held = task := by
  cases h with
  | prompt _ reacts =>
    rw [reacts.idle] at hheld
    cases hheld
  | late => exact (Option.some.inj hheld).symm

lemma Starts.held (h : Starts pool task w deeds phase) {held : Task}
    (hheld : phase.task? = some held) : held = task := by
  cases h with
  | undispatched _ reports | interrupted _ _ reports => exact reports.held hheld
  | executes => exact (Option.some.inj hheld).symm

lemma Deals.held (h : Deals pool number task w deeds phase) {held : Task}
    (hheld : phase.task? = some held) : held = task := by
  cases h with
  | waits => exact (Option.some.inj hheld).symm
  | ends _ _ _ _ reports => exact reports.held hheld
  | hears _ reacts =>
    rw [reacts.idle] at hheld
    cases hheld

lemma Passes.exists_errand (h : Passes pool forward number w w')
    (hbefore : w.hand number = some task →
      ∃ deeds, Errand pool limits forward number task w deeds)
    (hhand : w'.hand number = some task) :
    ∃ deeds, Errand pool limits forward number task w' deeds := by
  rw [h.hand] at hhand
  obtain ⟨deeds, herrand⟩ := hbefore hhand
  exact ⟨deeds, herrand.passes h⟩

/-- **Whoever has a task in hand is on an errand with it.** -/
theorem Ran.exists_errand (h : Ran pool limits w) (hhand : w.hand number = some task) :
    ∃ deeds, Errand pool limits False number task w deeds := by
  induction h generalizing task with
  | start startMs store mailer => cases hhand
  | outside _ handled quiet ih => exact (Passes.outside handled quiet).exists_errand ih hhand
  | addFault _ operation fault ih => exact (Passes.addFault operation fault).exists_errand ih hhand
  | @startPool w w' _ start =>
    -- Workers that start have nothing in hand.
    obtain ⟨-, rfl⟩ := startPool_eq start
    obtain ⟨phase, hphase, htask⟩ := Option.bind_eq_some_iff.mp hhand
    rw [(List.mem_replicate.mp (List.mem_of_getElem? hphase)).2] at htask
    cases htask
  | moveTo _ timeMs ih => exact (Passes.moveTo timeMs False.elim).exists_errand ih hhand
  | orderStop _ ih => exact Passes.orderStop.exists_errand ih hhand
  | orderCancel _ ih => exact Passes.orderCancel.exists_errand ih hhand
  | halt => cases hhand
  | @step w ran thread ready ih =>
    by_cases hthread : thread = .worker number
    · -- With empty hands the worker has got the task just now, otherwise it had it before.
      subst hthread
      change (w.proceed pool (.worker number)).hand number = some task at hhand
      change ∃ deeds, Errand pool limits False number task
        (w.proceed pool (.worker number)) deeds
      cases hbefore : w.hand number with
      | none =>
        have hseeks := seeks_proceed pool hbefore
        generalize hnext : w.proceed pool (.worker number) = next at hseeks hhand ⊢
        cases hseeks with
        | looks looks =>
          rw [looks.hand] at hhand
          cases hhand
        | takes held deeds phase claims starts did =>
          obtain rfl := starts.held (did.hand.symm.trans hhand)
          subst hnext
          exact ⟨deeds, .begins ran ready hbefore claims starts did⟩
      | some held =>
        obtain ⟨new, phase, hdeals, hdid⟩ := deals_proceed ran hbefore
        obtain rfl := hdeals.held (hdid.hand.symm.trans hhand)
        obtain ⟨deeds, herrand⟩ := ih hbefore
        exact ⟨deeds ++ new, herrand.goesOn ready hdeals hdid⟩
    · exact (Passes.step thread hthread ready).exists_errand ih hhand

/-! ### What was done so far -/

/-- What a worker has done on an errand when it has made its report, whatever comes of that: it has
told that the task is being executed, it has started the handler if one is registered and if nobody
had told the workers to stop at once, and it has made one report, the one that it owed for how the
procedure of the handler had ended. -/
inductive Called (pool : Pool) (task : Task) : Report → List Deed → Prop
  | undispatched (unregistered : ∀ handler, (task.kind, handler) ∉ pool.registry.handlers) :
      Called pool task (.fail (.unregisteredKind task.kind))
        [.tells (TaskEvent.ofTask task .running), .calls (.fail (.unregisteredKind task.kind))]
  | interrupted (registered : ∃ handler, (task.kind, handler) ∈ pool.registry.handlers) :
      Called pool task .release [.tells (TaskEvent.ofTask task .running), .calls .release]
  | executed (registered : ∃ handler, (task.kind, handler) ∈ pool.registry.handlers)
      {ending : Ending} {report : Report} (concludes : pool.Concludes task ending)
      (owes : pool.Owes task ending report) :
      Called pool task report
        [.tells (TaskEvent.ofTask task .running), .starts, .calls report]

/-- What a worker has done on an errand, by what it does now. -/
inductive Standing (pool : Pool) (task : Task) : Option Phase → List Deed → Prop
  | executing {dueMs : Nat} {execution : Execution} (engages : pool.Engages task execution) :
      Standing pool task (some (.executing task dueMs execution))
        [.tells (TaskEvent.ofTask task .running), .starts]
  | reporting {report : Report} {failure : Failure} {deeds : List Deed}
      (called : Called pool task report deeds) :
      Standing pool task (some (.reporting task report failure)) deeds
  | finished {now? : Option Phase} {report : Report} {deeds answer : List Deed} {b : Broker}
      {now : Instant} {failure : Failure} {phase : Phase} (idle : now?.bind Phase.task? = none)
      (called : Called pool task report deeds)
      (reacts : Reacts b task now report failure answer phase) :
      Standing pool task now? (deeds ++ answer)

lemma Reacts.standing {b : Broker} {now : Instant} {report : Report} {failure : Failure}
    {answer : List Deed} (h : Reacts b task now report failure answer phase)
    (called : Called pool task report deeds) :
    Standing pool task (some phase) (deeds ++ answer) :=
  .finished h.idle called h

lemma Reports.standing {b : Broker} {now : Instant} {report : Report} {fault : Fault}
    (h : Reports b task now report fault deeds phase) (opening : List Deed)
    (called : Called pool task report (opening ++ [.calls report])) :
    Standing pool task (some phase) (opening ++ deeds) := by
  cases h with
  | prompt _ reacts =>
    rw [List.append_cons]
    exact reacts.standing called
  | late => exact .reporting called

lemma Starts.standing (h : Starts pool task w deeds phase) :
    Standing pool task (some phase) deeds := by
  cases h with
  | undispatched unregistered reports =>
    exact reports.standing [_] (.undispatched unregistered)
  | interrupted registered _ reports =>
    exact reports.standing [_] (.interrupted registered)
  | executes registered => exact .executing ⟨_, registered, .begins⟩

/-- A worker that goes on with its errand does what is still to be done. -/
lemma Deals.standing {new : List Deed} (h : Deals pool number task w new phase)
    (hbefore : Standing pool task w.workers[number]? deeds) :
    Standing pool task (some phase) (deeds ++ new) := by
  cases h with
  | waits executing =>
    rw [executing] at hbefore
    rwa [List.append_nil]
  | @ends dueMs execution ending _ _ _ executing engages ended owes reports =>
    rw [executing] at hbefore
    cases hbefore with
    | executing =>
      have hconcludes : pool.Concludes task ending := by
        split at ended
        · exact ended ▸ .interrupted
        · exact engages.concludes ended
      obtain ⟨handler, hregistered, -⟩ := engages
      exact reports.standing _ (.executed ⟨handler, hregistered⟩ hconcludes owes)
    | finished idle => cases idle
  | hears reporting reacts =>
    rw [reporting] at hbefore
    cases hbefore with
    | reporting called => exact reacts.standing called
    | finished idle => cases idle

/-- **What a worker has done on its errand.** -/
theorem Errand.standing (h : Errand pool limits forward number task w deeds) :
    Standing pool task w.workers[number]? deeds := by
  induction h with
  | begins _ _ _ _ starts did =>
    rw [did.phase]
    exact starts.standing
  | goesOn _ _ deals did ih =>
    rw [did.phase]
    exact deals.standing ih
  | passes errand passes ih =>
    rcases passes.stays with hsame | ⟨held, dueMs, execution, execution', hbefore, hafter⟩
    · rwa [hsame]
    · have hengages := (passes.ran errand.ran).engaged number held dueMs execution' hafter
      rw [hbefore] at ih
      rw [hafter]
      cases ih with
      | executing => exact .executing hengages
      | finished idle => cases idle

/-! ### How often -/

/-- Whether of some deeds exactly one is a report, namely this one, and what else was done goes with
whether it was filed: an event was told at first, and another one if the report was filed; the hook
was called if a failure was filed; the handler was started at most once. -/
structure OneReport (report : Report) (deeds : List Deed) : Prop where
  calls : deeds.filter (· matches .calls _) = [.calls report]
  files : deeds.countP (· matches .files _) ≤ 1
  tells : deeds.countP (· matches .tells _) = 1 + deeds.countP (· matches .files _)
  hooks : deeds.countP (· matches .hooks _) =
    if report.state = .failed then deeds.countP (· matches .files _) else 0
  starts : deeds.countP (· matches .starts) ≤ 1

lemma Called.oneReport {report : Report} (h : Called pool task report deeds) :
    OneReport report deeds ∧ deeds.countP (· matches .files _) = 0 := by
  cases h with
  | undispatched => exact ⟨⟨rfl, Nat.zero_le 1, rfl, rfl, Nat.zero_le 1⟩, rfl⟩
  | interrupted => exact ⟨⟨rfl, Nat.zero_le 1, rfl, rfl, Nat.zero_le 1⟩, rfl⟩
  | executed => exact ⟨⟨rfl, Nat.zero_le 1, rfl, (ite_self 0).symm, Nat.le_refl 1⟩, rfl⟩

/-- What follows an accepted report is no report, and is told once. -/
lemma filed_counts (report : Report) (record : Task) (next : Broker) (event : TaskEvent) :
    (Deed.files next :: .tells event :: report.hooked record).filter (· matches .calls _) = [] ∧
      (Deed.files next :: .tells event :: report.hooked record).countP (· matches .files _) = 1 ∧
      (Deed.files next :: .tells event :: report.hooked record).countP (· matches .tells _) = 1 ∧
      (Deed.files next :: .tells event :: report.hooked record).countP (· matches .hooks _) =
        (if report.state = .failed then 1 else 0) ∧
      (Deed.files next :: .tells event :: report.hooked record).countP (· matches .starts) = 0 := by
  cases report <;> exact ⟨rfl, rfl, rfl, rfl, rfl⟩

/-- The worker makes one report, whatever comes of it. -/
lemma Reacts.oneReport {b : Broker} {now : Instant} {report : Report} {failure : Failure}
    {answer : List Deed} (h : Reacts b task now report failure answer phase)
    (called : Called pool task report deeds) : OneReport report (deeds ++ answer) := by
  obtain ⟨hone, hnone⟩ := called.oneReport
  cases h with
  | crashed | failed | refused => rwa [List.append_nil]
  | @accepted _ _ _ record next =>
    obtain ⟨hcalls, hfiles, htells, hhooks, hstarts⟩ :=
      filed_counts report record next (TaskEvent.ofTask record report.state)
    have hbefore := hone.hooks
    rw [hnone, ite_self] at hbefore
    constructor
    · rw [List.filter_append, hone.calls, hcalls, List.append_nil]
    · rw [List.countP_append, hnone, hfiles]
    · rw [List.countP_append, List.countP_append, hone.tells, hnone, hfiles, htells]
    · rw [List.countP_append, List.countP_append, hbefore, hhooks, hnone, hfiles, Nat.zero_add]
    · rw [List.countP_append, hstarts]
      exact hone.starts

/-- **Of all that a worker does on an errand, exactly one deed is a report.** -/
theorem Errand.oneReport (h : Errand pool limits forward number task w deeds)
    (hidle : w.hand number = none) : ∃ report, OneReport report deeds := by
  have hstanding := h.standing
  rw [World.hand] at hidle
  generalize w.workers[number]? = now? at hstanding hidle
  cases hstanding with
  | executing | reporting => cases hidle
  | finished _ called reacts => exact ⟨_, reacts.oneReport called⟩

end World
end WorkQueue
