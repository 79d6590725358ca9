import WorkQueue.Proofs.Fleet.Engagement
import WorkQueue.Proofs.Fleet.Simulation

/-!
# One worker at a time

The main statement is `runs_on_one_worker`: while only the workers of one pool claim from a broker
and report to it, no two workers have tasks of the same id in hand, and every report of a worker is
accepted.

That holds of shifts, where everything is open but that workers are on time.  A deployment in which
no fault strikes a worker is a shift (`Played.onTime`): its workers are on time because it keeps
time.  Its threads may go on in any order, of which the order of the simulation is one
(`Played.runUntil`).

It says nothing about handlers that were given up.  A worker that gives up a handler does not wait
for its end, and one that computes for a while goes on, although its task is reported and can be
claimed again (`late_letter_twice`).  Only if no handler ever computes is no task executed twice at
once.
-/

namespace WorkQueue
namespace World

variable {pool : Pool} {limits : BrokerLimits} {w w' : World} {shift : Shift} {task : Task}

/-! ## Runs without crashes -/

/-- The deployments of a pool on a new broker in which no fault strikes a worker and the clock has
not come to the latest instant. -/
inductive Played (pool : Pool) (limits : BrokerLimits) : World → Prop
  | start (startMs : Int) (store : Store) (mailer : Mailer)
      (runs : (World.start startMs (.empty limits) store mailer).now < .latest) :
      Played pool limits (World.start startMs (.empty limits) store mailer)
  /-- A client or the code around the pool does something. -/
  | outside {w w' : World} (played : Played pool limits w) (handled : Handled w w')
      (apart : w'.stragglers = w.stragglers) : Played pool limits w'
  /-- The handlers go on that were given up and have computed long enough. -/
  | straggle {w : World} (played : Played pool limits w) : Played pool limits w.resumeStragglers
  | startPool {w w' : World} (played : Played pool limits w)
      (start : w.startPool pool = .ok w') : Played pool limits w'
  /-- A thread that can go on does. -/
  | step {w : World} (played : Played pool limits w) (thread : Thread)
      (ready : thread ∈ w.runnable) :
      Played pool limits ({ w with runnable := w.runnable.erase thread }.step pool thread)
  /-- Nothing can go on, and time passes until something is to happen. -/
  | wait {w : World} (played : Played pool limits w) (timeMs : Nat) (idle : w.runnable = [])
      (forward : w.elapsedMs ≤ timeMs) (timely : ∀ timer ∈ w.timers, timeMs ≤ timer.dueMs)
      (runs : (w.moveTo timeMs).now < .latest) : Played pool limits (w.moveTo timeMs)
  | orderStop {w : World} (played : Played pool limits w) : Played pool limits w.orderStop
  | orderCancel {w : World} (played : Played pool limits w) : Played pool limits w.orderCancel
  /-- The workers are stopped where they are. -/
  | halt {w : World} (played : Played pool limits w) : Played pool limits w.halt

/-- Whether a shift shows a deployment that keeps time. -/
def OnTime (pool : Pool) (limits : BrokerLimits) (w : World) : Prop :=
  ∃ shift, Shift.Reachable pool limits w.origin shift ∧ Deployed pool False w shift ∧ Timely w

lemma OnTime.follow (h : OnTime pool limits w)
    (hfollows : ∀ shift, Deployed pool False w shift → Follows pool False w shift w')
    (htimely : Timely w → Timely w') : OnTime pool limits w' := by
  obtain ⟨shift, hreached, hdeployed, hw⟩ := h
  obtain ⟨htime, next, hsteps, hnext⟩ := hfollows shift hdeployed
  refine ⟨next, ?_, hnext, htimely hw⟩
  rw [origin_eq htime]
  clear hnext
  induction hsteps with
  | refl => exact hreached
  | tail _ step ih => exact ih.step step

lemma OnTime.unmoved (h : OnTime pool limits w) (hsame : Unmoved w w') (hgrows : Grows w w') :
    OnTime pool limits w' :=
  h.follow (fun _ hdeployed => ⟨hsame.time, _, .refl, hdeployed.unmoved hsame⟩) hgrows.timely

lemma onTime_start (startMs : Int) (store : Store) (mailer : Mailer)
    (hruns : (World.start startMs (.empty limits) store mailer).now < .latest) :
    OnTime pool limits (World.start startMs (.empty limits) store mailer) := by
  have hdeployed : Deployed pool False (World.start startMs (.empty limits) store mailer)
      ⟨.start limits, 0, fun _ => 0⟩ := deployed_start startMs store mailer
  exact ⟨_, .start (hdeployed.clock ▸ hruns), hdeployed,
    timely_of_idle (by simp [World.start]) (by simp [World.start])⟩

lemma OnTime.moveTo (h : OnTime pool limits w) {timeMs : Nat} (hidle : w.runnable = [])
    (hforward : w.elapsedMs ≤ timeMs) (htimely : ∀ timer ∈ w.timers, timeMs ≤ timer.dueMs)
    (hruns : (w.moveTo timeMs).now < .latest) : OnTime pool limits (w.moveTo timeMs) := by
  obtain ⟨shift, hreached, hdeployed, hw⟩ := h
  have hmoved := hdeployed.moveTo timeMs
  have horigin : (w.moveTo timeMs).origin = w.origin :=
    congrArg (fun time : Int × Nat => time.1 * nanosPerMilli) (time_moveTo w timeMs)
  have hclock := hmoved.clock
  refine ⟨_, ?_, hmoved, hw.moveTo hidle timeMs⟩
  rw [horigin] at hclock ⊢
  refine hreached.step (.wait (timeMs * nanosPerMilli) ?_ ?_ ?_)
  · rw [hdeployed.elapsed]
    exact Nat.mul_le_mul_right _ hforward
  · exact fun worker task hhands => hdeployed.le_due hw hidle htimely hhands
  · exact hclock ▸ hruns

/-- **A deployment without crashes is a shift.** -/
theorem Played.onTime (h : Played pool limits w) : OnTime pool limits w := by
  induction h with
  | start startMs store mailer runs => exact onTime_start startMs store mailer runs
  | outside _ handled _ ih => exact ih.follow (fun _ h => h.handled handled) handled.grows.timely
  | @straggle w _ ih =>
    have handled := handled_resumeStragglers w
    exact ih.follow (fun _ h => h.handled handled) handled.grows.timely
  | startPool _ start ih =>
    obtain ⟨-, hw'⟩ := startPool_eq start
    refine ih.follow (fun _ h => follows_of_acts (hw' ▸ rfl) (h.startPool start)) fun _ => ?_
    rw [hw']
    exact timely_of_idle (fun phase hphase => (List.mem_replicate.mp hphase).2) rfl
  | @step w _ thread _ ih =>
    have hpopped : Unmoved w { w with runnable := w.runnable.erase thread } :=
      ⟨rfl, rfl, rfl, fun _ => .inl⟩
    exact ih.follow (fun _ h => ((h.unmoved hpopped).step thread).follows)
      fun hw => hw.step thread
  | wait _ timeMs idle forward timely runs ih => exact ih.moveTo idle forward timely runs
  | @orderStop w _ ih =>
    obtain ⟨w', hflag, hwakes⟩ := orderStop_wakes w
    exact ih.unmoved (unmoved_orderStop w) (hflag.grows.trans hwakes.grows)
  | @orderCancel w _ ih =>
    obtain ⟨w', hflag, hwakes⟩ := orderCancel_wakes w
    exact ih.unmoved (unmoved_orderCancel w) (hflag.grows.trans hwakes.grows)
  | halt _ ih =>
    have hnone : ∀ phase ∈ ([] : List Phase), phase = .ready :=
      fun phase hphase => absurd hphase List.not_mem_nil
    exact ih.follow (fun _ h => follows_of_acts rfl (h.clear rfl rfl rfl rfl hnone))
      fun _ => timely_of_idle hnone rfl

/-- Every handler that a worker executes is registered. -/
lemma Played.engaged (h : Played pool limits w) : Engaged pool w := by
  induction h with
  | start | halt => exact engaged_of_none rfl
  | outside _ handled _ ih => exact ih.congr handled.frame.2.1
  | @straggle w _ ih => exact ih.congr (handled_resumeStragglers w).frame.2.1
  | startPool _ start =>
    obtain ⟨-, rfl⟩ := startPool_eq start
    exact engaged_of_idle fun phase hphase => (List.mem_replicate.mp hphase).2
  | @step w _ thread _ ih =>
    have hpopped : Engaged pool { w with runnable := w.runnable.erase thread } := ih.congr rfl
    exact hpopped.step thread
  | @wait w _ timeMs _ _ _ _ ih => exact ih.congr (moveTo_wakes w timeMs).unmoved.workers
  | @orderStop w _ ih => exact ih.congr (unmoved_orderStop w).workers
  | @orderCancel w _ ih => exact ih.congr (unmoved_orderCancel w).workers

/-- **A pool whose handlers never compute leaves no handler behind.** -/
lemma Played.stragglers (h : Played pool limits w) (hyields : pool.registry.Yields) :
    w.stragglers = [] := by
  induction h with
  | start => rfl
  | outside _ _ apart ih => exact apart.trans ih
  | straggle _ ih => rw [resumeStragglers_of_none ih, ih]
  | startPool _ start ih =>
    obtain ⟨-, rfl⟩ := startPool_eq start
    simp only [ih, List.map_nil]
  | @step w played thread _ ih =>
    have hpopped : Engaged pool { w with runnable := w.runnable.erase thread } :=
      played.engaged.congr rfl
    exact (stragglers_step hpopped hyields thread).trans ih
  | @wait w _ timeMs _ _ _ _ ih =>
    have haside := (moveTo_wakes w timeMs).aside
    exact (congrArg Prod.snd haside).trans ih
  | @orderStop w _ ih =>
    have haside := (wakes_wakeWorkers { w with stopping := true } isPolling).aside
    exact (congrArg Prod.snd haside).trans ih
  | @orderCancel w _ ih =>
    have haside := ((wakes_wakeHandlers { w with cancelled := true }).trans
      (wakes_wakeWorkers _ isExecuting)).aside
    exact (congrArg Prod.snd haside).trans ih
  | halt _ ih => exact ih

/-- Submitting a task is something that a client does. -/
lemma Played.enqueue (h : Played pool limits w) (task : Task) :
    Played pool limits (w.enqueue task).2 :=
  h.outside (.enqueue .refl task) (by rw [enqueue_eq, called])

/-! ### Waiting and stopping -/

/-- Letting time pass is a run, and does not take longer than it may. -/
theorem Played.runUntil (h : Played pool limits w) (deadlineMs : Nat)
    (hruns : Instant.ofMillis (w.startMs + deadlineMs) < .latest) (goal : World → Bool)
    (fuel : Nat) :
    Played pool limits (World.runUntil pool deadlineMs goal fuel w) ∧
      (World.runUntil pool deadlineMs goal fuel w).startMs = w.startMs ∧
      (World.runUntil pool deadlineMs goal fuel w).elapsedMs ≤ max w.elapsedMs deadlineMs := by
  refine runUntil_induction (motive := fun w' => Played pool limits w' ∧ w'.startMs = w.startMs ∧
    w'.elapsedMs ≤ max w.elapsedMs deadlineMs) (fun w' thread rest ih _ hrunnable => ?_)
    (fun w' ih hearly hidle _ => ?_) fuel ⟨h, rfl, Nat.le_max_left _ _⟩
  · obtain ⟨hplayed, hstart, helapsed⟩ := ih
    obtain ⟨shift, -, hdeployed, -⟩ := hplayed.onTime
    have hpopped : Unmoved w' { w' with runnable := rest } := ⟨rfl, rfl, rfl, fun _ => .inl⟩
    have htime := ((hdeployed.unmoved hpopped).step thread).1
    have hnext := hplayed.step thread (hrunnable ▸ List.mem_cons_self)
    rw [hrunnable, List.erase_cons_head] at hnext
    exact ⟨hnext, (congrArg Prod.fst htime).trans hstart, (elapsedMs_eq htime).trans_le helapsed⟩
  · obtain ⟨hplayed, hstart, -⟩ := ih
    obtain ⟨shift, -, -, htimely⟩ := hplayed.onTime
    have hbound : min deadlineMs (w'.nextDue.getD deadlineMs) ≤ deadlineMs := Nat.min_le_left _ _
    have hforward := le_nextDue htimely.later (Nat.le_of_lt hearly)
    have hfirst : ∀ timer ∈ w'.timers, min deadlineMs (w'.nextDue.getD deadlineMs) ≤ timer.dueMs :=
      fun _ htimer => nextDue_le htimer deadlineMs
    generalize min deadlineMs (w'.nextDue.getD deadlineMs) = timeMs at hbound hforward hfirst ⊢
    have htime := time_moveTo w' timeMs
    have hstart' : (w'.moveTo timeMs).startMs = w'.startMs := congrArg Prod.fst htime
    have helapsed' : (w'.moveTo timeMs).elapsedMs = timeMs := congrArg Prod.snd htime
    have hclock : (w'.moveTo timeMs).now < .latest := by
      rw [now, hstart', hstart, helapsed']
      exact Instant.ofMillis_lt_latest (by omega) hruns
    have hresumed := (handled_resumeStragglers (w'.moveTo timeMs)).frame.1
    refine ⟨(hplayed.wait timeMs hidle hforward hfirst hclock).straggle,
      (congrArg Prod.fst hresumed).trans (hstart'.trans hstart), ?_⟩
    rw [elapsedMs_eq hresumed, helapsed']
    exact hbound.trans (Nat.le_max_right _ _)

/-- Stopping the pool is a run. -/
theorem Played.shutdown (h : Played pool limits w) {graceMs : Nat}
    (hruns : Instant.ofMillis (w.startMs + (w.elapsedMs + graceMs + Pool.cancelGraceMs : Nat)) <
      .latest) : Played pool limits (w.shutdown pool graceMs).2 := by
  have hstop := unmoved_orderStop w
  have hstart : w.orderStop.startMs = w.startMs := congrArg Prod.fst hstop.time
  have helapsed : w.orderStop.elapsedMs = w.elapsedMs := elapsedMs_eq hstop.time
  obtain ⟨hplayed, hstart', helapsed'⟩ :
      Played pool limits (w.orderStop.awaitStop pool (w.elapsedMs + graceMs)) ∧
        (w.orderStop.awaitStop pool (w.elapsedMs + graceMs)).startMs = w.orderStop.startMs ∧
          (w.orderStop.awaitStop pool (w.elapsedMs + graceMs)).elapsedMs ≤
            max w.orderStop.elapsedMs (w.elapsedMs + graceMs) :=
    h.orderStop.runUntil _ (by rw [hstart]; exact Instant.ofMillis_lt_latest (by omega) hruns) _ _
  rw [hstart] at hstart'
  rw [helapsed] at helapsed'
  unfold World.shutdown
  simp only
  generalize w.orderStop.awaitStop pool (w.elapsedMs + graceMs) = w' at hplayed hstart' helapsed' ⊢
  split
  · exact hplayed.halt
  · have hcancel := unmoved_orderCancel w'
    have hstart'' : w'.orderCancel.startMs = w'.startMs := congrArg Prod.fst hcancel.time
    refine (hplayed.orderCancel.runUntil _ ?_ allStopped _).1.halt
    rw [hstart'', hstart']
    refine Instant.ofMillis_lt_latest ?_ hruns
    omega

end World

/-! ## Exclusion -/

/-- **A task runs on one worker at a time.**  While the workers of a pool that was accepted are the
only ones that claim from a broker and report to it, and timers and the clock run on time: two
workers that have a task of the same id in hand are the same worker, and every report of a worker on
the task that it has in hand is accepted, however its execution ends.  That holds of every shift and
of every deployment without crashes, whatever its handlers do.  If none of the handlers ever
computes for a while, so that it can be stopped wherever it is, then no two handlers are at work on
the same task, those included that were given up. -/
theorem runs_on_one_worker {config : Config} {broker : Broker} {registry : Registry}
    {hook : ErrorHook} {pool : Pool} (hmake : Pool.make config broker registry hook = .ok pool) :
    (∀ origin shift, Shift.Reachable pool broker.limits origin shift →
      Exclusive pool shift.fleet.hands shift.fleet.trace.broker
        (Shift.clock origin shift.elapsed)) ∧
    (∀ w, World.Played pool broker.limits w → Exclusive pool w.hand w.broker w.now) ∧
    (registry.Yields → ∀ w, World.Played pool broker.limits w →
      (w.atWork.map (·.id)).Nodup) := by
  have hlength := Pool.taskTimeout_lt_of_make hmake
  have hregistry : pool.registry = registry := Pool.registry_of_make hmake
  have hshift : ∀ origin shift, Shift.Reachable pool broker.limits origin shift →
      Exclusive pool shift.fleet.hands shift.fleet.trace.broker
        (Shift.clock origin shift.elapsed) :=
    fun origin shift h => (Shift.reachable_safe hlength h).exclusive h.wellFormed.1
  have hplayed : ∀ w, World.Played pool broker.limits w →
      Exclusive pool w.hand w.broker w.now := by
    intro w h
    obtain ⟨shift, hreached, hdeployed, -⟩ := h.onTime
    have hexclusive := hshift _ shift hreached
    rw [hdeployed.hands, hdeployed.broker, hdeployed.clock] at hexclusive
    exact hexclusive
  refine ⟨hshift, hplayed, fun hyields w h => ?_⟩
  exact World.nodup_atWork (hplayed w h).sole (h.stragglers (hregistry ▸ hyields))

/-! ### Two workers at the end of their time -/

/-- The standard settings with two workers. -/
def pairConfig : Config := .ofWorkers 2

/-- A broker with these settings. -/
def pairBroker : Broker := .empty (.ofConfig pairConfig)

/-- A handler of letters that does nothing until it is told to stop. -/
def pairRegistry : Registry := ⟨[("letter", fun _ _ => .ask .awaitCancel fun _ => .done (.ok ()))]⟩

/-- The pool of these settings. -/
def pairPool : Pool where
  workerCount := pairConfig.workerCount
  weights := pairConfig.queueWeights
  policy := pairConfig.retryPolicy
  taskTimeout := pairConfig.taskTimeout
  pollInterval := pairConfig.pollInterval
  registry := pairRegistry
  hook := .log

lemma make_pairPool : Pool.make pairConfig pairBroker pairRegistry .log = .ok pairPool := by
  have hvalid : pairConfig.validate = .ok () := by decide +kernel
  have hlength : ¬ pairBroker.limits.visibilityTimeout ≤ pairConfig.taskTimeout := by
    decide +kernel
  unfold Pool.make
  rw [hvalid]
  simp only [hlength, if_false]
  rfl

/-- A deployment in which the pool has started. -/
def pairStart : World :=
  { World.start 0 (.empty pairBroker.limits) (.empty 0) ⟨"", "", fun _ => false, []⟩ with
    running := true
    workers := [.ready, .ready]
    runnable := [.worker 0, .worker 1] }

/-- The deployment after two letters were submitted and the time of both workers has passed. -/
def pairWorld : World :=
  .runUntil pairPool pairPool.taskTimeout.millis (fun _ => false) 8
    ((pairStart.enqueue (.create "a" "letter" [] 0 .epoch)).2.enqueue
      (.create "b" "letter" [] 0 .epoch)).2

lemma played_pairWorld : World.Played pairPool pairBroker.limits pairWorld := by
  have start : World.Played pairPool pairBroker.limits (World.start 0 (.empty pairBroker.limits)
      (.empty 0) ⟨"", "", fun _ => false, []⟩) := .start 0 _ _ (by decide +kernel)
  have started : World.Played pairPool pairBroker.limits pairStart := start.startPool rfl
  have submitted := (started.enqueue (.create "a" "letter" [] 0 .epoch)).enqueue
    (.create "b" "letter" [] 0 .epoch)
  exact (submitted.runUntil pairPool.taskTimeout.millis (by decide +kernel) (fun _ => false) 8).1

/-- A handler that only waits to be told to stop does not compute. -/
lemma yields_pairRegistry : pairRegistry.Yields := by
  intro kind handler hregistered delivery task
  cases List.mem_singleton.mp hregistered
  exact Procedure.yields_ask (fun _ => Request.noConfusion) fun _ => Procedure.yields_done _

theorem pair_runs_on_one_worker :
    Pool.make pairConfig pairBroker pairRegistry .log = .ok pairPool ∧
      World.Played pairPool pairBroker.limits pairWorld ∧
      pairWorld.elapsedMs = pairPool.taskTimeout.millis ∧
      [0, 1].map (fun worker => (pairWorld.hand worker).map (·.id)) = [some "a", some "b"] ∧
      Exclusive pairPool pairWorld.hand pairWorld.broker pairWorld.now ∧
      pairWorld.atWork.map (·.id) = ["a", "b"] ∧ (pairWorld.atWork.map (·.id)).Nodup :=
  ⟨make_pairPool, played_pairWorld, by decide +kernel, by decide +kernel,
    (runs_on_one_worker make_pairPool).2.1 pairWorld played_pairWorld, by decide +kernel,
    (runs_on_one_worker make_pairPool).2.2 yields_pairRegistry pairWorld played_pairWorld⟩

/-! ### A handler that computes beyond its time -/

/-- Two workers whose handlers have a second, and try tasks again at once. -/
def hastyConfig : Config :=
  { pairConfig with taskTimeoutSecs := 1, retryBaseDelayMs := 1, pollIntervalMs := 1000 }

/-- A handler of letters that computes for ten seconds. -/
def slowRegistry : Registry :=
  ⟨[("letter", fun _ _ => .ask (.compute 10000) fun _ => .done (.ok ()))]⟩

/-- The pool of these settings. -/
def hastyPool : Pool where
  workerCount := hastyConfig.workerCount
  weights := hastyConfig.queueWeights
  policy := hastyConfig.retryPolicy
  taskTimeout := hastyConfig.taskTimeout
  pollInterval := hastyConfig.pollInterval
  registry := slowRegistry
  hook := .log

lemma make_hastyPool :
    Pool.make hastyConfig (.empty (.ofConfig hastyConfig)) slowRegistry .log = .ok hastyPool := by
  have hvalid : hastyConfig.validate = .ok () := by decide +kernel
  have hlength : ¬ (BrokerLimits.ofConfig hastyConfig).visibilityTimeout ≤
      hastyConfig.taskTimeout := by
    decide +kernel
  unfold Pool.make
  rw [hvalid]
  simp only [Broker.empty, hlength, if_false]
  rfl

/-- A deployment in which this pool has started. -/
def hastyStart : World :=
  { World.start 0 (.empty (.ofConfig hastyConfig)) (.empty 0) ⟨"", "", fun _ => false, []⟩ with
    running := true
    workers := [.ready, .ready]
    runnable := [.worker 0, .worker 1] }

/-- The deployment two seconds after a letter was submitted. -/
def hastyWorld : World :=
  .runUntil hastyPool 2001 (fun _ => false) 16
    (hastyStart.enqueue (.create "a" "letter" [] 3 .epoch)).2

lemma played_hastyWorld : World.Played hastyPool (.ofConfig hastyConfig) hastyWorld := by
  have start : World.Played hastyPool (.ofConfig hastyConfig)
      (World.start 0 (.empty (.ofConfig hastyConfig)) (.empty 0) ⟨"", "", fun _ => false, []⟩) :=
    .start 0 _ _ (by decide +kernel)
  have started : World.Played hastyPool (.ofConfig hastyConfig) hastyStart := start.startPool rfl
  exact ((started.enqueue (.create "a" "letter" [] 3 .epoch)).runUntil 2001 (by decide +kernel)
    (fun _ => false) 16).1

/-- **A letter is executed twice at once.**  The handler of the letter computes for ten seconds and
is given up after one.  The letter is tried again, and another handler executes it while the first
one still goes on. -/
theorem late_letter_twice :
    Pool.make hastyConfig (.empty (.ofConfig hastyConfig)) slowRegistry .log = .ok hastyPool ∧
      World.Played hastyPool (.ofConfig hastyConfig) hastyWorld ∧
      hastyWorld.elapsedMs < 10000 ∧ hastyWorld.atWork.map (·.id) = ["a", "a"] :=
  ⟨make_hastyPool, played_hastyWorld, by decide +kernel, by decide +kernel⟩

end WorkQueue
