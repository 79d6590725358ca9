import WorkQueue.Proofs.Fleet.Handlers

/-!
# What a worker owes for a task

For every task that it claims a worker owes one report, and which one depends on how the execution
of the task ended (`Pool.Owes`).  The broker accepts the report only while it holds the claim, and
then keeps the task as its own record says (`Broker.Closes`).

Nothing in a deployment notes a call that was refused.  That is why what a worker does is recorded
apart from the deployment, as a list of deeds (`Deed`), and tied to it by the marks that the deeds
leave: on the broker, on the faults that still wait for a call, on what was told, on what the hook
noted and on how many handlers were started (`World.Did`).  A call leaves a mark even when it is
refused: it takes the oldest fault for its operation.
-/

namespace WorkQueue

open Broker

/-! ## Which report is owed -/

/-- Whether an execution ended in a failure that another attempt may mend, and for which reason. -/
inductive Ending.Fails (limit : Duration) : Ending → String → Prop
  | returned (reason : String) : Fails limit (.returned (.error (.retry reason))) reason
  | crashed (execution : Nat) (message : String) :
      Fails limit (.crashed execution message)
        ("handler panicked: task " ++ toString execution ++ " panicked with message " ++
          Text.quote message)
  | timedOut : Fails limit .timedOut ("task timed out after " ++ limit.describe)

/-- Which report a worker owes for a task whose execution has ended. -/
inductive Pool.Owes (pool : Pool) (task : Task) : Ending → Report → Prop
  | done : Owes pool task (.returned (.ok ())) .complete
  | declined : Owes pool task (.returned (.error .cancelled)) .release
  | interrupted : Owes pool task .interrupted .release
  | skipped (reason : String) :
      Owes pool task (.returned (.error (.skipRetry reason))) (.fail (.skipRetry reason))
  | again {ending : Ending} {reason : String} (fails : ending.Fails pool.taskTimeout reason)
      (left : task.retryCount < task.maxRetry) (draw : Nat) :
      Owes pool task ending (.reschedule (pool.policy.backoff task.retryCount.toNat draw) reason)
  | spent {ending : Ending} {reason : String} (fails : ending.Fails pool.taskTimeout reason)
      (none : task.maxRetry ≤ task.retryCount) :
      Owes pool task ending (.fail (.retriesExhausted task.retryCount.toNat reason))

lemma Ending.Fails.result_eq {limit : Duration} {ending : Ending} {reason : String}
    (h : ending.Fails limit reason) : ending.result limit = .error (.retry reason) := by
  cases h <;> rfl

lemma Ending.Fails.owes {pool : Pool} {ending : Ending} {reason : String}
    (h : ending.Fails pool.taskTimeout reason) (task : Task) (draw : Nat) :
    pool.Owes task ending
      (.ofResult pool.policy draw task (ending.result pool.taskTimeout)) := by
  rw [h.result_eq, Report.ofResult]
  by_cases hbudget : task.retryCount < task.maxRetry
  · rw [if_pos (show task.canRetry = true from decide_eq_true hbudget)]
    exact .again h hbudget draw
  · rw [if_neg (show ¬ task.canRetry = true by simpa [Task.canRetry] using hbudget)]
    exact .spent h (UInt32.not_lt.mp hbudget)

/-- What a worker owes can be counted. -/
lemma Pool.Owes.counts {pool : Pool} {task : Task} {ending : Ending} {report : Report}
    (h : pool.Owes task ending report) : report.Counts task := by
  intro delay error hreport
  cases h with
  | again fails left draw => exact Task.retryCount_ne_greatest left
  | done | declined | interrupted | skipped | spent => cases hreport

/-- The report that a worker decides on is the one that it owes. -/
lemma Pool.owes_ofResult (pool : Pool) (task : Task) (ending : Ending) (draw : Nat) :
    pool.Owes task ending
      (.ofResult pool.policy draw task (ending.result pool.taskTimeout)) := by
  cases ending with
  | returned result =>
    cases result with
    | ok => exact .done
    | error error =>
      cases error with
      | cancelled => exact .declined
      | skipRetry reason => exact .skipped reason
      | retry reason => exact (Ending.Fails.returned reason).owes task draw
  | crashed execution message => exact (Ending.Fails.crashed execution message).owes task draw
  | timedOut => exact Ending.Fails.timedOut.owes task draw
  | interrupted => exact .interrupted

/-! ## What an accepted report leaves behind -/

/-- How a broker keeps the task of a claim that ends by a report: the task as the broker has it
afterwards, and the broker. -/
inductive Broker.Closes (b : Broker) (held : Task) (now : Instant) : Report → Task → Broker → Prop
  | completed : Closes b held now .complete (held.markCompleted now)
      ((b.dropLease held.id).keepCompleted (held.markCompleted now))
  | rescheduled (delay : Duration) (error : String) :
      Closes b held now (.reschedule delay error)
        ((held.markRetrying error (now.after delay) now).markPending now)
        ((b.dropLease held.id).push
          ((held.markRetrying error (now.after delay) now).markPending now) (now.after delay))
  | buried (error : QueueError) :
      Closes b held now (.fail error) (held.markFailed error.message now)
        ((b.dropLease held.id).keepDead (held.markFailed error.message now))
  | released : Closes b held now .release (held.markPending now)
      ((b.dropLease held.id).push (held.markPending now) now)

/-- An accepted report closes its claim.  The task that the worker goes on with is the broker's own
record, but that a task to be tried again still has its claim. -/
lemma Report.closes_of_owns {b : Broker} {lease : Lease} {task : Task} (howns : b.Owns task lease)
    (hcopy : lease.task = task) {report : Report} (hcounts : report.Counts task) (now : Instant) :
    ∃ record next, b.Closes lease.task now report record next ∧
      report.perform b task now = (.ok (report.record task now), next) ∧
        report.event (report.record task now) = TaskEvent.ofTask record report.state ∧
          ∀ error, report = .fail error → report.record task now = record := by
  have hperform := report.perform_of_owns howns hcopy hcounts now
  have htake := takeLease_ok_iff.mpr ⟨lease, howns, rfl, rfl⟩
  rw [hperform]
  subst hcopy
  cases report with
  | complete =>
    refine ⟨_, _, .completed, ?_, rfl, fun _ => Report.noConfusion⟩
    simp only [call, serve, Broker.ack, htake]
    rfl
  | reschedule delay error =>
    have hcounted : lease.task.overflows b.limits.overflow = false := by
      rw [Task.overflows, decide_eq_false (hcounts delay error rfl), Bool.and_false]
    refine ⟨_, _, .rescheduled delay error, ?_, rfl, fun _ => Report.noConfusion⟩
    rw [call, serve_retry howns hcounted]
  | fail error =>
    refine ⟨_, _, .buried error, ?_, rfl, fun _ _ => rfl⟩
    simp only [call, serve, Broker.deadLetter, htake]
    rfl
  | release =>
    refine ⟨_, _, .released, ?_, rfl, fun _ => Report.noConfusion⟩
    simp only [call, serve, Broker.release, htake]
    rfl

/-! ## Deeds and their marks -/

/-- What a worker does about a task. -/
inductive Deed where
  /-- It tells observers of an event. -/
  | tells (event : TaskEvent)
  /-- It starts the handler. -/
  | starts
  /-- It makes a report to the broker, whatever the broker answers. -/
  | calls (report : Report)
  /-- The broker has accepted the report, and has become this. -/
  | files (next : Broker)
  /-- It calls the hook for tasks that failed for good. -/
  | hooks (call : HookCall)

/-- What deeds leave their marks on. -/
structure Marks where
  timeMs : Nat
  broker : Broker
  faults : List (Operation × Fault)
  events : List (TaskEvent × Nat)
  hookCalls : List HookCall
  executions : Nat

/-- The mark of a deed.  Of a call of the hook its notes remain, whether or not it crashes. -/
def Deed.mark (pool : Pool) (marks : Marks) : Deed → Marks
  | .tells event => { marks with events := (event, marks.timeMs) :: marks.events }
  | .starts => { marks with executions := marks.executions + 1 }
  | .calls report =>
    { marks with
      faults := marks.faults.eraseP fun entry => entry.1 = World.reportOperation report }
  | .files next => { marks with broker := next }
  | .hooks call => { marks with hookCalls := (pool.hook.run call marks.hookCalls).1 }

/-- What a worker does about the hook when its report was accepted, by the broker's record. -/
def Report.hooked (record : Task) : Report → List Deed
  | .fail error => [.hooks ⟨record, error⟩]
  | _ => []

namespace World

variable {pool : Pool} {w w' : World} {number : Nat} {task : Task} {report : Report}
  {phase : Phase} {deeds : List Deed}

/-- The marks that are on a deployment. -/
def marks (w : World) : Marks where
  timeMs := w.elapsedMs
  broker := w.broker
  faults := w.faults
  events := w.events
  hookCalls := w.hookCalls
  executions := w.executions

/-- Whether a worker has done some things, one after the other, and come to a phase, and nothing
else has left a mark. -/
structure Did (pool : Pool) (number : Nat) (w : World) (deeds : List Deed) (phase : Phase)
    (w' : World) : Prop where
  marks : w'.marks = deeds.foldl (Deed.mark pool) w.marks
  phase : w'.workers[number]? = some phase

lemma Did.after {w'' : World} (h : Did pool number w' deeds phase w'') (earlier : List Deed)
    (hmarks : w'.marks = earlier.foldl (Deed.mark pool) w.marks) :
    Did pool number w (earlier ++ deeds) phase w'' where
  marks := by rw [h.marks, hmarks, List.foldl_append]
  phase := h.phase

lemma Did.since {w'' : World} (h : Did pool number w' deeds phase w'')
    (hmarks : w'.marks = w.marks) : Did pool number w deeds phase w'' :=
  h.after [] hmarks

lemma setPhase_self (hpresent : number < w.workers.length) (phase : Phase) :
    (w.setPhase number phase).workers[number]? = some phase :=
  List.getElem?_set_self hpresent

/-- A worker that only comes to a phase leaves no mark. -/
lemma did_nothing (hpresent : number < w.workers.length) (hmarks : w'.marks = w.marks)
    (hworkers : w'.workers = (w.setPhase number phase).workers) :
    Did pool number w [] phase w' where
  marks := hmarks
  phase := by rw [hworkers, setPhase_self hpresent]

lemma faults_takeFault (w : World) (operation : Operation) :
    (w.takeFault operation).2.faults = w.faults.eraseP fun entry => entry.1 = operation := by
  unfold takeFault
  split
  · next hnone =>
    rw [List.find?_eq_none] at hnone
    exact (List.eraseP_of_forall_not hnone).symm
  · rfl

lemma takeFault_eq (w : World) (operation : Operation) :
    (w.takeFault operation).2 =
      { w with faults := w.faults.eraseP fun entry => entry.1 = operation } := by
  rw [← faults_takeFault]
  unfold takeFault
  split <;> rfl

/-- The fault that strikes a call depends on nothing but the faults. -/
lemma takeFault_congr (w w' : World) (h : w'.faults = w.faults) (operation : Operation) :
    (w'.takeFault operation).1 = (w.takeFault operation).1 := by
  unfold takeFault
  rw [h]
  split <;> rfl

lemma notify_fail (w : World) (pool : Pool) (record : Task) (error : QueueError) :
    (w.notify pool record (.fail error)).marks =
      Deed.mark pool w.marks (.hooks ⟨record, error⟩) := by
  rw [notify_eq]
  rfl

lemma workers_notify (w : World) (pool : Pool) (record : Task) (report : Report) :
    (w.notify pool record report).workers = w.workers :=
  (apart_notify w pool record report).workers

/-! ## The answer to a report -/

/-- Whether a failure lets a call come to the broker. -/
def Arrives (failure : Failure) : Prop :=
  (∀ message, failure ≠ .crash message) ∧ queueFailure failure = none

/-- What a worker does about the answer to its report on a task, by what became of the call: if the
broker has accepted the report, the worker tells of the broker's own record as the report left it,
and calls the hook with that if the task failed for good; otherwise it does nothing. -/
inductive Reacts (b : Broker) (task : Task) (now : Instant) (report : Report) :
    Failure → List Deed → Phase → Prop
  | crashed (message : String) : Reacts b task now report (.crash message) [] .stopped
  | failed {failure : Failure} {error : QueueError} (struck : queueFailure failure = some error) :
      Reacts b task now report failure [] .ready
  | refused {failure : Failure} (arrives : Arrives failure)
      (foreign : ∀ lease, ¬ b.Owns task lease) : Reacts b task now report failure [] .ready
  | accepted {failure : Failure} (arrives : Arrives failure) {lease : Lease} {record : Task}
      {next : Broker} (owns : b.Owns task lease)
      (closes : b.Closes lease.task now report record next) :
      Reacts b task now report failure
        (.files next :: .tells (TaskEvent.ofTask record report.state) :: report.hooked record)
        .ready

lemma makeReport_of_arrives {failure : Failure} (h : Arrives failure) :
    w.makeReport pool number task report failure =
      match report.perform w.broker task w.now with
      | (.crashed, broker) => { w with broker := broker }.setPhase number .stopped
      | (.error _, _) => (w.setPhase number .ready).goOn number
      | (.ok record, broker) =>
        ({ (w.setPhase number .ready).goOn number with broker := broker }.emit
          (report.event record)).notify pool record report := by
  obtain ⟨hcrash, hqueue⟩ := h
  unfold makeReport
  split
  · next message => exact absurd rfl (hcrash message)
  · split
    · next error herror => cases hqueue.symm.trans herror
    · rfl

/-- A worker whose call comes to the broker does what follows from the answer. -/
lemma reacts_of_arrives (pool : Pool) (hpresent : number < w.workers.length)
    (hcounts : report.Counts task) (hown : ∀ lease, w.broker.Owns task lease → lease.task = task)
    {failure : Failure} (h : Arrives failure) :
    ∃ deeds phase, Reacts w.broker task w.now report failure deeds phase ∧
      Did pool number w deeds phase (w.makeReport pool number task report failure) := by
  rw [makeReport_of_arrives h]
  by_cases howns : ∃ lease, w.broker.Owns task lease
  · obtain ⟨lease, howns⟩ := howns
    obtain ⟨record, next, hcloses, hperform, hevent, hfailed⟩ :=
      Report.closes_of_owns howns (hown lease howns) hcounts w.now
    rw [hperform]
    refine ⟨_, .ready, .accepted h howns hcloses, ?_, ?_⟩
    · simp only [hevent]
      cases report with
      | fail error =>
        rw [hfailed error rfl, notify_fail]
        rfl
      | complete | reschedule | release => rw [notify_eq]; rfl
    · rw [workers_notify]
      exact setPhase_self hpresent .ready
  · have hforeign := not_exists.mp howns
    have hperform : report.perform w.broker task w.now =
        (.error (.taskNotFound task.id), w.broker) := by
      rw [Report.perform_eq, serve_disowned (report.call_report? task w.now) hforeign]
      rfl
    rw [hperform]
    exact ⟨[], .ready, .refused h hforeign, did_nothing hpresent rfl rfl⟩

/-- What a worker does when it hears of its report. -/
lemma did_makeReport (pool : Pool) (hpresent : number < w.workers.length)
    (hcounts : report.Counts task) (hown : ∀ lease, w.broker.Owns task lease → lease.task = task)
    (failure : Failure) :
    ∃ deeds phase, Reacts w.broker task w.now report failure deeds phase ∧
      Did pool number w deeds phase (w.makeReport pool number task report failure) := by
  cases failure with
  | crash message => exact ⟨[], .stopped, .crashed message, did_nothing hpresent rfl rfl⟩
  | queue error => exact ⟨[], .ready, .failed rfl, did_nothing hpresent rfl rfl⟩
  | none | store | mail =>
    exact reacts_of_arrives pool hpresent hcounts hown ⟨fun _ => Failure.noConfusion, rfl⟩

/-! ## The call -/

/-- What a worker does when it reports on a task under a fault: it calls the broker, and hears of
the answer at once, or waits for it. -/
inductive Reports (b : Broker) (task : Task) (now : Instant) (report : Report) (fault : Fault) :
    List Deed → Phase → Prop
  | prompt {deeds : List Deed} {phase : Phase} (prompt : fault.delayMs = 0)
      (reacts : Reacts b task now report fault.failure deeds phase) :
      Reports b task now report fault (.calls report :: deeds) phase
  | late (late : fault.delayMs ≠ 0) :
      Reports b task now report fault [.calls report] (.reporting task report fault.failure)

/-- What a worker does when it begins a report. -/
lemma did_beginReport (pool : Pool) (hpresent : number < w.workers.length)
    (hcounts : report.Counts task) (hown : ∀ lease, w.broker.Owns task lease → lease.task = task) :
    ∃ deeds phase, Reports w.broker task w.now report
        (w.takeFault (reportOperation report)).1 deeds phase ∧
      Did pool number w deeds phase (w.beginReport pool number task report) := by
  have htaken := takeFault_eq w (reportOperation report)
  unfold beginReport
  generalize w.takeFault (reportOperation report) = taken at htaken ⊢
  obtain ⟨fault, w'⟩ := taken
  subst htaken
  simp only
  split
  · next hprompt =>
    let struck : World :=
      { w with faults := w.faults.eraseP fun entry => entry.1 = reportOperation report }
    obtain ⟨deeds, phase, hreacts, hdid⟩ :=
      did_makeReport pool (w := struck) hpresent hcounts hown fault.failure
    exact ⟨_, phase, .prompt hprompt hreacts, hdid.after [.calls report] rfl⟩
  · next hlate =>
    exact ⟨_, _, .late hlate, rfl, setPhase_self hpresent _⟩

/-- What a worker does when the execution of its task has ended. -/
lemma did_endExecution (pool : Pool) (hpresent : number < w.workers.length) (ending : Ending)
    (hown : ∀ lease, w.broker.Owns task lease → lease.task = task) :
    ∃ report deeds phase, pool.Owes task ending report ∧
      Reports w.broker task w.now report (w.takeFault (reportOperation report)).1 deeds phase ∧
        Did pool number w deeds phase (w.endExecution pool number task ending) := by
  obtain ⟨draw, generator, hends⟩ := endExecution_eq w pool number task ending
  obtain ⟨stragglers, hgivenUp⟩ := w.giveUp_eq number
  rw [hends, hgivenUp]
  generalize hreport : Report.ofResult pool.policy draw task (ending.result pool.taskTimeout) =
    report
  have howes : pool.Owes task ending report := hreport ▸ pool.owes_ofResult task ending draw
  let base : World :=
    { (World.forget { w with stragglers := stragglers } (.worker number)).forget
      (.handler number) with generator := generator }
  obtain ⟨deeds, phase, hreports, hdid⟩ :=
    did_beginReport pool (w := base) hpresent howes.counts hown
  have hfault : (base.takeFault (reportOperation report)).1 =
      (w.takeFault (reportOperation report)).1 := takeFault_congr w base rfl _
  exact ⟨report, deeds, phase, howes, hfault ▸ hreports, hdid.since rfl⟩

/-- A worker whose handler has returned without an error reports that the task is done, if nobody
has told the workers to stop at once; where no fault is in the way and the claim is its own, it
tells of the task as the broker has filed it. -/
lemma did_stepWorker_of_done (pool : Pool) {dueMs : Nat}
    (hphase : w.workers[number]? = some (.executing task dueMs (.ended (.returned (.ok ())))))
    (hgoing : w.cancelled = false) (hfaults : w.faults = []) {lease : Lease}
    (howns : w.broker.Owns task lease) (hcopy : lease.task = task) :
    Did pool number w [.calls .complete, .files (Report.complete.perform w.broker task w.now).2,
      .tells (TaskEvent.ofTask (task.markCompleted w.now) .completed)] .ready
      (w.stepWorker pool number) := by
  have hpresent := (List.getElem?_eq_some_iff.mp hphase).1
  have hown : ∀ other, w.broker.Owns task other → other.task = task := by
    intro other hother
    obtain rfl : other = lease := Option.some.inj (hother.1.symm.trans howns.1)
    exact hcopy
  have hcounts : Report.complete.Counts task :=
    Report.counts_of_final (fun _ _ => Report.noConfusion) task
  have hstep : w.stepWorker pool number =
      w.endExecution pool number task (.returned (.ok ())) := by
    rw [stepWorker, hphase]
    simp only [hgoing, Bool.false_eq_true, if_false]
  obtain ⟨report, deeds, phase, howes, hreports, hdid⟩ :=
    did_endExecution pool hpresent (.returned (.ok ())) hown
  have hfault : (w.takeFault (reportOperation report)).1 = .none := by
    rw [takeFault, hfaults]
    rfl
  cases howes with
  | again fails | spent fails => cases fails
  | done =>
    rw [hfault] at hreports
    cases hreports with
    | late late => exact absurd rfl late
    | prompt _ reacts =>
      cases reacts with
      | failed struck => cases struck
      | refused _ foreign => exact absurd howns (foreign lease)
      | accepted _ owns closes =>
        obtain ⟨_, _, hcloses, hperform, -⟩ := Report.closes_of_owns howns hcopy hcounts w.now
        rw [hown _ owns] at closes
        rw [hcopy] at hcloses
        cases closes
        cases hcloses
        rw [hstep, hperform]
        exact hdid

end World
end WorkQueue
