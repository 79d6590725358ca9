import WorkQueue.Proofs.Fleet.Errand

/-!
# One report for every task

The main statement is `reports_once`: a worker makes exactly one report on every task that it has
claimed, observers hear of it as the broker recorded it, and the hook is called for those that
failed for good.  What it reports is what the handler has come to (`Proofs/Fleet/Handlers`): the
handler that the registry has for the type of the task, carried out to its end, to a crash or to a
wait that its time or a stop has cut off.

`Proofs/Fleet/Errand` says what a worker has done when its hands are empty again.  What is left is
that they do not stay full.  A worker that cannot go on waits for a time that is still to come
(`Errand.prompt`): for the answer to its report, or for the end of the time of its task, and then
its handler has no result yet and nobody told the workers to stop at once.  This needs a clock that
does not go back: a worker that was woken at the end of its time goes to sleep again if it finds
that the time is not over, and nobody would wake it again.
-/

namespace WorkQueue

open Broker

/-- The thread that a worker depends on in a phase, besides the end of its time: its own, if it
waits for the answer to its report, and that of its handler, if this waits for a time or
computes. -/
def Phase.relied? (number : Nat) : Phase → Option Thread
  | .reporting _ _ _ => some (.worker number)
  | .executing _ _ (.suspended _ .cancel) => none
  | .executing _ _ (.suspended _ _) => some (.handler number)
  | _ => none

lemma Phase.number_of_relied? {number : Nat} {phase : Phase} {thread : Thread}
    (h : phase.relied? number = some thread) : thread.number = number := by
  unfold Phase.relied? at h
  split at h
  · exact Option.some.inj h ▸ rfl
  · cases h
  · exact Option.some.inj h ▸ rfl
  · cases h

namespace World

variable {pool : Pool} {limits : BrokerLimits} {forward : Prop} {w w' : World} {number : Nat}
  {task : Task} {deeds : List Deed}

/-! ## Threads that will be woken -/

/-- Whether a thread can go on, or will be woken. -/
def Woken (w : World) (thread : Thread) : Prop :=
  (∃ dueMs, ⟨dueMs, thread⟩ ∈ w.timers) ∨ thread ∈ w.runnable

/-- Whether a worker depends on a thread, besides the end of its time. -/
def Relies (w : World) (number : Nat) (thread : Thread) : Prop :=
  ∃ phase : Phase, w.workers[number]? = some phase ∧ phase.relied? number = some thread

/-- Whether the thread that a worker depends on will be woken. -/
def Expected (w : World) (number : Nat) : Prop := ∀ thread, w.Relies number thread → w.Woken thread

lemma Relies.thread_number {thread : Thread} (h : w.Relies number thread) :
    thread.number = number := by
  obtain ⟨phase, -, hrelied⟩ := h
  exact Phase.number_of_relied? hrelied

lemma relies_setPhase {phase : Phase} {thread : Thread}
    (h : (w.setPhase number phase).Relies number thread) : phase.relied? number = some thread := by
  obtain ⟨phase', hphase, hrelied⟩ := h
  rwa [phase_setPhase hphase] at hrelied

lemma Grows.woken {thread : Thread} (h : Grows w w') (hwoken : w.Woken thread) :
    w'.Woken thread :=
  hwoken.imp (fun ⟨dueMs, htimer⟩ => ⟨dueMs, h.timers htimer⟩) fun hrunnable =>
    h.runnable hrunnable

lemma Grows.relies {thread : Thread} (h : Grows w w') (hrelies : w'.Relies number thread) :
    w.Relies number thread := by
  unfold Relies at hrelies ⊢
  rwa [h.workers] at hrelies

lemma Grows.expected (h : Grows w w') (hexpected : w.Expected number) : w'.Expected number :=
  fun thread hrelies => h.woken (hexpected thread (h.relies hrelies))

lemma Touches.expected {mover : Nat} (h : Touches mover w w') (hother : number ≠ mover)
    (hexpected : w.Expected number) : w'.Expected number := by
  intro thread hrelies
  have hthread : thread.number ≠ mover := hrelies.thread_number.trans_ne hother
  unfold Relies at hrelies
  rw [h.workers number hother] at hrelies
  exact (hexpected thread hrelies).imp
    (fun ⟨dueMs, htimer⟩ => ⟨dueMs, h.timers _ hthread htimer⟩) (h.runnable thread hthread)

lemma woken_startTimer (w : World) (thread : Thread) (millis : Nat) :
    (w.startTimer thread millis).Woken thread :=
  .inl ⟨_, List.mem_append_right _ (List.mem_singleton_self _)⟩

/-- A worker depends on no thread, or on one that is woken. -/
lemma Grows.expected_setPhase {phase : Phase} (h : Grows (w.setPhase number phase) w')
    (hwoken : ∀ thread, phase.relied? number = some thread → w'.Woken thread) :
    w'.Expected number :=
  fun thread hrelies => hwoken thread (relies_setPhase (h.relies hrelies))

/-- A worker whose report is late has started a timer, and one that executes a task has woken the
handler. -/
lemma Rests.expected {phase : Phase} (h : Rests pool w number phase w') : w'.Expected number := by
  cases h with
  | stopped same => exact same.grows.expected_setPhase nofun
  | ready same => exact ((grows_goOn _ number).trans same.grows).expected_setPhase nofun
  | polling _ _ same | claiming _ _ same =>
    exact ((grows_startTimer _ _ _).trans same.grows).expected_setPhase nofun
  | reporting _ _ _ _ same =>
    refine ((grows_startTimer _ _ _).trans same.grows).expected_setPhase fun thread hrelied => ?_
    cases hrelied
    exact same.grows.woken (woken_startTimer _ _ _)
  | executing _ task begins millis same =>
    have hgrows := (grows_startTimer _ _ _).trans same.grows
    refine ((grows_wake _ _).trans hgrows).expected_setPhase fun thread hrelied => ?_
    cases begins
    cases hrelied
    exact hgrows.woken (.inr (mem_runnable_wake _ _))

/-- The step of a worker does not depend on its own being woken, and leaves its handler as it is or
wakes it. -/
lemma expected_stepWorker (pool : Pool)
    (h : ∀ thread, w.Relies number thread → thread ≠ .worker number → w.Woken thread) :
    (w.stepWorker pool number).Expected number := by
  rcases w.stepWorker_turn pool number with ⟨hsame, hwaits⟩ | ⟨_, _, -, ⟨base, _, -, -, h⟩, -⟩
  · rw [hsame]
    intro thread hrelies
    refine h thread hrelies ?_
    rintro rfl
    obtain ⟨phase, hphase, hrelied⟩ := hrelies
    have hstays := hwaits phase hphase
    cases phase with
    | reporting => exact hstays
    | executing _ _ execution =>
      cases execution with
      | ended => cases hrelied
      | suspended _ waiting => cases waiting <;> cases hrelied
    | _ => cases hrelied
  · exact h.expected

/-- The step of a handler starts a timer, unless the handler has ended or waits to be told to
stop. -/
lemma expected_stepHandler
    (h : ∀ thread, w.Relies number thread → thread ≠ .handler number → w.Woken thread) :
    (w.stepHandler number).Expected number := by
  rcases w.stepHandler_turn number with
    ⟨hsame, hnone⟩ | ⟨task, dueMs, rest, waiting, execution, -, -, hrests⟩
  · rw [hsame]
    intro thread hrelies
    refine h thread hrelies ?_
    rintro rfl
    obtain ⟨phase, hphase, hrelied⟩ := hrelies
    cases phase with
    | executing task dueMs execution =>
      cases execution with
      | ended => cases hrelied
      | suspended rest waiting => exact hnone task dueMs rest waiting hphase
    | _ => cases hrelied
  · refine hrests.grown.expected_setPhase fun thread hrelied => ?_
    cases hrests with
    | ended | awaiting => cases hrelied
    | sleeping late rest waiting same =>
      have hthread : thread = .handler number := by
        cases waiting with
        | cancel => cases hrelied
        | time | computing => exact (Option.some.inj hrelied).symm
      subst hthread
      exact same.grows.woken (woken_startTimer _ _ _)

lemma Expected.erase {thread : Thread} (h : w.Expected number) {other : Thread}
    (hrelies : Relies { w with runnable := w.runnable.erase thread } number other)
    (hother : other ≠ thread) : Woken { w with runnable := w.runnable.erase thread } other :=
  (h other hrelies).imp id (List.mem_erase_of_ne hother).mpr

lemma Expected.moveTo (h : w.Expected number) (timeMs : Nat) :
    (w.moveTo timeMs).Expected number := by
  have hmoved := (moveTo_wakes w timeMs).grows
  intro thread hrelies
  rcases h thread (hmoved.relies hrelies) with ⟨dueMs, htimer⟩ | hrunnable
  · exact (moveTo_timer htimer timeMs).imp (fun htimer => ⟨dueMs, htimer⟩) And.left
  · exact .inr (hmoved.runnable hrunnable)

/-- A worker that was woken at the end of its time stays awake when the clock goes on. -/
lemma Awaited.moveTo (h : Awaited w number) {timeMs : Nat} (honward : w.elapsedMs ≤ timeMs) :
    Awaited (w.moveTo timeMs) number := by
  have hmoved := (moveTo_wakes w timeMs).grows
  intro task dueMs execution hphase
  rw [hmoved.workers] at hphase
  rcases h task dueMs execution hphase with htimer | ⟨hrunnable, hdue⟩
  · exact moveTo_timer htimer timeMs
  · refine .inr ⟨hmoved.runnable hrunnable, ?_⟩
    rw [elapsedMs_eq hmoved.time]
    exact hdue.trans honward

/-! ### Along an errand -/

lemma Grows.waiting (h : Grows w w') (hwaiting : Awaited w number ∧ w.Expected number) :
    Awaited w' number ∧ w'.Expected number :=
  ⟨h.awaited hwaiting.1, h.expected hwaiting.2⟩

lemma Touches.waiting {mover : Nat} (h : Touches mover w w') (hother : number ≠ mover)
    (hwaiting : Awaited w number ∧ w.Expected number) :
    Awaited w' number ∧ w'.Expected number :=
  ⟨h.awaited hother hwaiting.1, h.expected hother hwaiting.2⟩

/-- Whatever else happens, a worker that waits is woken. -/
lemma Passes.waiting (h : Passes pool True number w w')
    (hwaiting : Awaited w number ∧ w.Expected number) :
    Awaited w' number ∧ w'.Expected number := by
  cases h with
  | outside handled => exact handled.grows.waiting hwaiting
  | addFault => exact hwaiting
  | moveTo timeMs onward =>
    exact ⟨hwaiting.1.moveTo (onward trivial), hwaiting.2.moveTo timeMs⟩
  | orderStop =>
    obtain ⟨w', hflag, hwakes⟩ := orderStop_wakes w
    exact (hflag.grows.trans hwakes.grows).waiting hwaiting
  | orderCancel =>
    obtain ⟨w', hflag, hwakes⟩ := orderCancel_wakes w
    exact (hflag.grows.trans hwakes.grows).waiting hwaiting
  | step thread other =>
    have hawaited := hwaiting.1.erase (Ne.symm other)
    have hexpected : thread.number ≠ number →
        Expected { w with runnable := w.runnable.erase thread } number :=
      fun hne relied hrelies => hwaiting.2.erase hrelies
        fun heq => hne (heq ▸ hrelies.thread_number)
    cases thread with
    | worker mover =>
      have hother : number ≠ mover := fun heq => other (congrArg Thread.worker heq.symm)
      exact (touches_stepWorker _ pool mover).waiting hother ⟨hawaited, hexpected (Ne.symm hother)⟩
    | handler mover =>
      by_cases hown : number = mover
      · subst hown
        exact ⟨(settles_stepHandler _ number hawaited).awaited,
          expected_stepHandler fun _ hrelies hne => hwaiting.2.erase hrelies hne⟩
      · exact (touches_stepHandler _ mover).waiting hown ⟨hawaited, hexpected (Ne.symm hown)⟩

/-- A worker on an errand that waits is woken. -/
lemma Errand.waiting (h : Errand pool limits True number task w deeds) :
    Awaited w number ∧ w.Expected number := by
  induction h with
  | @begins w _ _ _ _ _ idle =>
    let popped : World := { w with runnable := w.runnable.erase (.worker number) }
    refine ⟨(settles_stepWorker popped pool number fun task dueMs execution hphase => ?_).awaited,
      expected_stepWorker (w := popped) pool fun thread hrelies _ => ?_⟩
    · rw [hand, show w.workers[number]? = _ from hphase] at idle
      cases idle
    · obtain ⟨phase, hphase, hrelied⟩ := hrelies
      rw [hand, show w.workers[number]? = _ from hphase] at idle
      cases phase with
      | executing | reporting => cases idle
      | _ => cases hrelied
  | @goesOn w _ _ _ _ _ _ _ ih =>
    let popped : World := { w with runnable := w.runnable.erase (.worker number) }
    exact ⟨(settles_stepWorker popped pool number fun task dueMs execution hphase =>
      (ih.1 task dueMs execution hphase).imp id And.right).awaited,
      expected_stepWorker (w := popped) pool fun _ hrelies hne => ih.2.erase hrelies hne⟩
  | passes _ passes ih => exact passes.waiting ih

/-- In every run the workers heed their orders. -/
lemma Ran.alert (h : Ran pool limits w) : Alert w := by
  induction h with
  | start | halt => exact alert_of_none rfl
  | outside _ handled quiet ih => exact handled.grows.alert (congrArg Prod.fst quiet) ih
  | addFault _ _ _ ih => exact ih
  | startPool _ start =>
    obtain ⟨-, rfl⟩ := startPool_eq start
    exact alert_of_started rfl rfl
  | step _ thread _ ih => exact ih.step thread
  | moveTo _ timeMs ih => exact ih.moveTo timeMs
  | orderStop _ ih => exact ih.orderStop
  | orderCancel _ ih => exact ih.orderCancel

/-- In every run nothing that was to happen earlier is still to come. -/
lemma Ran.later (h : Ran pool limits w) : ∀ timer ∈ w.timers, w.elapsedMs ≤ timer.dueMs := by
  have htouched : ∀ {mover : Nat} {w w' : World}, Touches mover w w' →
      (∀ timer ∈ w.timers, w.elapsedMs ≤ timer.dueMs) →
        ∀ timer ∈ w'.timers, w'.elapsedMs ≤ timer.dueMs := by
    intro mover w w' htouches hlater timer htimer
    rw [elapsedMs_eq htouches.time]
    exact (htouches.later timer htimer).elim (hlater timer) id
  induction h with
  | start | halt => exact fun timer htimer => absurd htimer List.not_mem_nil
  | outside _ handled _ ih => exact htouched (handled.grows.touches 0) ih
  | addFault _ _ _ ih => exact ih
  | startPool _ start =>
    obtain ⟨-, rfl⟩ := startPool_eq start
    exact fun timer htimer => absurd htimer List.not_mem_nil
  | @step w _ thread _ ih =>
    cases thread with
    | worker mover => exact htouched (touches_stepWorker _ pool mover) ih
    | handler mover => exact htouched (touches_stepHandler _ mover) ih
  | @moveTo w _ timeMs => exact later_moveTo w timeMs
  | @orderStop w _ ih =>
    obtain ⟨w', hflag, hwakes⟩ := orderStop_wakes w
    exact htouched ((hflag.grows.trans hwakes.grows).touches 0) ih
  | @orderCancel w _ ih =>
    obtain ⟨w', hflag, hwakes⟩ := orderCancel_wakes w
    exact htouched ((hflag.grows.trans hwakes.grows).touches 0) ih

/-- **Nobody waits for ever with a task in hand.**  A worker that cannot go on will be woken at a
time that is still to come.  If it waits for its handler, that is the end of the time of the task,
the handler has no result yet, and nobody told the workers to stop at once; and the handler will be
woken as well, unless it waits to be told to stop. -/
theorem Errand.prompt (h : Errand pool limits True number task w deeds)
    (hhand : w.hand number = some task) (hidle : w.runnable = []) :
    ∃ dueMs, w.elapsedMs ≤ dueMs ∧ ⟨dueMs, .worker number⟩ ∈ w.timers ∧
      ∀ endMs execution, w.workers[number]? = some (.executing task endMs execution) →
        endMs = dueMs ∧ w.cancelled = false ∧
          ∃ rest waiting, execution = .suspended rest waiting ∧ (waiting = .cancel ∨
            ∃ wakeMs, w.elapsedMs ≤ wakeMs ∧ ⟨wakeMs, .handler number⟩ ∈ w.timers) := by
  obtain ⟨hawaited, hexpected⟩ := h.waiting
  have hasleep : ∀ thread, thread ∉ w.runnable := by simp [hidle]
  have hwoken : ∀ thread, w.Relies number thread →
      ∃ wakeMs, w.elapsedMs ≤ wakeMs ∧ ⟨wakeMs, thread⟩ ∈ w.timers := by
    intro thread hrelies
    obtain ⟨wakeMs, htimer⟩ := (hexpected thread hrelies).resolve_right (hasleep thread)
    exact ⟨wakeMs, h.ran.later _ htimer, htimer⟩
  obtain ⟨phase, hphase, htask⟩ := Option.bind_eq_some_iff.mp hhand
  cases phase with
  | ready | claiming | polling | stopped => cases htask
  | reporting held report failure =>
    obtain ⟨dueMs, hlater, htimer⟩ := hwoken (.worker number) ⟨_, hphase, rfl⟩
    refine ⟨dueMs, hlater, htimer, fun endMs execution hexecuting => ?_⟩
    cases hphase.symm.trans hexecuting
  | executing held dueMs execution =>
    have htimer := (hawaited _ _ _ hphase).resolve_right fun hwoken => hasleep _ hwoken.1
    refine ⟨dueMs, h.ran.later _ htimer, htimer, fun endMs execution' hexecuting => ?_⟩
    have hwait := (h.ran.alert number _ hphase).resolve_right (hasleep _)
    cases hphase.symm.trans hexecuting
    cases execution with
    | ended => exact hwait.elim
    | suspended rest waiting =>
      refine ⟨rfl, hwait, rest, waiting, rfl, ?_⟩
      cases waiting with
      | cancel => exact .inl rfl
      | time | computing => exact .inr (hwoken (.handler number) ⟨_, hphase, rfl⟩)

/-! ## The hook -/

/-- A deployment but for what its hook has noted. -/
def unnoted (w : World) : World := { w with hookCalls := [] }

/-- A crash of the hook is caught. -/
lemma unnoted_notify (w : World) (pool : Pool) (record : Task) (report : Report) :
    (w.notify pool record report).unnoted = w.unnoted := by
  rw [notify_eq]
  cases report <;> rfl

section Hook

variable (w : World) (pool : Pool) (hook : ErrorHook) (number : Nat) (task : Task)

lemma unnoted_makeReport (report : Report) (failure : Failure) :
    (w.makeReport { pool with hook := hook } number task report failure).unnoted =
      (w.makeReport pool number task report failure).unnoted := by
  by_cases harrives : Arrives failure
  · rw [makeReport_of_arrives harrives, makeReport_of_arrives harrives]
    generalize report.perform w.broker task w.now = performed
    obtain ⟨answer, broker⟩ := performed
    cases answer with
    | error | crashed => rfl
    | ok record => exact (unnoted_notify _ _ _ _).trans (unnoted_notify _ _ _ _).symm
  · cases failure with
    | crash | queue => rfl
    | none | store | mail => exact absurd ⟨fun _ => Failure.noConfusion, rfl⟩ harrives

lemma unnoted_beginReport (report : Report) :
    (w.beginReport { pool with hook := hook } number task report).unnoted =
      (w.beginReport pool number task report).unnoted := by
  unfold beginReport
  generalize w.takeFault (reportOperation report) = taken
  obtain ⟨fault, w'⟩ := taken
  simp only
  split
  · exact unnoted_makeReport w' pool hook number task report fault.failure
  · rfl

lemma unnoted_endExecution (ending : Ending) :
    (w.endExecution { pool with hook := hook } number task ending).unnoted =
      (w.endExecution pool number task ending).unnoted :=
  unnoted_beginReport _ pool hook number task _

lemma unnoted_execute :
    (w.execute { pool with hook := hook } number task).unnoted =
      (w.execute pool number task).unnoted := by
  unfold execute
  simp only
  cases pool.registry.resolve? task.kind with
  | none => exact unnoted_beginReport _ pool hook number task _
  | some handler =>
    simp only
    split
    · exact unnoted_endExecution _ pool hook number task .interrupted
    · rfl

lemma unnoted_makeClaim (failure : Failure) :
    (w.makeClaim { pool with hook := hook } number failure).unnoted =
      (w.makeClaim pool number failure).unnoted := by
  unfold makeClaim
  split
  · rfl
  · split
    · rfl
    · simp only
      generalize w.claim pool.weights = claimed
      obtain ⟨result, w'⟩ := claimed
      cases result with
      | ok task => exact unnoted_execute w' pool hook number task
      | error error => rfl

lemma unnoted_beginClaim :
    (w.beginClaim { pool with hook := hook } number).unnoted =
      (w.beginClaim pool number).unnoted := by
  unfold beginClaim
  generalize w.takeFault .claim = taken
  obtain ⟨fault, w'⟩ := taken
  simp only
  split
  · exact unnoted_makeClaim w' pool hook number fault.failure
  · rfl

/-- **The hook changes nothing**, whatever it does, but for what it notes itself. -/
theorem unnoted_step (thread : Thread) :
    (w.step { pool with hook := hook } thread).unnoted = (w.step pool thread).unnoted := by
  cases thread with
  | handler number => rfl
  | worker number =>
    unfold World.step stepWorker
    simp only
    cases w.workers[number]? with
    | none => rfl
    | some phase =>
      cases phase with
      | stopped => rfl
      | ready =>
        simp only
        split
        · rfl
        · exact unnoted_beginClaim w pool hook number
      | claiming failure => exact unnoted_makeClaim w pool hook number failure
      | polling dueMs =>
        simp only
        split
        · rfl
        · split
          · exact unnoted_beginClaim w pool hook number
          · rfl
      | reporting task report failure =>
        exact unnoted_makeReport w pool hook number task report failure
      | executing task dueMs execution =>
        simp only
        split
        · exact unnoted_endExecution w pool hook number task .interrupted
        · cases execution with
          | ended ending => exact unnoted_endExecution w pool hook number task ending
          | suspended =>
            simp only
            split
            · exact unnoted_endExecution w pool hook number task .timedOut
            · rfl

end Hook

/-! ## One report for every task -/

/-- What is promised of every task that a worker of a pool claims, in every run of a deployment of
the pool: with any registry and any handlers, whatever faults strike the calls of the broker, and
whenever the workers are told to stop. -/
structure ReportsOnce (pool : Pool) (limits : BrokerLimits) : Prop where
  /-- A worker with nothing in hand gets no task in a step, and tells nobody, or it begins an
  errand. -/
  begins : ∀ (w : World) (number : Nat), Ran pool limits w → .worker number ∈ w.runnable →
    w.hand number = none → Looks number w (w.proceed pool (.worker number)) ∨
      ∃ task deeds, ∀ forward,
        Errand pool limits forward number task (w.proceed pool (.worker number)) deeds
  /-- A worker with a task in hand waits for a result, reports how the execution has ended, or hears
  of its report, and does nothing else. -/
  goesOn : ∀ (w : World) (number : Nat) (task : Task), Ran pool limits w →
    w.hand number = some task → ∃ new phase, Deals pool number task w new phase ∧
      Did pool number w new phase (w.proceed pool (.worker number))
  /-- What else happens, short of stopping the workers where they are, leaves its hands as they
  are. -/
  passes : ∀ forward w w' number, Passes pool forward number w w' → w'.hand number = w.hand number
  /-- Whoever has a task in hand is on an errand with it. -/
  onErrand : ∀ (w : World) (number : Nat) (task : Task), Ran pool limits w →
    w.hand number = some task → ∃ deeds, Errand pool limits False number task w deeds
  /-- While the handler is at work, the worker has told that the task is being executed and has
  started the handler.  When it waits for the answer to its report, it has made the report that it
  owes, and no handler was started for a task whose type has none.  When its hands are empty, it has
  in addition done what follows from the answer. -/
  standing : ∀ forward w number task deeds, Errand pool limits forward number task w deeds →
    Standing pool task w.workers[number]? deeds
  /-- An errand that is over has one report, one event and one more if the report was accepted, and
  one call of the hook if the task was accepted as failed for good. -/
  once : ∀ forward w number task deeds, Errand pool limits forward number task w deeds →
    w.hand number = none → ∃ report, OneReport report deeds
  /-- Nobody waits for ever with a task in hand, on a clock that does not go back, nor does the
  handler of the task. -/
  prompt : ∀ w number task deeds, Errand pool limits True number task w deeds →
    w.hand number = some task → w.runnable = [] →
      ∃ dueMs, w.elapsedMs ≤ dueMs ∧ ⟨dueMs, .worker number⟩ ∈ w.timers ∧
        ∀ endMs execution, w.workers[number]? = some (.executing task endMs execution) →
          endMs = dueMs ∧ w.cancelled = false ∧
            ∃ rest waiting, execution = .suspended rest waiting ∧ (waiting = .cancel ∨
              ∃ wakeMs, w.elapsedMs ≤ wakeMs ∧ ⟨wakeMs, .handler number⟩ ∈ w.timers)
  /-- What the hook does, even if it crashes, changes nothing but what it notes itself. -/
  hook : ∀ (other : ErrorHook) (w : World) (thread : Thread),
    (w.step { pool with hook := other } thread).unnoted = (w.step pool thread).unnoted

/-- **One delivery, one report.** -/
theorem reports_once (pool : Pool) (limits : BrokerLimits) : ReportsOnce pool limits where
  begins w number ran ready idle := by
    have hseeks := seeks_proceed pool idle
    generalize hnext : w.proceed pool (.worker number) = next at hseeks
    cases hseeks with
    | looks looks => exact .inl looks
    | takes task deeds phase claims starts did =>
      subst hnext
      exact .inr ⟨task, deeds, fun forward => .begins ran ready idle claims starts did⟩
  goesOn _ _ _ ran hand := deals_proceed ran hand
  passes _ _ _ _ passes := passes.hand
  onErrand _ _ _ ran hand := ran.exists_errand hand
  standing _ _ _ _ _ errand := errand.standing
  once _ _ _ _ _ errand idle := errand.oneReport idle
  prompt _ _ _ _ errand hand idle := errand.prompt hand idle
  hook other w thread := unnoted_step w pool other thread

end World
end WorkQueue
