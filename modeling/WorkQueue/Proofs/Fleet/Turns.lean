import WorkQueue.Proofs.Fleet.Handlers

/-!
# What a step does to the threads

A step of a thread changes the broker, the queue of faults and much else, but of the threads it
changes only what its own worker is doing, and which of the two threads of this worker can go on or
wait for a time.  `stepWorker_turn` and `stepHandler_turn` say this once for all steps: a worker
comes to rest in one of six ways (`Rests`), a handler in one of three, and nothing else happens.

Whether workers are on time, whether each of them will be woken, and how many steps are left until
all have stopped depends on the threads alone, and is proved by cases on how a step ends.
-/

namespace WorkQueue

/-- How far a worker is from its end at most, once it was told to stop. -/
def Phase.rank : Phase → Nat
  | .stopped => 0
  | .ready => 1
  | .polling _ => 1
  | .reporting _ _ _ => 2
  | .executing _ _ _ => 3
  | .claiming _ => 4

namespace World

variable {pool : Pool} {w w' : World} {number : Nat} {phase : Phase}

/-! ## Changes that do not concern the threads -/

/-- Whether nothing has changed that the threads of a deployment depend on. -/
structure SameThreads (w w' : World) : Prop where
  time : w'.time = w.time
  signals : w'.notices.1 = w.notices.1
  workers : w'.workers = w.workers
  runnable : w'.runnable = w.runnable
  timers : w'.timers = w.timers
  stragglers : w'.stragglers = w.stragglers

@[refl] lemma SameThreads.refl (w : World) : SameThreads w w := ⟨rfl, rfl, rfl, rfl, rfl, rfl⟩

lemma SameThreads.trans {w'' : World} (h : SameThreads w w') (h' : SameThreads w' w'') :
    SameThreads w w'' :=
  ⟨h'.time.trans h.time, h'.signals.trans h.signals, h'.workers.trans h.workers,
    h'.runnable.trans h.runnable, h'.timers.trans h.timers, h'.stragglers.trans h.stragglers⟩

lemma Apart.sameThreads (h : Apart w w') (haside : w'.aside = w.aside) : SameThreads w w' :=
  ⟨h.time, congrArg (·.1.1) haside, h.workers, h.runnable, h.timers, congrArg Prod.snd haside⟩

lemma Handled.sameThreads (h : Handled w w') (haside : w'.aside = w.aside) :
    SameThreads w w' := by
  obtain ⟨htime, hworkers, hrunnable, htimers⟩ := h.frame
  exact ⟨htime, congrArg (·.1.1) haside, hworkers, hrunnable, htimers, congrArg Prod.snd haside⟩

lemma sameThreads_takeFault (w : World) (operation : Operation) :
    SameThreads w (w.takeFault operation).2 :=
  (apart_takeFault w operation).sameThreads (aside_takeFault w operation)

lemma SameThreads.setPhase (h : SameThreads w w') (number : Nat) (phase : Phase) :
    SameThreads (w.setPhase number phase) (w'.setPhase number phase) :=
  ⟨h.time, h.signals, congrArg (·.set number phase) h.workers, h.runnable, h.timers, h.stragglers⟩

lemma SameThreads.goOn (h : SameThreads w w') (number : Nat) :
    SameThreads (w.goOn number) (w'.goOn number) :=
  ⟨h.time, h.signals, h.workers, congrArg (Thread.worker number :: ·) h.runnable, h.timers,
    h.stragglers⟩

lemma SameThreads.wake (h : SameThreads w w') (thread : Thread) :
    SameThreads (w.wake thread) (w'.wake thread) := by
  unfold World.wake
  rw [h.runnable]
  split
  · exact h
  · exact ⟨h.time, h.signals, h.workers, rfl, h.timers, h.stragglers⟩

lemma SameThreads.startTimer (h : SameThreads w w') (thread : Thread) (millis : Nat) :
    SameThreads (w.startTimer thread millis) (w'.startTimer thread millis) := by
  refine ⟨h.time, h.signals, h.workers, h.runnable, ?_, h.stragglers⟩
  unfold World.startTimer
  simp only [h.timers, elapsedMs_eq h.time]

lemma SameThreads.forget (h : SameThreads w w') (thread : Thread) :
    SameThreads (w.forget thread) (w'.forget thread) :=
  ⟨h.time, h.signals, h.workers, congrArg (List.filter _) h.runnable,
    congrArg (List.filter _) h.timers, h.stragglers⟩

lemma SameThreads.giveUp (h : SameThreads w w') (number : Nat) :
    SameThreads (w.giveUp number) (w'.giveUp number) := by
  obtain ⟨stragglers, heq⟩ := w.giveUp_eq number
  refine ⟨?_, ?_, ?_, ?_, ?_, ?_⟩
  · exact (apart_giveUp w' number).time.trans (h.time.trans (apart_giveUp w number).time.symm)
  · rw [notices_giveUp, notices_giveUp, h.signals]
  · exact (apart_giveUp w' number).workers.trans
      (h.workers.trans (apart_giveUp w number).workers.symm)
  · exact (apart_giveUp w' number).runnable.trans
      (h.runnable.trans (apart_giveUp w number).runnable.symm)
  · exact (apart_giveUp w' number).timers.trans
      (h.timers.trans (apart_giveUp w number).timers.symm)
  · unfold World.giveUp
    rw [h.workers]
    split
    · simp only [h.stragglers, elapsedMs_eq h.time]
    · exact h.stragglers

/-! ## How a worker comes to rest -/

/-- Whether a worker of a pool has come to rest in a phase, with the threads as they were but for
its own. -/
inductive Rests (pool : Pool) (w : World) (number : Nat) : Phase → World → Prop
  | stopped {w' : World} (same : SameThreads (w.setPhase number .stopped) w') :
      Rests pool w number .stopped w'
  | ready {w' : World} (same : SameThreads ((w.setPhase number .ready).goOn number) w') :
      Rests pool w number .ready w'
  | polling {w' : World} (going : w.stopping = false) (millis : Nat)
      (same : SameThreads ((w.setPhase number (.polling (w.elapsedMs + millis))).startTimer
        (.worker number) millis) w') : Rests pool w number (.polling (w.elapsedMs + millis)) w'
  | claiming {w' : World} (failure : Failure) {millis : Nat} (late : millis ≠ 0)
      (same : SameThreads ((w.setPhase number (.claiming failure)).startTimer
        (.worker number) millis) w') : Rests pool w number (.claiming failure) w'
  | reporting {w' : World} (task : Task) (report : Report) (failure : Failure) {millis : Nat}
      (late : millis ≠ 0)
      (same : SameThreads ((w.setPhase number (.reporting task report failure)).startTimer
        (.worker number) millis) w') : Rests pool w number (.reporting task report failure) w'
  | executing {w' : World} (going : w.cancelled = false) (task : Task) {execution : Execution}
      (begins : pool.Begins task execution) (millis : Nat)
      (same : SameThreads (((w.setPhase number (.executing task (w.elapsedMs + millis)
        execution)).wake (.handler number)).startTimer (.worker number) millis) w') :
      Rests pool w number (.executing task (w.elapsedMs + millis) execution) w'

lemma Rests.since {w'' : World} (h : Rests pool w' number phase w'') (hsame : SameThreads w w') :
    Rests pool w number phase w'' := by
  have hstopping : w'.stopping = w.stopping := congrArg Prod.fst hsame.signals
  have hcancelled : w'.cancelled = w.cancelled := congrArg (·.2.1) hsame.signals
  have helapsed := elapsedMs_eq hsame.time
  cases h with
  | stopped same => exact .stopped ((hsame.setPhase _ _).trans same)
  | ready same => exact .ready (((hsame.setPhase _ _).goOn _).trans same)
  | polling going millis same =>
    rw [helapsed] at same ⊢
    exact .polling (hstopping ▸ going) millis (((hsame.setPhase _ _).startTimer _ _).trans same)
  | claiming failure late same =>
    exact .claiming failure late (((hsame.setPhase _ _).startTimer _ _).trans same)
  | reporting task report failure late same =>
    exact .reporting task report failure late (((hsame.setPhase _ _).startTimer _ _).trans same)
  | executing going task begins millis same =>
    rw [helapsed] at same ⊢
    exact .executing (hcancelled ▸ going) task begins millis
      ((((hsame.setPhase _ _).wake _).startTimer _ _).trans same)

/-- What a worker can forget before: that it waits, and its handler as well, which it gives up. -/
inductive Forgets (w : World) (number : Nat) : World → Prop
  | nothing : Forgets w number w
  | worker : Forgets w number (w.forget (.worker number))
  | both :
      Forgets w number (((w.giveUp number).forget (.worker number)).forget (.handler number))

/-- Whether a worker has come to rest, at most so far from its end. -/
def RestsWithin (pool : Pool) (w : World) (number : Nat) (rank : Nat) (w' : World) : Prop :=
  ∃ base phase, Forgets w number base ∧ Phase.rank phase ≤ rank ∧ Rests pool base number phase w'

lemma Rests.within {rank : Nat} (h : Rests pool w number phase w') (hrank : phase.rank ≤ rank) :
    RestsWithin pool w number rank w' :=
  ⟨w, phase, .nothing, hrank, h⟩

lemma RestsWithin.mono {rank rank' : Nat} (h : RestsWithin pool w number rank w')
    (hle : rank ≤ rank') : RestsWithin pool w number rank' w' := by
  obtain ⟨base, phase, hbase, hrank, hrests⟩ := h
  exact ⟨base, phase, hbase, hrank.trans hle, hrests⟩

lemma RestsWithin.since {rank : Nat} {w'' : World} (h : RestsWithin pool w' number rank w'')
    (hsame : SameThreads w w') : RestsWithin pool w number rank w'' := by
  obtain ⟨base, phase, hbase, hrank, hrests⟩ := h
  cases hbase with
  | nothing => exact ⟨w, phase, .nothing, hrank, hrests.since hsame⟩
  | worker => exact ⟨_, phase, .worker, hrank, hrests.since (hsame.forget _)⟩
  | both =>
    exact ⟨_, phase, .both, hrank, hrests.since (((hsame.giveUp _).forget _).forget _)⟩

/-- What workers are told does not change when one of them comes to rest. -/
lemma Rests.signals (h : Rests pool w number phase w') : w'.notices.1 = w.notices.1 := by
  cases h with
  | stopped same | ready same | polling _ _ same | claiming _ _ same | reporting _ _ _ _ same =>
    exact same.signals
  | executing _ _ _ _ same => exact same.signals.trans (congrArg Prod.fst (notices_wake _ _))

lemma RestsWithin.signals {rank : Nat} (h : RestsWithin pool w number rank w') :
    w'.notices.1 = w.notices.1 := by
  obtain ⟨base, phase, hbase, -, hrests⟩ := h
  cases hbase with
  | nothing | worker => exact hrests.signals
  | both => exact hrests.signals.trans (congrArg Prod.fst (notices_giveUp w number))

/-! ### Reports -/

lemma rests_makeReport (w : World) (pool : Pool) (number : Nat) (task : Task) (report : Report)
    (failure : Failure) :
    ∃ phase : Phase, phase.rank ≤ 1 ∧
      Rests pool w number phase (w.makeReport pool number task report failure) := by
  unfold makeReport
  split
  · exact ⟨.stopped, Nat.zero_le 1, .stopped (.refl _)⟩
  · simp only
    split
    · exact ⟨.ready, Nat.le_refl 1, .ready (.refl _)⟩
    · split
      · exact ⟨.stopped, Nat.zero_le 1, .stopped ⟨rfl, rfl, rfl, rfl, rfl, rfl⟩⟩
      · exact ⟨.ready, Nat.le_refl 1, .ready (.refl _)⟩
      · next record broker _ =>
        have hemitted : SameThreads ((w.setPhase number .ready).goOn number)
            ({ (w.setPhase number .ready).goOn number with broker := broker }.emit
              (report.event record)) := ⟨rfl, rfl, rfl, rfl, rfl, rfl⟩
        exact ⟨.ready, Nat.le_refl 1, .ready (hemitted.trans
          ((apart_notify _ pool record report).sameThreads (aside_notify _ pool record report)))⟩

lemma rests_beginReport (w : World) (pool : Pool) (number : Nat) (task : Task)
    (report : Report) : ∃ phase : Phase, phase.rank ≤ 2 ∧
      Rests pool w number phase (w.beginReport pool number task report) := by
  have hsame := sameThreads_takeFault w (reportOperation report)
  unfold beginReport
  generalize w.takeFault (reportOperation report) = taken at hsame ⊢
  obtain ⟨fault, w'⟩ := taken
  simp only
  split
  · obtain ⟨phase, hrank, hrests⟩ := rests_makeReport w' pool number task report fault.failure
    exact ⟨phase, hrank.trans (Nat.le_succ 1), hrests.since hsame⟩
  · next hlate =>
    exact ⟨.reporting task report fault.failure, Nat.le_refl 2,
      (Rests.reporting task report fault.failure hlate (.refl _)).since hsame⟩

lemma rests_endExecution (w : World) (pool : Pool) (number : Nat) (task : Task)
    (ending : Ending) : RestsWithin pool w number 2 (w.endExecution pool number task ending) := by
  obtain ⟨draw, generator, hends⟩ := endExecution_eq w pool number task ending
  rw [hends]
  generalize hforget : ((w.giveUp number).forget (.worker number)).forget (.handler number) = base
  have hdrawn : SameThreads base { base with generator := generator } :=
    ⟨rfl, rfl, rfl, rfl, rfl, rfl⟩
  obtain ⟨phase, hrank, hrests⟩ := rests_beginReport { base with generator := generator } pool
    number task (Report.ofResult pool.policy draw task (ending.result pool.taskTimeout))
  exact ⟨base, phase, hforget ▸ .both, hrank, hrests.since hdrawn⟩

/-! ### Claims -/

lemma rests_poll (w : World) (pool : Pool) (number : Nat) :
    RestsWithin pool w number 1 (w.poll pool number) := by
  unfold poll
  split
  · exact (Rests.stopped (.refl _)).within (Nat.zero_le 1)
  · next hgoing =>
    exact (Rests.polling (by simpa using hgoing) pool.pollInterval.millis (.refl _)).within
      (Nat.le_refl 1)

lemma rests_execute (w : World) (pool : Pool) (number : Nat) (task : Task) :
    RestsWithin pool w number 3 (w.execute pool number task) := by
  have hemit : SameThreads w (w.emit (TaskEvent.ofTask task .running)) :=
    ⟨rfl, rfl, rfl, rfl, rfl, rfl⟩
  unfold execute
  generalize w.emit (TaskEvent.ofTask task .running) = w' at hemit ⊢
  simp only
  split
  · obtain ⟨phase, hrank, hrests⟩ := rests_beginReport w' pool number task (.unregistered task)
    exact (hrests.within (hrank.trans (Nat.le_succ 2))).since hemit
  · split
    · exact ((rests_endExecution w' pool number task .interrupted).mono (Nat.le_succ 2)).since hemit
    · next handler hresolve hgoing =>
      have hcounted : SameThreads w' { w' with executions := w'.executions + 1 } :=
        ⟨rfl, rfl, rfl, rfl, rfl, rfl⟩
      have hrests := Rests.executing (by simpa using hgoing : w'.cancelled = false) task
        (Pool.Begins.intro hresolve) pool.taskTimeout.millis
        (((hcounted.setPhase number _).wake (.handler number)).startTimer _ _)
      exact (hrests.within (Nat.le_refl 3)).since hemit

lemma rests_makeClaim (w : World) (pool : Pool) (number : Nat) (failure : Failure) :
    RestsWithin pool w number 3 (w.makeClaim pool number failure) := by
  unfold makeClaim
  split
  · exact (Rests.stopped (.refl _)).within (Nat.zero_le 3)
  · split
    · exact (rests_poll w pool number).mono (by decide)
    · obtain ⟨words, w', hsame, -, hworld⟩ := claim_eq w pool.weights
      have hclaimed : SameThreads w (w.claim pool.weights).2 := by
        have haside := aside_claim w pool.weights
        refine ⟨?_, congrArg (·.1.1) haside, ?_, ?_, ?_, congrArg Prod.snd haside⟩
        · exact hworld ▸ hsame.time
        · exact hworld ▸ hsame.workers
        · exact hworld ▸ hsame.runnable
        · exact hworld ▸ hsame.timers
      generalize w.claim pool.weights = claimed at hclaimed ⊢
      obtain ⟨result, w''⟩ := claimed
      cases result with
      | ok task => exact (rests_execute w'' pool number task).since hclaimed
      | error error => exact ((rests_poll w'' pool number).mono (by decide)).since hclaimed

lemma rests_beginClaim (w : World) (pool : Pool) (number : Nat) :
    RestsWithin pool w number 4 (w.beginClaim pool number) := by
  have hsame := sameThreads_takeFault w .claim
  unfold beginClaim
  generalize w.takeFault .claim = taken at hsame ⊢
  obtain ⟨fault, w'⟩ := taken
  simp only
  split
  · exact ((rests_makeClaim w' pool number fault.failure).mono (Nat.le_succ 3)).since hsame
  · next hlate =>
    exact ((Rests.claiming fault.failure hlate (.refl _)).within (Nat.le_refl 4)).since hsame

/-! ## Steps -/

/-- Whether a worker that was woken has nothing to do yet. -/
def Waits (w : World) : Phase → Prop
  | .stopped => True
  | .polling dueMs => w.stopping = false ∧ w.elapsedMs < dueMs
  | .executing _ dueMs (.suspended _ _) => w.cancelled = false ∧ w.elapsedMs < dueMs
  | _ => False

/-- **How the step of a worker ends.**  A worker that was woken goes on waiting, or it comes to
rest, and closer to its end if it was told to stop. -/
theorem stepWorker_turn (w : World) (pool : Pool) (number : Nat) :
    (w.stepWorker pool number = w ∧ ∀ phase, w.workers[number]? = some phase → w.Waits phase) ∨
      ∃ phase rank, w.workers[number]? = some phase ∧
        RestsWithin pool w number rank (w.stepWorker pool number) ∧
          (w.stopping = true → rank < phase.rank) := by
  unfold stepWorker
  cases hphase : w.workers[number]? with
  | none => exact .inl ⟨rfl, by simp⟩
  | some phase =>
    have hstays : w.Waits phase → ∀ phase', some phase = some phase' → w.Waits phase' := by
      rintro hwaits phase' ⟨⟩
      exact hwaits
    cases phase with
    | stopped => exact .inl ⟨rfl, hstays trivial⟩
    | ready =>
      simp only
      split
      · exact .inr ⟨_, 0, rfl, (Rests.stopped (.refl _)).within (Nat.le_refl 0),
          fun _ => Nat.one_pos⟩
      · next hgoing =>
        exact .inr ⟨_, 4, rfl, rests_beginClaim w pool number, fun h => absurd h hgoing⟩
    | claiming failure =>
      exact .inr ⟨_, 3, rfl, rests_makeClaim w pool number failure, fun _ => Nat.lt_succ_self 3⟩
    | polling dueMs =>
      simp only
      split
      · exact .inr ⟨_, 0, rfl, ⟨_, .stopped, .worker, Nat.le_refl 0, .stopped (.refl _)⟩,
          fun _ => Nat.one_pos⟩
      · next hgoing =>
        split
        · exact .inr ⟨_, 4, rfl, rests_beginClaim w pool number, fun h => absurd h hgoing⟩
        · next hearly =>
          exact .inl ⟨rfl, hstays ⟨by simpa using hgoing, Nat.lt_of_not_le hearly⟩⟩
    | reporting task report failure =>
      obtain ⟨phase, hrank, hrests⟩ := rests_makeReport w pool number task report failure
      exact .inr ⟨_, 1, rfl, hrests.within hrank, fun _ => Nat.lt_succ_self 1⟩
    | executing task dueMs execution =>
      have hends : ∀ ending, ∃ phase rank,
          some (Phase.executing task dueMs execution) = some phase ∧
            RestsWithin pool w number rank (w.endExecution pool number task ending) ∧
              (w.stopping = true → rank < Phase.rank phase) :=
        fun ending => ⟨_, 2, rfl, rests_endExecution w pool number task ending,
          fun _ => Nat.lt_succ_self 2⟩
      simp only
      split
      · exact .inr (hends .interrupted)
      · next hgoing =>
        cases execution with
        | ended ending => exact .inr (hends ending)
        | suspended rest awaits =>
          simp only
          split
          · exact .inr (hends .timedOut)
          · next hearly =>
            exact .inl ⟨rfl, hstays ⟨by simpa using hgoing, Nat.lt_of_not_le hearly⟩⟩

/-- Whether a handler has come to rest in an execution, with the threads as they were but for those
of its worker. -/
inductive HandlerRests (w : World) (number : Nat) (task : Task) (dueMs : Nat) :
    Execution → World → Prop
  | ended {w' : World} (ending : Ending)
      (same : SameThreads ((w.setPhase number (.executing task dueMs (.ended ending))).wake
        (.worker number)) w') : HandlerRests w number task dueMs (.ended ending) w'
  | sleeping {w' : World} {millis : Nat} (late : millis ≠ 0) (rest : Resumption)
      (waiting : Waiting)
      (same : SameThreads ((w.setPhase number (.executing task dueMs
        (.suspended rest waiting))).startTimer (.handler number) millis) w') :
      HandlerRests w number task dueMs (.suspended rest waiting) w'
  | awaiting {w' : World} (going : w.cancelled = false) (rest : Resumption)
      (same : SameThreads (w.setPhase number (.executing task dueMs
        (.suspended rest .cancel))) w') :
      HandlerRests w number task dueMs (.suspended rest .cancel) w'

/-- **How the step of a handler ends.**  Nothing happens unless the handler is waiting, and then it
goes on with its procedure. -/
theorem stepHandler_turn (w : World) (number : Nat) :
    (w.stepHandler number = w ∧ ∀ task dueMs rest waiting,
        w.workers[number]? ≠ some (.executing task dueMs (.suspended rest waiting))) ∨
      ∃ task dueMs rest waiting execution,
      w.workers[number]? = some (.executing task dueMs (.suspended rest waiting)) ∧
        (∀ start, rest.Of start → execution.Of start) ∧
          HandlerRests w number task dueMs execution (w.stepHandler number) := by
  unfold stepHandler
  split
  · next task dueMs rest waiting hphase =>
    refine .inr ⟨task, dueMs, rest, waiting,
      (resume w.cancelled w.executions rest w).1.execution w.elapsedMs, hphase,
      fun start h => resume_of w.executions w.elapsedMs h w, ?_⟩
    -- A handler that waits to be told to stop was not told so.
    have hpause := @resume_ends w.cancelled (SameThreads w) (fun pause w' => SameThreads w w' ∧
        match pause with
        | .ended _ => True
        | .sleeping millis _ => millis ≠ 0
        | .computing millis _ => millis ≠ 0
        | .awaitingCancel _ => w.cancelled = false) w.executions
      (fun w' request h => h.trans ((apart_beginRequest w' request).sameThreads
        (aside_beginRequest w' request)))
      (fun w' failure request h => h.trans ((handled_attempt w' w.cancelled failure
        request).sameThreads (aside_attempt w' w.cancelled failure request)))
      (fun _ _ h _ => ⟨h, trivial⟩) (fun _ _ _ h hlate => ⟨h, hlate⟩)
      (fun _ _ _ h hlate => ⟨h, hlate⟩) (fun _ _ h hgoing => ⟨h, hgoing⟩) rest w (.refl w)
    generalize resume w.cancelled w.executions rest w = resumed at hpause ⊢
    obtain ⟨pause, w'⟩ := resumed
    obtain ⟨hsame, hproper⟩ := hpause
    cases pause with
    | ended ending => exact .ended ending ((hsame.setPhase _ _).wake _)
    | sleeping millis rest =>
      exact .sleeping hproper rest .time ((hsame.setPhase _ _).startTimer _ _)
    | awaitingCancel rest => exact .awaiting hproper rest (hsame.setPhase _ _)
    | computing millis rest =>
      have helapsed : w'.elapsedMs = w.elapsedMs := elapsedMs_eq hsame.time
      simp only [helapsed]
      exact .sleeping hproper (.run rest) (.computing _) ((hsame.setPhase _ _).startTimer _ _)
  · next hnone => exact .inl ⟨rfl, hnone⟩

lemma HandlerRests.signals {task : Task} {dueMs : Nat} {execution : Execution}
    (h : HandlerRests w number task dueMs execution w') : w'.notices.1 = w.notices.1 := by
  cases h with
  | ended _ same => exact same.signals.trans (congrArg Prod.fst (notices_wake _ _))
  | sleeping _ _ _ same | awaiting _ _ same => exact same.signals

/-- What workers are told does not change by what a thread does. -/
lemma signals_step (w : World) (pool : Pool) (thread : Thread) :
    (w.step pool thread).notices.1 = w.notices.1 := by
  cases thread with
  | worker number =>
    change (w.stepWorker pool number).notices.1 = w.notices.1
    rcases w.stepWorker_turn pool number with ⟨hsame, -⟩ | ⟨_, _, -, hrests, -⟩
    · rw [hsame]
    · exact hrests.signals
  | handler number =>
    change (w.stepHandler number).notices.1 = w.notices.1
    rcases w.stepHandler_turn number with ⟨hsame, -⟩ | ⟨_, _, _, _, _, -, -, hrests⟩
    · rw [hsame]
    · exact hrests.signals

end World
end WorkQueue
