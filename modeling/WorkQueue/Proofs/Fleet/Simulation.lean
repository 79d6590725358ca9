import Mathlib.Logic.Relation
import WorkQueue.Proofs.Fleet.Deployment
import WorkQueue.Proofs.Fleet.Events

/-!
# Deployments are fleets

The workers of a deployment do only what those of a shift can do.  `Deployed.step` is the step of
the simulation: whatever thread of a deployment moves, the shift can follow by steps at the same
time.

Where workers can be late or crash, the time of a worker may be over before it reports.  Then the
deployment is no shift, but still a fleet (`Ran.shown`), whatever faults strike it.  The shift and
the fleet tell their observers what the deployment does, in the same order (`Tracks`).
-/

namespace WorkQueue

open Broker Relation

namespace World

variable {pool : Pool} {crashes : Prop} {w w' : World} {shift : Shift} {number : Nat} {task : Task}

/-! ## Following a deployment -/

/-- Whether a shift can follow a deployment from one world to another at the same time. -/
def Follows (pool : Pool) (crashes : Prop) (w : World) (shift : Shift) (w' : World) : Prop :=
  w'.time = w.time ∧ ∃ next, ReflTransGen (Shift.Step pool w.origin) shift next ∧
    Deployed pool crashes w' next

/-- How the execution of a worker that was told to stop ends: as it did, or by interruption if the
worker was told to stop at once. -/
def Finishes (w : World) (number : Nat) (ending : Ending) : Prop :=
  w.stopping = false ∨ ∃ task dueMs execution,
    w.workers[number]? = some (.executing task dueMs execution) ∧
      if w.cancelled then ending = .interrupted
      else execution.outcome? dueMs w.elapsedMs = some ending

/-- What the fleet of a deployment may do at a moment, by the clock of the deployment and as its
pool does it.  A worker that was told to stop claims no task and only finishes what it does; both
hold of a worker that is neither late nor crashes. -/
def Permits (pool : Pool) (crashes : Prop) (w : World) (fleet : Fleet) : Fleet.Event → Prop
  | .enqueue _ now => now = w.now
  | .claim worker _ weights _ now => now = w.now ∧ weights = pool.weights ∧
      fleet.hands worker = none ∧ (crashes ∨ w.stopping = false)
  | .finish worker owner _ ending now => now = w.now ∧ owner = pool ∧
      (crashes ∨ w.Finishes worker ending)
  | .abandon _ => crashes

/-- A step of a shift in which its fleet does something that a deployment permits, with all that
observers have learned, newest first, and when. -/
inductive Act (pool : Pool) (crashes : Prop) (w : World) :
    Shift × List (TaskEvent × Nat) → Shift × List (TaskEvent × Nat) → Prop
  | act {shift next : Shift} {told : List (TaskEvent × Nat)} (event : Fleet.Event)
      (step : Shift.Step pool w.origin shift next) (happens : next.fleet = shift.fleet.apply event)
      (permitted : Permits pool crashes w shift.fleet event) :
      Act pool crashes w (shift, told)
        (next, ((shift.fleet.tells event).toList.map (·, w.elapsedMs)) ++ told)

/-- Whether a shift can follow a deployment by what the deployment permits, while the workers are
told nothing and observers learn the same of both. -/
def Tracks (pool : Pool) (crashes : Prop) (w : World) (shift : Shift) (w' : World) : Prop :=
  w'.time = w.time ∧ w'.notices.1 = w.notices.1 ∧ ∃ next,
    ReflTransGen (Act pool crashes w) (shift, w.events) (next, w'.events) ∧
      Deployed pool crashes w' next

lemma steps_of_acts {next : Shift} {before after : List (TaskEvent × Nat)}
    (h : ReflTransGen (Act pool crashes w) (shift, before) (next, after)) :
    ReflTransGen (Shift.Step pool w.origin) shift next := by
  have hstep : ∀ log log', Act pool crashes w log log' →
      Shift.Step pool w.origin log.1 log'.1 := fun _ _ hact => by
    cases hact with
    | act _ step => exact step
  exact h.lift Prod.fst hstep

lemma follows_of_acts {lossy : Prop} {before after : List (TaskEvent × Nat)}
    (htime : w'.time = w.time) (h : ∃ next,
      ReflTransGen (Act pool lossy w) (shift, before) (next, after) ∧
        Deployed pool crashes w' next) : Follows pool crashes w shift w' := by
  obtain ⟨next, hacts, hdeployed⟩ := h
  exact ⟨htime, next, steps_of_acts hacts, hdeployed⟩

lemma Tracks.follows (h : Tracks pool crashes w shift w') : Follows pool crashes w shift w' :=
  follows_of_acts h.1 h.2.2

lemma Finishes.congr {ending : Ending} (h : w'.Finishes number ending) (htime : w'.time = w.time)
    (hsignals : w'.notices.1 = w.notices.1) (hworkers : w'.workers = w.workers) :
    w.Finishes number ending := by
  have hstopping : w'.stopping = w.stopping := congrArg Prod.fst hsignals
  have hcancelled : w'.cancelled = w.cancelled := congrArg (·.2.1) hsignals
  unfold Finishes at h ⊢
  rwa [hstopping, hcancelled, hworkers, elapsedMs_eq htime] at h

/-- What may be done depends on the time, on what the workers were told and on what they do. -/
lemma Act.congr (htime : w'.time = w.time) (hsignals : w'.notices.1 = w.notices.1)
    (hworkers : w'.workers = w.workers) {before after : Shift × List (TaskEvent × Nat)}
    (h : Act pool crashes w' before after) : Act pool crashes w before after := by
  have hstopping : w'.stopping = w.stopping := congrArg Prod.fst hsignals
  cases h with
  | act event step happens permitted =>
    rw [origin_eq htime] at step
    rw [elapsedMs_eq htime]
    refine .act event step happens ?_
    cases event with
    | enqueue => exact permitted.trans (now_eq htime)
    | claim =>
      obtain ⟨hnow, hweights, hidle, hgoing⟩ := permitted
      exact ⟨hnow.trans (now_eq htime), hweights, hidle, by rwa [hstopping] at hgoing⟩
    | finish =>
      obtain ⟨hnow, howner, hends⟩ := permitted
      exact ⟨hnow.trans (now_eq htime), howner,
        hends.imp_right (·.congr htime hsignals hworkers)⟩
    | abandon => exact permitted

lemma Deployed.tracks (h : Deployed pool crashes w' shift) (htime : w'.time = w.time)
    (hnotices : w'.notices = w.notices) : Tracks pool crashes w shift w' := by
  have hevents : w'.events = w.events := congrArg Prod.snd hnotices
  refine ⟨htime, congrArg Prod.fst hnotices, shift, ?_, h⟩
  rw [hevents]

/-- After that the deployment does what neither the shift nor its observers see. -/
lemma Deployed.tracked {middle : Shift} {w'' : World} (h : Deployed pool crashes w'' middle)
    (htime' : w''.time = w'.time) (hnotices : w''.notices = w'.notices)
    (htime : w'.time = w.time) (hsignals : w'.notices.1 = w.notices.1)
    (hacts : ReflTransGen (Act pool crashes w) (shift, w.events) (middle, w'.events)) :
    Tracks pool crashes w shift w'' := by
  have hevents : w''.events = w'.events := congrArg Prod.snd hnotices
  refine ⟨htime'.trans htime, (congrArg Prod.fst hnotices).trans hsignals, middle, ?_, h⟩
  rwa [hevents]

lemma Tracks.after {middle : Shift} {w'' : World} (h : Tracks pool crashes w' middle w'')
    (htime : w'.time = w.time) (hsignals : w'.notices.1 = w.notices.1)
    (hworkers : w'.workers = w.workers)
    (hacts : ReflTransGen (Act pool crashes w) (shift, w.events) (middle, w'.events)) :
    Tracks pool crashes w shift w'' := by
  obtain ⟨htime', hsignals', next, hacts', hdeployed⟩ := h
  exact ⟨htime'.trans htime, hsignals'.trans hsignals, next,
    hacts.trans (ReflTransGen.mono (fun _ _ => Act.congr htime hsignals hworkers) _ _ hacts'),
    hdeployed⟩

/-- Nothing that concerns the shift or its observers has happened before. -/
lemma Tracks.since {w'' : World} (h : Tracks pool crashes w' shift w'')
    (hsame : Unmoved w w') (hnotices : w'.notices = w.notices) :
    Tracks pool crashes w shift w'' := by
  have hevents : w'.events = w.events := congrArg Prod.snd hnotices
  exact h.after hsame.time (congrArg Prod.fst hnotices) hsame.workers (by rw [hevents])

/-- A worker that crashes, or whose report fails on the way, abandons its task. -/
lemma Nearly.abandon {held : Option Task} (h : Nearly pool crashes w shift number held) :
    Nearly pool crashes w { shift with fleet := shift.fleet.apply (.abandon number) } number
      none where
  elapsed := h.elapsed
  ledger := h.ledger
  hands := by
    change Function.update shift.fleet.hands number none = _
    rw [h.hands, Function.update_idem]
  honest := h.honest
  faults := h.faults
  present := h.present

/-- The shift and the deployment after a report have the same broker, whether or not the report is
accepted. -/
lemma Nearly.finish (h : Nearly pool crashes w shift number (some task)) (draw : Nat)
    (ending : Ending) :
    Nearly pool crashes
      { w with broker := (w.broker.serve ((pool.reportOn draw task ending).call task w.now)).2 }
      { shift with fleet := shift.fleet.apply (.finish number pool draw ending w.now) } number
      none where
  elapsed := h.elapsed
  ledger := by
    simp only [Fleet.apply, h.hands_self]
    rw [Trace.ledger_extend_of_none (Report.enqueued?_call _ task w.now), h.ledger]
    rfl
  hands := by
    simp only [Fleet.apply, h.hands_self]
    rw [h.hands, Function.update_idem]
    rfl
  honest := h.honest
  faults := h.faults
  present := h.present

/-! ### Reports -/

/-- Whether a report is one that a worker may make at a moment. -/
def MayReport (pool : Pool) (crashes : Prop) (w : World) (number : Nat) (task : Task)
    (report : Report) : Prop :=
  ∃ draw ending, pool.reportOn draw task ending = report ∧ (crashes ∨ w.Finishes number ending)

lemma Nearly.makeReport (h : Nearly pool crashes w shift number (some task)) {report : Report}
    (hreport : MayReport pool crashes w number task report) {failure : Failure}
    (hfailure : crashes ∨ failure = .none) :
    Tracks pool crashes w shift (w.makeReport pool number task report failure) := by
  have habandon : crashes → ReflTransGen (Act pool crashes w) (shift, w.events)
      ({ shift with fleet := shift.fleet.apply (.abandon number) }, w.events) :=
    fun hcrash => .single (.act (.abandon number) (.abandon number) rfl hcrash)
  unfold World.makeReport
  split
  · have hcrash : crashes := hfailure.resolve_right fun hnone => by cases hnone
    exact (h.abandon.setPhase .stopped rfl trivial).tracked rfl rfl rfl rfl (habandon hcrash)
  · simp only
    split
    · next hqueue =>
      have hcrash : crashes := hfailure.resolve_right fun hnone => by
        rw [hnone] at hqueue
        cases hqueue
      have hready := (h.abandon.setPhase .ready rfl trivial).unmoved (unmoved_goOn _ number)
      exact hready.tracked rfl rfl rfl rfl (habandon hcrash)
    · obtain ⟨draw, ending, rfl, hends⟩ := hreport
      have hstep : Shift.Step pool w.origin shift _ := .finish number draw ending
      rw [h.clock] at hstep
      have hact : Act pool crashes w (shift, w.events) _ :=
        .act (.finish number pool draw ending w.now) hstep rfl ⟨rfl, rfl, hends⟩
      simp only [Fleet.tells, h.hands_self, h.broker, Option.bind_some] at hact
      have hfinish := h.finish draw ending
      rw [Report.serve_call] at hfinish
      cases hperform : (pool.reportOn draw task ending).perform w.broker task w.now with
      | mk answer broker =>
        rw [hperform] at hfinish hact
        cases answer with
        | crashed =>
          exact (hfinish.setPhase .stopped rfl trivial).tracked rfl rfl rfl rfl (.single hact)
        | error error =>
          obtain rfl := Report.perform_refused hperform
          have hready := (hfinish.setPhase .ready rfl trivial).unmoved (unmoved_goOn _ number)
          exact hready.tracked rfl rfl rfl rfl (.single hact)
        | ok record =>
          have hready := (hfinish.setPhase .ready rfl trivial).unmoved (unmoved_goOn _ number)
          have hemitted := hready.unmoved
            (apart_emit _ ((pool.reportOn draw task ending).event record)).toUnmoved
          have hhook := hemitted.unmoved
            (apart_notify _ pool record (pool.reportOn draw task ending)).toUnmoved
          exact hhook.tracked (apart_notify _ pool record _).time
            (notices_notify _ pool record _) rfl rfl (.single hact)

/-- The operation of a report is one of the workers. -/
lemma isWorkers_reportOperation (report : Report) : (reportOperation report).isWorkers = true := by
  cases report <;> rfl

lemma MayReport.congr {report : Report} (h : MayReport pool crashes w number task report)
    (hsame : Unmoved w w') (hnotices : w'.notices = w.notices) :
    MayReport pool crashes w' number task report := by
  obtain ⟨draw, ending, hreport, hends⟩ := h
  exact ⟨draw, ending, hreport, hends.imp_right
    (·.congr hsame.time.symm (congrArg Prod.fst hnotices.symm) hsame.workers.symm)⟩

lemma Nearly.beginReport (h : Nearly pool crashes w shift number (some task)) {report : Report}
    (hreport : MayReport pool crashes w number task report) :
    Tracks pool crashes w shift (w.beginReport pool number task report) := by
  have hsame := (apart_takeFault w (reportOperation report)).toUnmoved
  have hnotices := notices_takeFault w (reportOperation report)
  have hnone := takeFault_none (isWorkers_reportOperation report) h.faults
  unfold World.beginReport
  generalize w.takeFault (reportOperation report) = taken at hsame hnotices hnone ⊢
  obtain ⟨fault, w'⟩ := taken
  have hw' := h.unmoved hsame
  simp only at hnone ⊢
  split
  · refine (hw'.makeReport (hreport.congr hsame hnotices) (hnone.imp_right ?_)).since hsame hnotices
    rintro rfl
    rfl
  · next hlate =>
    have hcrash : crashes := hnone.resolve_right fun hfault => hlate (hfault ▸ rfl)
    obtain ⟨draw, ending, hreport, -⟩ := hreport
    exact ((hw'.setPhase (.reporting task report fault.failure) rfl
      ⟨hcrash, draw, ending, hreport⟩).unmoved (unmoved_startTimer _ _ _)).tracks hsame.time
        hnotices

lemma reportOn_of_handled {draw : Nat} {ending : Ending}
    (hhandled : pool.registry.resolve? task.kind ≠ none) :
    pool.reportOn draw task ending =
      .ofResult pool.policy draw task (ending.result pool.taskTimeout) := by
  unfold Pool.reportOn
  split
  · next hnone => exact absurd hnone hhandled
  · rfl

lemma Nearly.endExecution (h : Nearly pool crashes w shift number (some task))
    (hhandled : pool.registry.resolve? task.kind ≠ none) {ending : Ending}
    (hends : crashes ∨ w.Finishes number ending) :
    Tracks pool crashes w shift (w.endExecution pool number task ending) := by
  obtain ⟨draw, generator, hexecution⟩ := endExecution_eq w pool number task ending
  rw [hexecution]
  have hworker := (apart_giveUp w number).toUnmoved.trans (unmoved_forget _ (.worker number))
  have hforget := hworker.trans (unmoved_forget _ (.handler number))
  have hnotices : (((w.giveUp number).forget (.worker number)).forget (.handler number)).notices =
      w.notices := notices_giveUp w number
  have hends' : crashes ∨ (((w.giveUp number).forget (.worker number)).forget
      (.handler number)).Finishes number ending :=
    hends.imp_right (·.congr hforget.time.symm (congrArg Prod.fst hnotices.symm)
      hforget.workers.symm)
  generalize ((w.giveUp number).forget (.worker number)).forget (.handler number) = w'
    at hforget hnotices hends' ⊢
  have hdrawn : Apart w' { w' with generator := generator } := apart_of_rfl rfl rfl rfl rfl rfl rfl
  have hsame := hforget.trans hdrawn.toUnmoved
  exact ((h.unmoved hsame).beginReport
    ⟨draw, ending, reportOn_of_handled hhandled, hends'⟩).since hsame hnotices

/-! ### Claims -/

lemma Nearly.poll (h : Nearly pool crashes w shift number none) :
    Tracks pool crashes w shift (w.poll pool number) := by
  unfold World.poll
  split
  · exact (h.setPhase .stopped rfl trivial).tracks rfl rfl
  · exact ((h.setPhase (.polling _) rfl trivial).unmoved (unmoved_startTimer _ _ _)).tracks rfl rfl

/-- What a worker does with a task whose claim was told of; the time of the task is that of the
pool, in whole milliseconds. -/
lemma Nearly.execute (h : Nearly pool crashes w shift number (some task))
    (hgoing : crashes ∨ w.stopping = false)
    (hdue : shift.due number = shift.elapsed + pool.taskTimeout.nanos) :
    Tracks pool crashes (w.emit (TaskEvent.ofTask task .running)) shift
      (w.execute pool number task) := by
  unfold World.execute
  have hw' := h.unmoved (apart_emit w (TaskEvent.ofTask task .running)).toUnmoved
  have hends : ∀ ending, crashes ∨
      (w.emit (TaskEvent.ofTask task .running)).Finishes number ending :=
    fun _ => hgoing.imp_right .inl
  generalize w.emit (TaskEvent.ofTask task .running) = w' at hw' hends ⊢
  simp only
  split
  · next hnone =>
    -- How the execution ended decides nothing, because there was none.
    have hreport : pool.reportOn 0 task .timedOut = .unregistered task := by
      rw [Pool.reportOn, hnone]
    exact hw'.beginReport ⟨0, .timedOut, hreport, hends .timedOut⟩
  · next handler hsome =>
    have hhandled : pool.registry.resolve? task.kind ≠ none := by simp [hsome]
    split
    · exact hw'.endExecution hhandled (hends .interrupted)
    · have hcounted : Apart w' { w' with executions := w'.executions + 1 } :=
        apart_of_rfl rfl rfl rfl rfl rfl rfl
      have hlength : (w'.elapsedMs + pool.taskTimeout.millis) * nanosPerMilli ≤
          shift.due number := by
        have hmillis := Nat.div_mul_le_self pool.taskTimeout.nanos nanosPerMilli
        rw [hdue, hw'.elapsed, Nat.add_mul]
        exact Nat.add_le_add_left hmillis _
      have hphase := (hw'.unmoved hcounted.toUnmoved).setPhase
        (.executing task (w'.elapsedMs + pool.taskTimeout.millis)
          (.suspended (.run (handler (Delivery.ofTask task) task)) .time)) rfl
        ⟨hhandled, hlength, Execution.noConfusion⟩
      have hstarted := (hphase.unmoved (unmoved_wake _ (.handler number))).unmoved
        (unmoved_startTimer _ (.worker number) pool.taskTimeout.millis)
      exact hstarted.tracks ((unmoved_wake _ _).trans (unmoved_startTimer _ _ _)).time
        (notices_wake _ (.handler number))

lemma Nearly.makeClaim (h : Nearly pool crashes w shift number none)
    (hgoing : crashes ∨ w.stopping = false) (failure : Failure) :
    Tracks pool crashes w shift (w.makeClaim pool number failure) := by
  unfold World.makeClaim
  split
  · exact (h.setPhase .stopped rfl trivial).tracks rfl rfl
  · split
    · exact h.poll
    · obtain ⟨words, w', hsame, hanswer, hworld⟩ := claim_eq w pool.weights
      have hstep : Shift.Step pool w.origin shift _ := .claim number .listed words h.hands_self
      rw [h.clock] at hstep
      have hact : Act pool crashes w (shift, w.events) _ :=
        .act (.claim number .listed pool.weights words w.now) hstep rfl
          ⟨rfl, rfl, h.hands_self, hgoing⟩
      simp only [Fleet.tells, h.broker, ← hanswer] at hact
      have hclaimed : Nearly pool crashes (w.claim pool.weights).2
          { shift with
            fleet := shift.fleet.apply (.claim number .listed pool.weights words w.now)
            due := Function.update shift.due number (shift.elapsed + pool.taskTimeout.nanos) }
          number (Fleet.taken (.ofExcept ((w.claim pool.weights).1.map some))) := by
        have hw' := h.unmoved hsame.toUnmoved
        rw [hworld]
        refine ⟨hw'.elapsed, ?_, ?_, fun other phase hother hphase => ?_, hw'.faults, hw'.present⟩
        · simp only [Fleet.apply]
          rw [Trace.ledger_extend_of_none fun _ => rfl, h.ledger]
          exact congrArg (Prod.mk _) (congrArg Prod.snd hsame.ledger.symm)
        · simp only [Fleet.apply]
          rw [hw'.hands, Function.update_idem, hanswer, h.broker]
          rfl
        · simp only [Function.update_of_ne hother]
          exact hw'.honest other phase hother hphase
      have htime : (w.claim pool.weights).2.time = w.time := by
        rw [hworld]
        exact hsame.time
      have hworkers : (w.claim pool.weights).2.workers = w.workers := by
        rw [hworld]
        exact hsame.workers
      have hnotices : (w.claim pool.weights).2.notices = w.notices :=
        congrArg Prod.fst (aside_claim w pool.weights)
      generalize w.claim pool.weights = claimed at hact hclaimed htime hworkers hnotices ⊢
      obtain ⟨result, w''⟩ := claimed
      have hsignals : w''.notices.1 = w.notices.1 := congrArg Prod.fst hnotices
      have hevents : w''.events = w.events := congrArg Prod.snd hnotices
      cases result with
      | ok task =>
        have hrunning : (w''.emit (TaskEvent.ofTask task .running)).events =
            (TaskEvent.ofTask task .running, w.elapsedMs) :: w.events := by
          rw [← hevents, ← elapsedMs_eq htime]
          rfl
        have hgoing' : crashes ∨ w''.stopping = false :=
          hgoing.imp_right (congrArg Prod.fst hsignals).trans
        refine (hclaimed.execute hgoing' (Function.update_self _ _ _)).after htime hsignals
          hworkers ?_
        rw [hrunning]
        exact .single hact
      | error error =>
        refine hclaimed.poll.after htime hsignals hworkers ?_
        rw [hevents]
        exact .single hact

lemma Nearly.beginClaim (h : Nearly pool crashes w shift number none)
    (hgoing : w.stopping = false) : Tracks pool crashes w shift (w.beginClaim pool number) := by
  have hsame := (apart_takeFault w .claim).toUnmoved
  have hnotices := notices_takeFault w .claim
  have hnone := takeFault_none (by rfl : Operation.claim.isWorkers = true) h.faults
  unfold World.beginClaim
  generalize w.takeFault .claim = taken at hsame hnotices hnone ⊢
  obtain ⟨fault, w'⟩ := taken
  have hw' := h.unmoved hsame
  have hstopping : w'.stopping = w.stopping := congrArg (·.1.1) hnotices
  simp only at hnone ⊢
  split
  · exact (hw'.makeClaim (.inr (hstopping.trans hgoing)) fault.failure).since hsame hnotices
  · next hlate =>
    have hcrash : crashes := hnone.resolve_right fun hfault => hlate (hfault ▸ rfl)
    exact ((hw'.setPhase (.claiming fault.failure) rfl hcrash).unmoved
      (unmoved_startTimer _ _ _)).tracks hsame.time hnotices

/-! ### Workers -/

/-- A shift can follow every step of a worker. -/
lemma Deployed.stepWorker (h : Deployed pool crashes w shift) (number : Nat) :
    Tracks pool crashes w shift (w.stepWorker pool number) := by
  unfold World.stepWorker
  cases hphase : w.workers[number]? with
  | none => exact h.tracks rfl rfl
  | some phase =>
    have hnearly := h.nearly hphase
    have hhonest := h.honest number phase hphase
    cases phase with
    | stopped => exact h.tracks rfl rfl
    | ready =>
      simp only
      split
      · exact (hnearly.setPhase .stopped rfl trivial).tracks rfl rfl
      · next hgoing => exact hnearly.beginClaim (by simpa using hgoing)
    | claiming failure => exact hnearly.makeClaim (.inl hhonest) failure
    | polling dueMs =>
      simp only
      split
      · exact ((hnearly.unmoved (unmoved_forget w _)).setPhase .stopped rfl trivial).tracks rfl rfl
      · next hgoing =>
        split
        · exact hnearly.beginClaim (by simpa using hgoing)
        · exact h.tracks rfl rfl
    | reporting task report failure =>
      obtain ⟨hcrash, draw, ending, hreport⟩ := hhonest
      exact hnearly.makeReport ⟨draw, ending, hreport, .inl hcrash⟩ (.inl hcrash)
    | executing task dueMs execution =>
      simp only
      split
      · next hcancelled =>
        have hends : w.Finishes number .interrupted :=
          .inr ⟨task, dueMs, execution, hphase, by rw [if_pos hcancelled]⟩
        exact hnearly.endExecution hhonest.1 (.inr hends)
      · next hgoing =>
        have hends : ∀ ending, execution.outcome? dueMs w.elapsedMs = some ending →
            w.Finishes number ending :=
          fun ending hending => .inr ⟨task, dueMs, execution, hphase, by rwa [if_neg hgoing]⟩
        split
        · exact hnearly.endExecution hhonest.1 (.inr (hends _ rfl))
        · split
          · next hdue =>
            exact hnearly.endExecution hhonest.1 (.inr (hends _ (if_pos hdue)))
          · exact h.tracks rfl rfl

/-! ### Handlers -/

/-- A shift can follow what a handler does, of which observers learn nothing. -/
lemma Deployed.acts (h : Deployed pool crashes w shift) (hhandled : Handled w w')
    (told : List (TaskEvent × Nat)) :
    ∃ next, ReflTransGen (Act pool crashes w) (shift, told) (next, told) ∧
      Deployed pool crashes w' next := by
  induction hhandled with
  | refl => exact ⟨shift, .refl, h⟩
  | apart _ apart ih =>
    obtain ⟨next, hacts, hdeployed⟩ := ih
    exact ⟨next, hacts, hdeployed.unmoved apart.toUnmoved⟩
  | @enqueue w' hhandled task ih =>
    obtain ⟨next, hacts, hdeployed⟩ := ih
    have hstep : Shift.Step pool w'.origin next _ := .enqueue task
    rw [hdeployed.clock, origin_eq hhandled.frame.1] at hstep
    refine ⟨_, hacts.tail (.act (.enqueue task w'.now) hstep rfl
      (now_eq hhandled.frame.1)), ?_⟩
    rw [enqueue_eq]
    refine ⟨hdeployed.elapsed, ?_, hdeployed.hands, hdeployed.honest, hdeployed.faults⟩
    simp only [Fleet.apply]
    rw [Trace.ledger_extend, hdeployed.ledger]
    rfl

lemma Deployed.handled (h : Deployed pool crashes w shift) (hhandled : Handled w w') :
    Follows pool crashes w shift w' :=
  follows_of_acts hhandled.frame.1 (h.acts hhandled [])

lemma Deployed.quiet (h : Deployed pool crashes w shift) (hhandled : Handled w w')
    (hnotices : w'.notices = w.notices) : Tracks pool crashes w shift w' := by
  obtain ⟨next, hacts, hdeployed⟩ := h.acts hhandled w.events
  have hevents : w'.events = w.events := congrArg Prod.snd hnotices
  refine ⟨hhandled.frame.1, congrArg Prod.fst hnotices, next, ?_, hdeployed⟩
  rwa [hevents]

/-- A shift can follow every step of a handler. -/
lemma Deployed.stepHandler (h : Deployed pool crashes w shift) (number : Nat) :
    Tracks pool crashes w shift (w.stepHandler number) := by
  unfold World.stepHandler
  split
  · next task dueMs rest waiting hphase =>
    have hresume := handled_resume w.cancelled w.executions rest w
    have hnotices := notices_resume w.cancelled w.executions rest w
    have hown : ∀ ending, (resume w.cancelled w.executions rest w).1 = .ended ending →
        ending ≠ .interrupted := fun _ => resume_own
    generalize resume w.cancelled w.executions rest w = resumed at hresume hnotices hown ⊢
    obtain ⟨pause, w'⟩ := resumed
    obtain ⟨htime, hsignals, next, hacts, hdeployed⟩ := h.quiet hresume hnotices
    have hphase' :
        w'.workers[number]? = some (.executing task dueMs (.suspended rest waiting)) := by
      rw [← hphase]
      exact congrArg (·[number]?) hresume.frame.2.1
    have hnearly := hdeployed.nearly hphase'
    obtain ⟨hhandled, hdue, -⟩ := hdeployed.honest number _ hphase'
    cases pause with
    | ended ending =>
      have hended := (hnearly.setPhase (.executing task dueMs (.ended ending)) rfl
        ⟨hhandled, hdue, by simpa using hown ending rfl⟩).unmoved
          (unmoved_wake _ (.worker number))
      exact hended.tracked (unmoved_wake _ _).time (notices_wake _ (.worker number)) htime hsignals
        hacts
    | sleeping millis rest =>
      have hasleep := (hnearly.setPhase (.executing task dueMs (.suspended rest .time)) rfl
        ⟨hhandled, hdue, Execution.noConfusion⟩).unmoved
          (unmoved_startTimer _ (.handler number) millis)
      exact hasleep.tracked rfl rfl htime hsignals hacts
    | awaitingCancel rest =>
      have hwaits := hnearly.setPhase (.executing task dueMs (.suspended rest .cancel)) rfl
        ⟨hhandled, hdue, Execution.noConfusion⟩
      exact hwaits.tracked rfl rfl htime hsignals hacts
    | computing millis rest =>
      have hcomputes := (hnearly.setPhase (.executing task dueMs
        (.suspended (.run rest) (.computing (w'.elapsedMs + millis)))) rfl
        ⟨hhandled, hdue, Execution.noConfusion⟩).unmoved
          (unmoved_startTimer _ (.handler number) millis)
      exact hcomputes.tracked rfl rfl htime hsignals hacts
  · exact h.tracks rfl rfl

/-- **A shift can follow every step of a deployment**, by steps at the same time, and observers
learn the same of both. -/
theorem Deployed.step (h : Deployed pool crashes w shift) (thread : Thread) :
    Tracks pool crashes w shift (w.step pool thread) := by
  cases thread with
  | worker number => exact h.stepWorker number
  | handler number => exact h.stepHandler number

/-! ### Time, starts and stops -/

lemma Deployed.moveTo (h : Deployed pool crashes w shift) (timeMs : Nat) :
    Deployed pool crashes (w.moveTo timeMs) { shift with elapsed := timeMs * nanosPerMilli } := by
  have hmoved : Deployed pool crashes (w.clockAt timeMs)
      { shift with elapsed := timeMs * nanosPerMilli } :=
    ⟨rfl, h.ledger, h.hands, h.honest, h.faults⟩
  exact hmoved.unmoved (moveTo_wakes w timeMs).unmoved

/-- Workers that are stopped where they are abandon what they have in hand. -/
lemma Deployed.clear (h : Deployed pool crashes w shift) (htime : w'.time = w.time)
    (hledger : w'.ledger = w.ledger) (hfaults : w'.faults = w.faults)
    (hevents : w'.events = w.events) (hidle : ∀ phase ∈ w'.workers, phase = .ready) :
    ∃ next, ReflTransGen (Act pool True w) (shift, w.events) (next, w'.events) ∧
      Deployed pool crashes w' next := by
  have habandon : ∀ count, ∃ next,
      ReflTransGen (Act pool True w) (shift, w.events) (next, w.events) ∧
        next.elapsed = shift.elapsed ∧ next.fleet.trace = shift.fleet.trace ∧
          next.fleet.hands =
            fun number => if number < count then none else shift.fleet.hands number := by
    intro count
    induction count with
    | zero => exact ⟨shift, .refl, rfl, rfl, by simp⟩
    | succ count ih =>
      obtain ⟨next, hacts, helapsed, htrace, hhands⟩ := ih
      refine ⟨_, hacts.tail (.act (.abandon count) (.abandon count) rfl trivial), helapsed, htrace,
        ?_⟩
      funext number
      simp only [Fleet.apply, Function.update_apply, hhands]
      by_cases hnumber : number = count
      · simp [hnumber]
      · have hlt : number < count + 1 ↔ number < count := by omega
        simp [hnumber, hlt]
  have hready : ∀ number phase, w'.workers[number]? = some phase → phase = Phase.ready :=
    fun number phase hphase => hidle phase (List.mem_of_getElem? hphase)
  obtain ⟨next, hacts, helapsed, htrace, hhands⟩ := habandon w.workers.length
  refine ⟨next, hevents ▸ hacts, ?_, ?_, ?_, fun number phase hphase => ?_, hfaults ▸ h.faults⟩
  · rw [helapsed, h.elapsed, elapsedMs_eq htime]
  · rw [htrace, hledger, h.ledger]
  · funext number
    have hnone : w'.hand number = none := by
      rw [hand]
      cases hphase : w'.workers[number]? with
      | none => rfl
      | some phase =>
        rw [hready number phase hphase]
        rfl
    rw [hhands, hnone, h.hands]
    by_cases hnumber : number < w.workers.length
    · simp [hnumber]
    · simp [hnumber, hand]
  · rw [hready number phase hphase]
    trivial

lemma startPool_eq (hstart : w.startPool pool = .ok w') :
    w.running = false ∧ w' = { w with
      running := decide (0 < pool.workerCount)
      stopping := false
      cancelled := false
      workers := List.replicate pool.workerCount .ready
      stragglers := w.stragglers.map (·.leave w.cancelled)
      runnable := (List.range pool.workerCount).map .worker
      timers := [] } := by
  unfold World.startPool at hstart
  split at hstart
  · cases hstart
  · next hrunning =>
    cases hstart
    exact ⟨by simpa using hrunning, rfl⟩

lemma Deployed.startPool (h : Deployed pool crashes w shift)
    (hstart : w.startPool pool = .ok w') :
    ∃ next, ReflTransGen (Act pool True w) (shift, w.events) (next, w'.events) ∧
      Deployed pool crashes w' next := by
  obtain ⟨-, rfl⟩ := startPool_eq hstart
  exact h.clear rfl rfl rfl rfl fun phase hphase => (List.mem_replicate.mp hphase).2

/-! ## Whole runs -/

/-- The deployments of a pool on a new broker, whatever faults strike them. -/
inductive Ran (pool : Pool) (limits : BrokerLimits) : World → Prop
  | start (startMs : Int) (store : Store) (mailer : Mailer) :
      Ran pool limits (World.start startMs (.empty limits) store mailer)
  /-- A client, the code around the pool or a handler that was given up does something. -/
  | outside {w w' : World} (ran : Ran pool limits w) (handled : Handled w w')
      (quiet : w'.notices = w.notices) : Ran pool limits w'
  | addFault {w : World} (ran : Ran pool limits w) (operation : Operation) (fault : Fault) :
      Ran pool limits (w.addFault operation fault)
  | startPool {w w' : World} (ran : Ran pool limits w) (start : w.startPool pool = .ok w') :
      Ran pool limits w'
  /-- A thread that can go on does. -/
  | step {w : World} (ran : Ran pool limits w) (thread : Thread) (ready : thread ∈ w.runnable) :
      Ran pool limits ({ w with runnable := w.runnable.erase thread }.step pool thread)
  | moveTo {w : World} (ran : Ran pool limits w) (timeMs : Nat) : Ran pool limits (w.moveTo timeMs)
  | orderStop {w : World} (ran : Ran pool limits w) : Ran pool limits w.orderStop
  | orderCancel {w : World} (ran : Ran pool limits w) : Ran pool limits w.orderCancel
  | halt {w : World} (ran : Ran pool limits w) : Ran pool limits w.halt

/-- Whether a fleet shows a deployment, whatever faults strike it, and tells its observers what they
have learned of the deployment. -/
def Shown (pool : Pool) (limits : BrokerLimits) (w : World) : Prop :=
  ∃ events shift, shift.fleet = Fleet.run limits events ∧ Deployed pool True w shift ∧
    Fleet.told limits events = (w.events.map (·.1)).reverse

variable {limits : BrokerLimits}

lemma shown_start (startMs : Int) (store : Store) (mailer : Mailer) :
    Shown pool limits (World.start startMs (.empty limits) store mailer) :=
  ⟨[], ⟨.start limits, 0, fun _ => 0⟩, rfl, deployed_start startMs store mailer, rfl⟩

/-- What a shift can follow, a fleet can. -/
lemma Shown.follow (h : Shown pool limits w)
    (hfollows : ∀ shift, Deployed pool True w shift → ∃ next,
      ReflTransGen (Act pool True w) (shift, w.events) (next, w'.events) ∧
        Deployed pool True w' next) : Shown pool limits w' := by
  obtain ⟨events, shift, hrun, hdeployed, htold⟩ := h
  obtain ⟨next, hacts, hnext⟩ := hfollows shift hdeployed
  have hshown : ∀ log, ReflTransGen (Act pool True w) (shift, w.events) log →
      ∃ events, log.1.fleet = Fleet.run limits events ∧
        Fleet.told limits events = (log.2.map (·.1)).reverse := by
    intro log hacts
    induction hacts with
    | refl => exact ⟨events, hrun, htold⟩
    | tail _ hact ih =>
      obtain ⟨events, hrun, htold⟩ := ih
      cases hact with
      | @act shift next told event step happens =>
        refine ⟨events ++ [event], ?_, ?_⟩
        · rw [happens, hrun, Fleet.run_concat]
        · rw [Fleet.told_concat, htold, ← hrun, List.map_append, List.reverse_append]
          cases shift.fleet.tells event <;> rfl
  obtain ⟨events, hrun, htold⟩ := hshown _ hacts
  exact ⟨events, next, hrun, hnext, htold⟩

lemma Tracks.acts (h : Tracks pool True w shift w') : ∃ next,
    ReflTransGen (Act pool True w) (shift, w.events) (next, w'.events) ∧
      Deployed pool True w' next :=
  h.2.2

lemma Shown.unmoved (h : Shown pool limits w) (hsame : Unmoved w w')
    (hevents : w'.events = w.events) : Shown pool limits w' :=
  h.follow fun shift hdeployed => ⟨shift, by rw [hevents], hdeployed.unmoved hsame⟩

/-- **Deployments are fleets**, whatever faults strike them, and observers learn the same of
both. -/
theorem Ran.shown (h : Ran pool limits w) : Shown pool limits w := by
  induction h with
  | start startMs store mailer => exact shown_start startMs store mailer
  | outside _ handled quiet ih => exact ih.follow fun _ h => (h.quiet handled quiet).acts
  | addFault _ operation fault ih =>
    obtain ⟨events, shift, hrun, h, htold⟩ := ih
    exact ⟨events, shift, hrun, ⟨h.elapsed, h.ledger, h.hands, h.honest, .inl trivial⟩, htold⟩
  | startPool _ start ih => exact ih.follow fun _ h => h.startPool start
  | @step w _ thread _ ih =>
    have hpopped : Unmoved w { w with runnable := w.runnable.erase thread } :=
      ⟨rfl, rfl, rfl, fun _ => .inl⟩
    exact (ih.unmoved hpopped rfl).follow fun _ h => (h.step thread).acts
  | @moveTo w _ timeMs ih =>
    obtain ⟨events, shift, hrun, h, htold⟩ := ih
    have hevents : (w.moveTo timeMs).events = w.events :=
      congrArg Prod.snd (moveTo_wakes w timeMs).notices
    refine ⟨events, { shift with elapsed := timeMs * nanosPerMilli }, hrun, h.moveTo timeMs, ?_⟩
    rw [htold, hevents]
  | @orderStop w _ ih =>
    exact ih.unmoved (unmoved_orderStop w)
      (congrArg Prod.snd (notices_orderStop w))
  | @orderCancel w _ ih =>
    exact ih.unmoved (unmoved_orderCancel w)
      (congrArg Prod.snd (notices_orderCancel w))
  | halt _ ih =>
    exact ih.follow fun _ h => h.clear rfl rfl rfl rfl fun phase hphase =>
      absurd hphase List.not_mem_nil

/-- Letting time pass is a run. -/
lemma Ran.runUntil (h : Ran pool limits w) (deadlineMs : Nat) (goal : World → Bool) (fuel : Nat) :
    Ran pool limits (World.runUntil pool deadlineMs goal fuel w) := by
  refine runUntil_induction (fun w thread rest ih _ hrunnable => ?_)
    (fun w ih _ _ _ => (ih.moveTo _).outside (handled_resumeStragglers _)
      (notices_resumeStragglers _)) fuel h
  have hnext := ih.step thread (hrunnable ▸ List.mem_cons_self)
  rwa [hrunnable, List.erase_cons_head] at hnext

/-- Stopping the pool is a run, also when the workers are stopped where they are. -/
lemma Ran.shutdown (h : Ran pool limits w) (graceMs : Nat) :
    Ran pool limits (w.shutdown pool graceMs).2 := by
  have hgrace : Ran pool limits (w.orderStop.awaitStop pool (w.elapsedMs + graceMs)) :=
    h.orderStop.runUntil _ _ _
  unfold World.shutdown
  simp only
  split
  · exact hgrace.halt
  · exact (hgrace.orderCancel.runUntil _ _ _).halt

end World
end WorkQueue
