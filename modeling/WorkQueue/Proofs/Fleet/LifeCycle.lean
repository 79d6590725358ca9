import Mathlib
import WorkQueue.Proofs.Fleet.OneWorker
import WorkQueue.Proofs.Fleet.RetryBudget

/-!
# The life cycle of a task

What observers learn of a task that is submitted once is always the beginning of a word of
`lifeCycle`, and every retry count that they are told is the number of the retries that they were
told of.

A task can be claimed several times in a row, by workers of which none has reported, so that what a
worker tells does not follow from what it has told before.  What it follows from is the stage that
the task has come to for the observers (`Stage`), together with where the broker holds it
(`Stands`): a task under a claim is running and has the retry count that the observers know, and a
task that waits in a queue may still be running for the observers, if the claim on it lapsed.
-/

namespace WorkQueue

open Broker Computability

/-! ## Stages -/

/-- The stage of a task for its observers, with the number of the retries that they know of. -/
inductive Stage where
  /-- It waits, or was never heard of. -/
  | waiting (retries : Nat)
  | running (retries : Nat)
  /-- It is done, or has failed for good. -/
  | ended

namespace Stage

/-- What an observer may learn of a task at a stage, and the stage to which the task then comes. -/
inductive Step : Stage → TaskEvent → Stage → Prop
  | begins {event : TaskEvent} {retries : Nat} (state : event.state = .running)
      (count : event.retryCount.toNat = retries) : Step (.waiting retries) event (.running retries)
  /-- The claim lapsed, and the task was claimed again. -/
  | beginsAgain {event : TaskEvent} {retries : Nat} (state : event.state = .running)
      (count : event.retryCount.toNat = retries) : Step (.running retries) event (.running retries)
  | retries {event : TaskEvent} {retries : Nat} (state : event.state = .retrying)
      (count : event.retryCount.toNat = retries + 1) :
      Step (.running retries) event (.waiting (retries + 1))
  | returns {event : TaskEvent} {retries : Nat} (state : event.state = .pending)
      (count : event.retryCount.toNat = retries) : Step (.running retries) event (.waiting retries)
  | ends {event : TaskEvent} {retries : Nat}
      (state : event.state = .completed ∨ event.state = .failed)
      (count : event.retryCount.toNat = retries) : Step (.running retries) event .ended

/-- What observers may have learned of a task that has come to a stage, oldest first. -/
inductive Path : List TaskEvent → Stage → Prop
  | start : Path [] (.waiting 0)
  | step {events : List TaskEvent} {event : TaskEvent} {stage next : Stage}
      (path : Path events stage) (step : Step stage event next) : Path (events ++ [event]) next

variable {events before after : List TaskEvent} {event : TaskEvent} {stage next : Stage}

/-! ## The language of the stages -/

/-- Running, perhaps several times in a row. -/
def runs : RegularExpression TaskState :=
  .char .running * .star (.char .running)

/-- Running and then being tried again or given back, any number of times. -/
def rounds : RegularExpression TaskState :=
  .star (runs * (.char .retrying + .char .pending))

/-- The life cycle of a task. -/
def lifeCycle : RegularExpression TaskState :=
  rounds * runs * (.char .completed + .char .failed)

/-- The sequences of states that lead to a stage. -/
def language : Stage → Language TaskState
  | waiting _ => rounds.matches'
  | running _ => (rounds * runs).matches'
  | ended => lifeCycle.matches'

lemma running_mem : [TaskState.running] ∈ runs.matches' :=
  Language.append_mem_mul (a := [TaskState.running]) (b := []) rfl (Language.nil_mem_kstar _)

/-- A task that runs may be claimed again. -/
lemma runs_mul_le : runs.matches' * {[TaskState.running]} ≤ runs.matches' := by
  simp only [runs, RegularExpression.matches', mul_assoc]
  exact mul_le_mul_right kstar_mul_le_kstar _

/-- A task that is tried again or given back begins another round. -/
lemma round_mul_le :
    (rounds * runs).matches' * ({[TaskState.retrying]} + {[TaskState.pending]}) ≤
      rounds.matches' := by
  simp only [rounds, RegularExpression.matches', mul_assoc]
  exact kstar_mul_le_kstar

lemma Step.mem_language (h : Step stage event next) {states : List TaskState}
    (hstates : states ∈ stage.language) : states ++ [event.state] ∈ next.language := by
  cases h with
  | begins state =>
    rw [state]
    exact Language.append_mem_mul hstates running_mem
  | beginsAgain state =>
    have hagain : states ++ [event.state] ∈ (rounds * runs).matches' * {[TaskState.running]} :=
      Language.append_mem_mul hstates (by rw [state]; rfl)
    rw [RegularExpression.matches'_mul, mul_assoc] at hagain
    exact Set.mem_of_mem_of_subset hagain (mul_le_mul_right runs_mul_le _)
  | retries state =>
    exact Set.mem_of_mem_of_subset
      (Language.append_mem_mul hstates (.inl (by rw [state]; rfl))) round_mul_le
  | returns state =>
    exact Set.mem_of_mem_of_subset
      (Language.append_mem_mul hstates (.inr (by rw [state]; rfl))) round_mul_le
  | ends state =>
    refine Language.append_mem_mul hstates ?_
    rcases state with state | state
    · exact .inl (by rw [state]; rfl)
    · exact .inr (by rw [state]; rfl)

lemma Path.mem_language (h : Path events stage) : events.map (·.state) ∈ stage.language := by
  induction h with
  | start => exact Language.nil_mem_kstar _
  | step _ step ih =>
    rw [List.map_append, List.map_singleton]
    exact step.mem_language ih

/-- Whatever stage a task has come to, its life can still go on to an end. -/
lemma exists_rest {states : List TaskState} (h : states ∈ stage.language) :
    ∃ rest, states ++ rest ∈ lifeCycle.matches' := by
  have hdone : [TaskState.completed] ∈
      (RegularExpression.char TaskState.completed + .char .failed).matches' := .inl rfl
  cases stage with
  | waiting =>
    refine ⟨[.running] ++ [.completed], ?_⟩
    rw [← List.append_assoc]
    exact Language.append_mem_mul (Language.append_mem_mul h running_mem) hdone
  | running => exact ⟨[.completed], Language.append_mem_mul h hdone⟩
  | ended => exact ⟨[], by rwa [List.append_nil]⟩

/-! ## Places in a path -/

/-- Every event of a path is a step of it, and the path goes on only if the stage allows it. -/
lemma Path.cut {final : Stage} (h : Path events final) (hcut : events = before ++ event :: after) :
    ∃ stage next, Path before stage ∧ Step stage event next ∧ (after = [] → next = final) ∧
      (after ≠ [] → ∃ event' next', Step next event' next') := by
  induction h generalizing after with
  | start => simp at hcut
  | @step events last stage final path step ih =>
    rcases List.eq_nil_or_concat after with rfl | ⟨between, other, rfl⟩
    · obtain ⟨rfl, hsame⟩ := List.append_inj' hcut rfl
      cases hsame
      exact ⟨stage, final, path, step, fun _ => rfl, fun hne => absurd rfl hne⟩
    · rw [List.concat_eq_append, ← List.cons_append, ← List.append_assoc] at hcut
      obtain ⟨hevents, -⟩ := List.append_inj' hcut rfl
      obtain ⟨stage', next, hpath, hstep, hend, hmore⟩ := ih hevents
      refine ⟨stage', next, hpath, hstep, fun hnil => by simp at hnil, fun _ => ?_⟩
      by_cases hbetween : between = []
      · rw [hend hbetween]
        exact ⟨last, final, step⟩
      · exact hmore hbetween

/-- A task runs only since it was told so. -/
lemma Path.last_of_running {retries : Nat} (h : Path events (.running retries)) :
    ∃ earlier previous, events = earlier ++ [previous] ∧ previous.state = .running := by
  cases h with
  | step path step =>
    cases step with
    | begins state => exact ⟨_, _, rfl, state⟩
    | beginsAgain state => exact ⟨_, _, rfl, state⟩

end Stage

/-- How many retries observers were told of. -/
def retriesTold (events : List TaskEvent) : Nat :=
  events.countP fun event => decide (event.state = .retrying)

lemma retriesTold_concat (events : List TaskEvent) (event : TaskEvent) :
    retriesTold (events ++ [event]) =
      retriesTold events + if event.state = .retrying then 1 else 0 := by
  simp [retriesTold, List.countP_append, List.countP_singleton]

namespace Stage

variable {events : List TaskEvent} {event : TaskEvent} {stage next : Stage}

/-- The number of the retries that observers know of at a stage, while they know of it. -/
def retries? : Stage → Option Nat
  | waiting retries => some retries
  | running retries => some retries
  | ended => none

lemma Step.counted (h : Step stage event next)
    (hstage : ∀ retries ∈ stage.retries?, retriesTold events = retries) :
    event.retryCount.toNat = retriesTold (events ++ [event]) ∧
      ∀ retries ∈ next.retries?, retriesTold (events ++ [event]) = retries := by
  rw [retriesTold_concat]
  cases h with
  | begins state count | beginsAgain state count | returns state count =>
    rw [hstage _ rfl, state, count]
    exact ⟨rfl, fun _ hsame => Option.some.inj hsame⟩
  | retries state count =>
    rw [hstage _ rfl, state, count]
    exact ⟨rfl, fun _ hsame => Option.some.inj hsame⟩
  | ends state count =>
    rw [hstage _ rfl, count]
    refine ⟨?_, fun _ hnone => by cases hnone⟩
    rcases state with state | state
    · rw [state]
      rfl
    · rw [state]
      rfl

lemma Path.counted (h : Path events stage) :
    ∀ retries ∈ stage.retries?, retriesTold events = retries := by
  induction h with
  | start => exact fun _ hsame => Option.some.inj hsame
  | step _ step ih => exact (step.counted ih).2

end Stage

/-! ## Life cycles -/

/-- Whether events, oldest first, are what observers may have learned of one task. -/
structure FollowsLifeCycle (events : List TaskEvent) : Prop where
  /-- They are the beginning of a life. -/
  path : ∃ rest, events.map (·.state) ++ rest ∈ Stage.lifeCycle.matches'
  /-- Nothing is told of a task after its end. -/
  last : ∀ before event after, events = before ++ event :: after →
    event.state = .completed ∨ event.state = .failed → after = []
  /-- Whatever else becomes of a task, it was told to be running right before. -/
  running : ∀ before event after, events = before ++ event :: after → event.state ≠ .running →
    ∃ earlier previous, before = earlier ++ [previous] ∧ previous.state = .running
  /-- The retry count that is told is the number of the retries that were told. -/
  counted : ∀ before event after, events = before ++ event :: after →
    event.retryCount.toNat = retriesTold (before ++ [event])

lemma Stage.Path.followsLifeCycle {events : List TaskEvent} {stage : Stage}
    (h : Stage.Path events stage) : FollowsLifeCycle events where
  path := Stage.exists_rest h.mem_language
  last before event after hcut hend := by
    obtain ⟨stage, next, -, hstep, -, hmore⟩ := h.cut hcut
    by_contra hne
    obtain ⟨event', next', hstep'⟩ := hmore hne
    cases hstep with
    | ends => cases hstep'
    | begins state | beginsAgain state | retries state | returns state =>
      rw [state] at hend
      simp at hend
  running before event after hcut hstate := by
    obtain ⟨stage, next, hpath, hstep, -, -⟩ := h.cut hcut
    cases hstep with
    | begins state | beginsAgain state => exact absurd state hstate
    | retries | returns | ends => exact hpath.last_of_running
  counted before event after hcut := by
    obtain ⟨stage, next, hpath, hstep, -, -⟩ := h.cut hcut
    exact (hstep.counted hpath.counted).1

/-! ## Stages and the broker -/

/-- How the stage of a task for its observers goes with where the broker holds it, for a task that
was submitted so often. -/
inductive Stands (submissions : Nat) : Holding → Stage → Prop
  | unheard (never : submissions = 0) : Stands submissions .nowhere (.waiting 0)
  | waits {task : Task} {retries : Nat} (known : 0 < submissions)
      (count : task.retryCount.toNat = retries) :
      Stands submissions (.queued task) (.waiting retries)
  /-- The claim on it lapsed, of which observers learn nothing. -/
  | lapsed {task : Task} {retries : Nat} (known : 0 < submissions)
      (count : task.retryCount.toNat = retries) :
      Stands submissions (.queued task) (.running retries)
  | claimed {task : Task} {retries : Nat} (known : 0 < submissions)
      (count : task.retryCount.toNat = retries) :
      Stands submissions (.claimed task) (.running retries)
  | gone (known : 0 < submissions) : Stands submissions .nowhere .ended

/-- What observers can learn of a task with an id at once: nothing, or a step of its life. -/
inductive Hears (id : String) (stage : Stage) : Option TaskEvent → Stage → Prop
  | nothing {told : Option TaskEvent} (other : ∀ event ∈ told, event.taskId ≠ id) :
      Hears id stage told stage
  | event {event : TaskEvent} {next : Stage} (same : event.taskId = id)
      (step : stage.Step event next) : Hears id stage (some event) next

section Stands

variable {id : String} {submissions : Nat} {before after : Holding} {exchange : Exchange}
  {stage : Stage}

lemma occurrences_enqueued_of_silent (h : exchange.Silent id) :
    occurrences id exchange.enqueued?.toList = 0 := by
  cases hsubmitted : exchange.enqueued? with
  | none => rfl
  | some task => simp [h.enqueued task hsubmitted]

/-- A stage goes with the broker's holding after every call, if the task is submitted only once,
without retries, and whoever reports on it has the broker's copy of it. -/
lemma Stands.passage {overflow : Overflow} (h : Stands submissions before stage)
    (hpassage : Passage overflow id before exchange after)
    (hsilent : ∀ event ∈ exchange.told?, exchange.Silent id → event.taskId ≠ id)
    (hfresh : ∀ task ∈ exchange.enqueued?, task.id = id → task.retryCount = 0)
    (honce : submissions + occurrences id exchange.enqueued?.toList ≤ 1)
    (hown : ∀ held report, before = .claimed held → exchange.call.report? = some report →
      report.id = id → report.lease = held.lease → held = report)
    (hbudget : ∀ report delay error now, exchange.call = .retry report delay error now →
      report.canRetry = true) :
    ∃ next, Hears id stage exchange.told? next ∧
      Stands (submissions + occurrences id exchange.enqueued?.toList) after next := by
  cases hpassage with
  | aside silent =>
    rw [occurrences_enqueued_of_silent silent]
    exact ⟨stage, .nothing fun event hevent => hsilent event hevent silent, h⟩
  | lapsed silent =>
    rw [occurrences_enqueued_of_silent silent]
    refine ⟨stage, .nothing fun event hevent => hsilent event hevent silent, ?_⟩
    cases h with
    | claimed known count => exact .lapsed known count
  | @enqueued task now same =>
    have hone : occurrences id (Exchange.enqueued? ⟨.enqueue task now, .ok none⟩).toList = 1 := by
      simp [Exchange.enqueued?, same]
    rw [hone] at honce ⊢
    cases h with
    | unheard never =>
      exact ⟨.waiting 0, .nothing (by rintro event ⟨⟩),
        .waits (Nat.succ_pos _) (congrArg UInt32.toNat (hfresh task rfl same))⟩
    | gone known => omega
  | delivered token same =>
    cases h with
    | waits known count => exact ⟨_, .event same (.begins rfl count), .claimed known count⟩
    | lapsed known count => exact ⟨_, .event same (.beginsAgain rfl count), .claimed known count⟩
  | redelivered token same =>
    cases h with
    | claimed known count => exact ⟨_, .event same (.beginsAgain rfl count), .claimed known count⟩
  | acked same named =>
    cases h with
    | claimed known count =>
      have hheld := hown _ _ rfl rfl same named
      exact ⟨.ended, .event same (.ends (.inl rfl) (hheld ▸ count)), .gone known⟩
  | retried same named =>
    cases h with
    | claimed known count =>
      obtain rfl := hown _ _ rfl rfl same named
      have hcount := (Task.toNat_succ_of_canRetry (hbudget _ _ _ _ rfl)).trans
        (congrArg (· + 1) count)
      exact ⟨_, .event same (.retries rfl hcount), .waits known hcount⟩
  | crashed same named uncounted =>
    -- A task with budget left does not crash its worker.
    cases h with
    | claimed known count =>
      obtain rfl := hown _ _ rfl rfl same named
      rw [Task.not_overflows_of_canRetry (hbudget _ _ _ _ rfl)] at uncounted
      cases uncounted
  | buried same named =>
    cases h with
    | claimed known count =>
      obtain rfl := hown _ _ rfl rfl same named
      exact ⟨.ended, .event same (.ends (.inr rfl) count), .gone known⟩
  | released same named =>
    cases h with
    | claimed known count =>
      obtain rfl := hown _ _ rfl rfl same named
      exact ⟨_, .event same (.returns rfl count), .waits known count⟩

end Stands

/-! ## Runs of a fleet -/

/-- Whether a task with an id is at most once among the submitted ones, and then without retries. -/
structure SubmittedOnce (submitted : List Task) (id : String) : Prop where
  once : occurrences id submitted ≤ 1
  unretried : ∀ task ∈ submitted, task.id = id → task.retryCount = 0

namespace Fleet

variable {limits : BrokerLimits} {events : List Event} {fleet : Fleet} {id : String}

/-- What observers have learned of the task with an id, oldest first. -/
def toldOf (limits : BrokerLimits) (events : List Event) (id : String) : List TaskEvent :=
  (told limits events).filter fun event => decide (event.taskId = id)

lemma Hears.toldOf_concat {stage next : Stage} {event : Event}
    (h : Hears id stage ((run limits events).tells event) next)
    (hpath : Stage.Path (toldOf limits events id) stage) :
    Stage.Path (toldOf limits (events ++ [event]) id) next := by
  unfold toldOf at hpath ⊢
  rw [told_concat, List.filter_append]
  generalize (run limits events).tells event = heard at h
  cases h with
  | nothing other =>
    have hnone : heard.toList.filter (fun event => decide (event.taskId = id)) = [] := by
      rw [List.filter_eq_nil_iff]
      intro event hevent
      simpa using other event (Option.mem_toList.mp hevent)
    rwa [hnone, List.append_nil]
  | @event event _ same step =>
    simp only [Option.toList_some, List.filter_singleton, same, decide_true]
    exact hpath.step step

/-- What a worker reports on is what it has in hand, and it retries only within the budget. -/
lemma hands_of_report {event : Event} {call : Call} {report : Task}
    (hcall : fleet.call? event = some call) (hreport : call.report? = some report) :
    (∃ worker, fleet.hands worker = some report) ∧
      ∀ delay error now, call = .retry report delay error now → report.canRetry = true := by
  cases event with
  | enqueue | claim =>
    cases hcall
    cases hreport
  | abandon => cases hcall
  | finish worker pool draw ending now =>
    obtain ⟨task, hhands, rfl⟩ := Option.map_eq_some_iff.mp hcall
    rw [Report.call_report?] at hreport
    cases hreport
    refine ⟨⟨worker, hhands⟩, fun delay error next hretry => ?_⟩
    cases hdecided : pool.reportOn draw report ending with
    | reschedule => exact Pool.canRetry_of_reschedule hdecided
    | complete | fail | release =>
      rw [hdecided] at hretry
      cases hretry

/-- What observers know of a task that is submitted once goes with where the broker holds it. -/
lemma run_stands (h : SubmittedOnce (run limits events).trace.history.enqueued id) :
    ∃ stage, Stage.Path (toldOf limits events id) stage ∧
      Stands (occurrences id (run limits events).trace.history.enqueued)
        ((run limits events).trace.broker.holding id) stage := by
  induction events using List.reverseRecOn with
  | nil => exact ⟨.waiting 0, .start, .unheard rfl⟩
  | append_singleton events event ih =>
    rw [run_concat] at h ⊢
    rcases (run limits events).apply_cases event with ⟨hnone, hsame⟩ | ⟨call, hcall, htrace⟩
    · rw [hsame] at h ⊢
      obtain ⟨stage, hpath, hstands⟩ := ih h
      refine ⟨stage, Hears.toldOf_concat (.nothing fun event hevent => ?_) hpath, hstands⟩
      rw [tells_eq, hnone] at hevent
      cases hevent
    · have hb := run_wellFormed limits events
      have htransition := (run limits events).trace.transition call
      have henqueued : ((run limits events).trace.extend call).history.enqueued =
          (run limits events).trace.history.enqueued ++ (Exchange.enqueued? ⟨call,
            ((run limits events).trace.broker.serve call).1⟩).toList :=
        Trace.filterMap_extend _ _ call
      obtain ⟨honce, hunretried⟩ := h
      rw [htrace, henqueued] at honce hunretried ⊢
      rw [occurrences_append] at honce ⊢
      obtain ⟨stage, hpath, hstands⟩ := ih ⟨by omega,
        fun task htask => hunretried task (List.mem_append_left _ htask)⟩
      obtain ⟨next, hhears, hnext⟩ := hstands.passage (htransition.passage hb id)
        (fun event hevent hsilent => htransition.told_of_silent hb hsilent hevent)
        (fun task htask =>
          hunretried task (List.mem_append_right _ (Option.mem_toList.mpr htask)))
        honce (fun held report hheld hreport hid hnamed => by
          obtain ⟨⟨worker, hhands⟩, -⟩ := hands_of_report hcall hreport
          exact held_of_named limits events hhands (hid ▸ hheld) hnamed)
        (fun report delay error now hretry => by
          have hreport : call.report? = some report := congrArg Call.report? hretry
          exact (hands_of_report hcall hreport).2 delay error now hretry)
      refine ⟨next, Hears.toldOf_concat ?_ hpath, hnext⟩
      rwa [tells_eq, hcall]

end Fleet

/-- What the observers of a deployment have learned of the task with an id, oldest first. -/
def World.toldOf (w : World) (id : String) : List TaskEvent :=
  (w.events.map (·.1)).reverse.filter fun event => decide (event.taskId = id)

/-- **What observers learn of a task is its life.**  In every run of a fleet over a new broker, with
any number of workers and pools, any clocks, any ends of executions, claims that lapse at any time
and reports that come too late: what observers learn of a task that is submitted once, and without
retries, follows the life cycle.  So it is in every deployment, whatever faults strike it: it is
shown by a run of a fleet in which the same tasks are submitted in the same order, and which tells
the same. -/
theorem tasks_follow_life_cycle (limits : BrokerLimits) :
    (∀ events id, SubmittedOnce (Fleet.run limits events).trace.history.enqueued id →
      FollowsLifeCycle (Fleet.toldOf limits events id)) ∧
    ∀ pool w, World.Ran pool limits w →
      (∀ id, SubmittedOnce w.accepted id → FollowsLifeCycle (w.toldOf id)) ∧
      ∃ events, (Fleet.run limits events).trace.broker = w.broker ∧
        (Fleet.run limits events).trace.history.enqueued = w.accepted ∧
          (Fleet.run limits events).hands = w.hand ∧
            Fleet.told limits events = (w.events.map (·.1)).reverse := by
  have hfleet : ∀ events id, SubmittedOnce (Fleet.run limits events).trace.history.enqueued id →
      FollowsLifeCycle (Fleet.toldOf limits events id) := by
    intro events id honce
    obtain ⟨stage, hpath, -⟩ := Fleet.run_stands honce
    exact hpath.followsLifeCycle
  refine ⟨hfleet, fun pool w hran => ?_⟩
  obtain ⟨events, shift, hrun, hdeployed, htold⟩ := hran.shown
  have haccepted : (Fleet.run limits events).trace.history.enqueued = w.accepted := by
    rw [← hrun]
    exact congrArg Prod.snd hdeployed.ledger
  refine ⟨fun id honce => ?_, events, ?_, haccepted, ?_, htold⟩
  · have hlife := hfleet events id (haccepted ▸ honce)
    rwa [Fleet.toldOf, htold] at hlife
  · rw [← hrun, hdeployed.broker]
  · rw [← hrun, hdeployed.hands]

/-- A deployment of two workers, of which one has claimed a letter. -/
def pairClaimed : World :=
  { (pairStart.enqueue (.create "a" "letter" [] 0 .epoch)).2 with
    runnable := [.worker 1] }.step pairPool (.worker 0)

lemma ran_pairClaimed : World.Ran pairPool pairBroker.limits pairClaimed := by
  have start : World.Ran pairPool pairBroker.limits (World.start 0 (.empty pairBroker.limits)
      (.empty 0) ⟨"", "", fun _ => false, []⟩) := .start 0 _ _
  have started : World.Ran pairPool pairBroker.limits pairStart := start.startPool rfl
  exact (started.outside (.enqueue .refl (.create "a" "letter" [] 0 .epoch)) rfl).step
    (.worker 0) (by decide)

theorem letter_follows_life_cycle :
    SubmittedOnce (Fleet.run Fleet.letterLimits Fleet.letterEvents).trace.history.enqueued "a" ∧
      (Fleet.toldOf Fleet.letterLimits Fleet.letterEvents "a").map
        (fun event => (event.state, event.retryCount)) =
          [(.running, 0), (.retrying, 1), (.running, 1), (.failed, 1)] ∧
      FollowsLifeCycle (Fleet.toldOf Fleet.letterLimits Fleet.letterEvents "a") ∧
      World.Ran pairPool pairBroker.limits pairClaimed ∧
      SubmittedOnce pairClaimed.accepted "a" ∧
      (pairClaimed.toldOf "a").map (·.state) = [.running] ∧
      FollowsLifeCycle (pairClaimed.toldOf "a") := by
  have henqueued : (Fleet.run Fleet.letterLimits Fleet.letterEvents).trace.history.enqueued =
      [Fleet.letter] := by
    decide +kernel
  have haccepted : pairClaimed.accepted = [.create "a" "letter" [] 0 .epoch] := by
    decide +kernel
  have hsole : ∀ task : Task, task.id = "a" → task.retryCount = 0 → SubmittedOnce [task] "a" := by
    intro task hid hcount
    refine ⟨by simp [occurrences, hid], ?_⟩
    intro other hother _
    rwa [List.mem_singleton.mp hother]
  have honce := henqueued ▸ hsole Fleet.letter rfl rfl
  have honce' := haccepted ▸ hsole (.create "a" "letter" [] 0 .epoch) rfl rfl
  exact ⟨honce, by decide +kernel, (tasks_follow_life_cycle Fleet.letterLimits).1 _ "a" honce,
    ran_pairClaimed, honce', by decide +kernel,
    ((tasks_follow_life_cycle pairBroker.limits).2 _ _ ran_pairClaimed).1 "a" honce'⟩

end WorkQueue
