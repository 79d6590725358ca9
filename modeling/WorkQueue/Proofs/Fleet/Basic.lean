import Mathlib.Logic.Function.Basic
import WorkQueue.Pool.Basic
import WorkQueue.Proofs.Broker.Reports

/-!
# Fleets of workers

A fleet is any number of workers over one broker.  Clients submit tasks, workers claim them, and a
worker that has a task in hand ends with the report that `Pool.reportOn` decides on, by its own copy
of the envelope.  All else is left open: which worker moves, what the clock reads when it does, how
the execution of a handler ended, how long it took, and whether the worker ever reports.

The calls of a fleet are a run of its broker (`run_trace`), and what a worker has in hand is an
envelope that a claim returned (`run_hands`).  Hence an accepted report of a worker is made on the
broker's own copy (`lease_of_accepted`).
-/

namespace WorkQueue

open Broker

/-! ## Reports as calls -/

/-- The call of the broker by which a report is made. -/
def Report.call (report : Report) (task : Task) (now : Instant) : Call :=
  match report with
  | complete => .ack task now
  | reschedule delay error => .retry task delay error now
  | fail error => .deadLetter task error.message now
  | release => .release task now

/-- The task as the worker sees it after an accepted report. -/
def Report.outcome (report : Report) (task : Task) (now : Instant) (answer : Option Task) : Task :=
  match report with
  | complete => task.markCompleted now
  | release => task.markPending now
  | _ => answer.getD task

@[simp] lemma Report.call_report? (report : Report) (task : Task) (now : Instant) :
    (report.call task now).report? = some task := by
  cases report <;> rfl

/-- A report submits nothing. -/
lemma Report.enqueued?_call (report : Report) (task : Task) (now : Instant)
    (answer : Outcome (Option Task)) :
    Exchange.enqueued? ⟨report.call task now, answer⟩ = none := by
  cases report <;> rfl

/-- Making a report is calling the broker. -/
lemma Report.perform_eq (report : Report) (b : Broker) (task : Task) (now : Instant) :
    report.perform b task now =
      ((b.serve (report.call task now)).1.map (report.outcome task now),
        (b.serve (report.call task now)).2) := by
  cases report with
  | complete =>
    simp only [perform, call, serve]
    cases b.ack task now <;> rfl
  | reschedule delay error =>
    simp only [perform, call, serve]
    obtain ⟨answer, next⟩ := b.retry task delay error now
    cases answer <;> rfl
  | fail error =>
    simp only [perform, call, serve]
    cases b.deadLetter task error.message now <;> rfl
  | release =>
    simp only [perform, call, serve]
    cases b.release task now <;> rfl

lemma Report.serve_of_perform {report : Report} {b next : Broker} {task record : Task}
    {now : Instant} (h : report.perform b task now = (.ok record, next)) :
    ∃ answer, b.serve (report.call task now) = (.ok answer, next) ∧
      record = report.outcome task now answer := by
  rw [perform_eq] at h
  generalize b.serve (report.call task now) = result at h ⊢
  obtain ⟨answer, after⟩ := result
  cases answer with
  | error | crashed => cases h
  | ok answer =>
    cases h
    exact ⟨answer, rfl, rfl⟩

/-- The broker after a report, accepted or not. -/
lemma Report.serve_call (report : Report) (b : Broker) (task : Task) (now : Instant) :
    (b.serve (report.call task now)).2 = (report.perform b task now).2 := by
  rw [perform_eq]

/-- A report that is refused changes nothing. -/
lemma Report.perform_refused {report : Report} {b next : Broker} {task : Task} {now : Instant}
    {error : QueueError} (h : report.perform b task now = (.error error, next)) : next = b := by
  have hcall := report.call_report? task now
  rw [perform_eq] at h
  rcases report_cases (b := b) hcall with
    ⟨-, hserve⟩ | ⟨lease, -, ⟨-, answer, haccepts⟩ | ⟨-, hserve⟩⟩
  · rw [hserve] at h
    exact (congrArg Prod.snd h).symm
  · rw [haccepts] at h
    cases h
  · rw [hserve] at h
    cases h

/-- The task after a report that is accepted on the broker's own copy of it. -/
def Report.record (report : Report) (task : Task) (now : Instant) : Task :=
  match report with
  | complete => task.markCompleted now
  | reschedule delay error => task.markRetrying error (now.after delay) now
  | fail error => task.markFailed error.message now
  | release => task.markPending now

/-- The id of a task is the same in every report's record. -/
@[simp] lemma Report.record_id (report : Report) (task : Task) (now : Instant) :
    (report.record task now).id = task.id := by
  cases report <;> rfl

/-- Whether a report says that a task is to be tried again only if another attempt can be
counted. -/
def Report.Counts (report : Report) (task : Task) : Prop :=
  ∀ delay error, report = .reschedule delay error → task.retryCount ≠ greatestCount

/-- A count that is less than another one is not the greatest. -/
lemma Task.retryCount_ne_greatest {task : Task} (h : task.retryCount < task.maxRetry) :
    task.retryCount ≠ greatestCount := by
  intro hcount
  rw [hcount] at h
  exact absurd task.maxRetry.toNat_lt (Nat.not_lt.mpr (UInt32.lt_iff_toNat_lt.mp h))

/-- A report that does not ask for another attempt has nothing to count. -/
lemma Report.counts_of_final {report : Report}
    (h : ∀ delay error, report ≠ .reschedule delay error) (task : Task) : report.Counts task :=
  fun delay error hreport => absurd hreport (h delay error)

lemma Report.Counts.not_uncounted {report : Report} {task : Task} (h : report.Counts task)
    (now : Instant) (limits : BrokerLimits) : ¬ (report.call task now).Uncounted task limits := by
  rintro ⟨_, delay, error, _, hcall, hoverflows⟩
  have hcount := of_decide_eq_true (Bool.and_eq_true_iff.mp hoverflows).2
  cases report with
  | reschedule => exact h _ _ rfl hcount
  | _ => cases hcall

lemma Report.perform_of_owns {b : Broker} {lease : Lease} {task : Task} (howns : b.Owns task lease)
    (hcopy : lease.task = task) {report : Report} (hcounts : report.Counts task) (now : Instant) :
    report.perform b task now =
      (.ok (report.record task now), (b.serve (report.call task now)).2) := by
  have htake := takeLease_ok_iff.mpr ⟨lease, howns, rfl, rfl⟩
  cases report with
  | complete =>
    simp only [perform, call, serve, Broker.ack, htake]
    rfl
  | reschedule delay error =>
    have hcounted : lease.task.overflows b.limits.overflow = false := by
      rw [Task.overflows, hcopy, decide_eq_false (hcounts delay error rfl), Bool.and_false]
    rw [perform_eq, call, serve_retry howns hcounted, hcopy]
    rfl
  | fail error =>
    simp only [perform, call, serve, deadLetter, htake, hcopy]
    rfl
  | release => simp only [perform, call, serve, Broker.release, htake]; rfl

/-- The report of a worker of a pool on a task whose execution ended: there is none without a
handler, and `draw` decides on the jitter. -/
def Pool.reportOn (pool : Pool) (draw : Nat) (task : Task) (ending : Ending) : Report :=
  match pool.registry.resolve? task.kind with
  | none => .unregistered task
  | some _ => .ofResult pool.policy draw task (ending.result pool.taskTimeout)

lemma Report.counts_ofResult (policy : RetryPolicy) (draw : Nat) (task : Task)
    (result : Except HandlerError Unit) : (ofResult policy draw task result).Counts task := by
  intro delay error hreport
  unfold ofResult at hreport
  split at hreport
  · cases hreport
  · cases hreport
  · cases hreport
  · split at hreport
    · next hretry => exact Task.retryCount_ne_greatest (of_decide_eq_true hretry)
    · cases hreport

/-- What a worker decides on can be counted: it tries a task again only below its budget. -/
lemma Pool.counts_reportOn (pool : Pool) (draw : Nat) (task : Task) (ending : Ending) :
    (pool.reportOn draw task ending).Counts task := by
  unfold reportOn
  split
  · exact Report.counts_of_final (fun _ _ => Report.noConfusion) task
  · exact Report.counts_ofResult _ _ _ _

/-! ## Fleets -/

/-- A broker with its history, and what its workers have in hand. -/
structure Fleet where
  trace : Trace
  hands : Nat → Option Task

namespace Fleet

/-- A thing that happens to a fleet. -/
inductive Event where
  /-- A client submits a task. -/
  | enqueue (task : Task) (now : Instant)
  /-- A worker claims a task. -/
  | claim (worker : Nat) (order : ReturnOrder) (weights : QueueWeights) (words : List UInt32)
      (now : Instant)
  /-- A worker of a pool reports on the task that it has in hand. -/
  | finish (worker : Nat) (pool : Pool) (draw : Nat) (ending : Ending) (now : Instant)
  /-- A worker is stopped where it is, or crashes, and never reports. -/
  | abandon (worker : Nat)

/-- A new broker and workers with empty hands. -/
def start (limits : BrokerLimits) : Fleet := ⟨Trace.start limits, fun _ => none⟩

/-- What a worker has in hand after a claim. -/
def taken (answer : Answer) : Option Task :=
  match answer with
  | .ok task => task
  | .error _ => none
  | .crashed => none

lemma taken_eq_some {answer : Answer} {task : Task} :
    taken answer = some task ↔ answer = .ok (some task) := by
  cases answer <;> simp [taken]

/-- One more event. -/
def apply (fleet : Fleet) : Event → Fleet
  | .enqueue task now => { fleet with trace := fleet.trace.extend (.enqueue task now) }
  | .claim worker order weights words now =>
    { trace := fleet.trace.extend (.claim order weights words now)
      hands := Function.update fleet.hands worker
        (taken (fleet.trace.broker.serve (.claim order weights words now)).1) }
  | .finish worker pool draw ending now =>
    match fleet.hands worker with
    | none => fleet
    | some task =>
      { trace := fleet.trace.extend ((pool.reportOn draw task ending).call task now)
        hands := Function.update fleet.hands worker none }
  | .abandon worker => { fleet with hands := Function.update fleet.hands worker none }

/-- A run of a fleet. -/
def run (limits : BrokerLimits) (events : List Event) : Fleet :=
  events.foldl apply (start limits)

variable {limits : BrokerLimits} {fleet : Fleet} {worker : Nat} {task : Task}

lemma run_concat (limits : BrokerLimits) (events : List Event) (event : Event) :
    run limits (events ++ [event]) = (run limits events).apply event := by
  simp [run]

/-- The call of the broker that an event makes. -/
def call? (fleet : Fleet) : Event → Option Call
  | .enqueue task now => some (.enqueue task now)
  | .claim _ order weights words now => some (.claim order weights words now)
  | .finish worker pool draw ending now =>
    (fleet.hands worker).map fun task => (pool.reportOn draw task ending).call task now
  | .abandon _ => none

/-- An event makes one call of the broker, or none and leaves the broker as it is. -/
lemma apply_cases (fleet : Fleet) (event : Event) :
    (fleet.call? event = none ∧ (fleet.apply event).trace = fleet.trace) ∨
      ∃ call, fleet.call? event = some call ∧
        (fleet.apply event).trace = fleet.trace.extend call := by
  cases event with
  | enqueue task now => exact .inr ⟨_, rfl, rfl⟩
  | claim worker order weights words now => exact .inr ⟨_, rfl, rfl⟩
  | finish worker pool draw ending now =>
    cases hhands : fleet.hands worker with
    | none => exact .inl ⟨by simp [call?, hhands], by simp [apply, hhands]⟩
    | some task =>
      refine .inr ⟨(pool.reportOn draw task ending).call task now, ?_, ?_⟩
      · simp [call?, hhands]
      · simp [apply, hhands]
  | abandon worker => exact .inl ⟨rfl, rfl⟩

/-- The calls of a fleet are a run of its broker. -/
lemma run_trace (limits : BrokerLimits) (events : List Event) :
    ∃ calls, (run limits events).trace = Trace.run limits calls := by
  induction events using List.reverseRecOn with
  | nil => exact ⟨[], rfl⟩
  | append_singleton events event ih =>
    obtain ⟨calls, hcalls⟩ := ih
    rw [run_concat]
    rcases (run limits events).apply_cases event with ⟨-, hsame⟩ | ⟨call, -, htrace⟩
    · exact ⟨calls, by rw [hsame, hcalls]⟩
    · exact ⟨calls ++ [call], by rw [htrace, hcalls, Trace.run_concat]⟩

lemma run_wellFormed (limits : BrokerLimits) (events : List Event) :
    (run limits events).trace.broker.WellFormed := by
  obtain ⟨calls, hcalls⟩ := run_trace limits events
  rw [hcalls]
  exact Trace.run_wellFormed limits calls

/-! ## What workers have in hand -/

lemma deliveries_subset (fleet : Fleet) (event : Event) :
    fleet.trace.history.deliveries ⊆ (fleet.apply event).trace.history.deliveries := by
  rcases fleet.apply_cases event with ⟨-, hsame⟩ | ⟨call, -, htrace⟩
  · rw [hsame]
    exact List.Subset.refl _
  · unfold History.deliveries
    rw [htrace, Trace.filterMap_extend]
    exact List.subset_append_left _ _

/-- What a worker has in hand is an envelope that a claim returned. -/
lemma run_hands (limits : BrokerLimits) (events : List Event)
    (h : (run limits events).hands worker = some task) :
    task ∈ (run limits events).trace.history.deliveries := by
  induction events using List.reverseRecOn generalizing worker task with
  | nil => cases h
  | append_singleton events event ih =>
    rw [run_concat] at h ⊢
    by_cases hbefore : (run limits events).hands worker = some task
    · exact deliveries_subset _ event (ih hbefore)
    · -- Only a claim puts something new into a hand.
      cases event with
      | enqueue task now => exact absurd h hbefore
      | claim other order weights words now =>
        simp only [apply, Function.update_apply] at h
        split at h
        · rw [History.deliveries, apply, Trace.filterMap_extend]
          refine List.mem_append_right _ ?_
          rw [taken_eq_some.mp h]
          exact List.mem_singleton_self _
        · exact absurd h hbefore
      | finish other pool draw ending now =>
        simp only [apply] at h
        split at h
        · exact absurd h hbefore
        · simp only [Function.update_apply] at h
          split at h
          · cases h
          · exact absurd h hbefore
      | abandon other =>
        simp only [apply, Function.update_apply] at h
        split at h
        · cases h
        · exact absurd h hbefore

/-- An accepted report of a worker is made on the broker's own copy of the envelope. -/
lemma lease_of_accepted (limits : BrokerLimits) (events : List Event) {lease : Lease}
    (h : (run limits events).hands worker = some task)
    (howns : (run limits events).trace.broker.Owns task lease) : lease.task = task := by
  have hmem := run_hands limits events h
  obtain ⟨calls, hcalls⟩ := run_trace limits events
  rw [hcalls] at hmem howns
  have hlease := Trace.mem_deliveries_of_lease (Trace.run_tracked limits calls) howns.1
  have htoken := (Trace.run_wellFormed limits calls).lease_token howns.1
  exact Trace.delivery_inj limits calls hlease hmem (htoken.trans howns.2.symm)

end Fleet
end WorkQueue
