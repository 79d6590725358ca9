import WorkQueue.Proofs.Broker.Records
import WorkQueue.Proofs.Fleet.Basic

/-!
# Retry budgets

The main statement is `run_keeps_budget`: in every run of a fleet whose clients use no id twice and
submit tasks that were never retried, the retry count that a broker shows of a task is the number of
the accepted reports that it is to be tried again, and never more than the task's budget.

A worker decides by its own copy of the envelope, and the broker counts on its own.  The two are the
same whenever a report is accepted (`Fleet.lease_of_accepted`), so that a report to try again is
accepted only while there is budget left.  `extend_accounts` is the step of the invariant; it asks
of a call no more than this.
-/

namespace WorkQueue

open Broker

variable {limits : BrokerLimits} {calls : List Call} {call : Call} {record old : Task}

/-! ## Records and histories -/

/-- One retry more of a task with budget left is counted without a gap. -/
lemma Task.toNat_succ_of_canRetry {task : Task} (h : task.canRetry = true) :
    (task.retryCount + 1).toNat = task.retryCount.toNat + 1 := by
  have hless := UInt32.lt_iff_toNat_lt.mp (of_decide_eq_true h)
  have hlimit := task.maxRetry.toNat_lt
  rw [UInt32.toNat_add]
  exact Nat.mod_eq_of_lt (show task.retryCount.toNat + 1 < 2 ^ 32 by omega)

lemma Task.not_overflows_of_canRetry {task : Task} (h : task.canRetry = true)
    (overflow : Overflow) : task.overflows overflow = false := by
  have hcount := retryCount_ne_greatest (of_decide_eq_true h)
  rw [overflows, decide_eq_false hcount, Bool.and_false]

/-- Whether a history accounts for a record: the task was submitted with this budget, was retried as
often as the record says, and within the budget. -/
structure Broker.History.Accounts (history : History) (record : Task) : Prop where
  counted : record.retryCount.toNat = occurrences record.id history.retried
  bounded : record.retryCount ≤ record.maxRetry
  submitted : ∃ submitted ∈ history.enqueued,
    submitted.id = record.id ∧ submitted.maxRetry = record.maxRetry

lemma enqueued_extend (trace : Trace) (call : Call) :
    trace.history.enqueued ⊆ (trace.extend call).history.enqueued := by
  unfold History.enqueued
  rw [Trace.filterMap_extend]
  exact List.subset_append_left _ _

lemma occurrences_retried_extend (trace : Trace) (call : Call) (id : String) :
    occurrences id (trace.extend call).history.retried =
      occurrences id trace.history.retried +
        occurrences id (Exchange.retried? ⟨call, (trace.broker.serve call).1⟩).toList := by
  rw [History.retried, Trace.filterMap_extend, occurrences_append]
  rfl

/-- A history that goes on without a retry of a task accounts for its record as before. -/
lemma Broker.History.Accounts.extend {trace : Trace} (h : trace.history.Accounts old)
    (hbudget : record.budget = old.budget)
    (hother : ∀ report, Exchange.retried? ⟨call, (trace.broker.serve call).1⟩ = some report →
      report.id ≠ old.id) : (trace.extend call).history.Accounts record := by
  obtain ⟨hcounted, hbounded, submitted, hmem, hid, hmax⟩ := h
  simp only [Task.budget, Prod.mk.injEq] at hbudget
  obtain ⟨hid', hcount', hmax'⟩ := hbudget
  have hnone : occurrences old.id
      (Exchange.retried? ⟨call, (trace.broker.serve call).1⟩).toList = 0 := by
    cases hretried : Exchange.retried? ⟨call, (trace.broker.serve call).1⟩ with
    | none => rfl
    | some report => simp [hother report hretried]
  refine ⟨?_, ?_, submitted, enqueued_extend trace call hmem, ?_, ?_⟩
  · rw [occurrences_retried_extend, hid', hcount', hnone, hcounted, Nat.add_zero]
  · rw [hcount', hmax']
    exact hbounded
  · rw [hid', hid]
  · rw [hmax', hmax]

/-! ## One call -/

lemma Broker.Transition.retried?_cases {b next : Broker} {answer : Answer}
    (h : Transition b call answer next) (hb : b.WellFormed) :
    Exchange.retried? ⟨call, answer⟩ = none ∨
      ∃ report lease delay error now, call = .retry report delay error now ∧
        Exchange.retried? ⟨call, answer⟩ = some report ∧ b.Owns report lease ∧
          (lease.task.markRetrying error (now.after delay) now).markPending now ∈ next.records := by
  cases h with
  | retried owns =>
    exact .inr ⟨_, _, _, _, _, rfl, rfl, owns, (mem_records_push (hb.dropLease _)).mpr (.inl rfl)⟩
  | disowned => cases call <;> exact .inl rfl
  | _ => exact .inl rfl

/-- A history accounts for the task that it newly accepts. -/
lemma accounts_enqueued {now : Instant} {task : Task}
    (hfresh : ((Trace.run limits calls).extend (.enqueue task now)).history.Fresh)
    (hanswer : ((Trace.run limits calls).broker.serve (.enqueue task now)).1 = .ok none) :
    ((Trace.run limits calls).extend (.enqueue task now)).history.Accounts
      (task.markPending now) := by
  have henqueued : ((Trace.run limits calls).extend (.enqueue task now)).history.enqueued =
      (Trace.run limits calls).history.enqueued ++ [task] := by
    rw [History.enqueued, Trace.filterMap_extend, hanswer]
    rfl
  have hmem : task ∈ ((Trace.run limits calls).extend (.enqueue task now)).history.enqueued := by
    rw [henqueued]
    exact List.mem_append_right _ (List.mem_singleton_self _)
  -- A task with this id was not submitted before, so none was retried.
  have hnew : occurrences task.id (Trace.run limits calls).history.retried = 0 := by
    refine List.count_eq_zero.mpr fun hretried => ?_
    obtain ⟨report, hreport, hid⟩ := List.mem_map.mp hretried
    have hbefore := enqueued_of_retried hreport
    have hids := hfresh.ids_nodup
    rw [henqueued, List.map_append] at hids
    exact (List.nodup_append.mp hids).2.2 report.id hbefore task.id (List.mem_singleton_self _) hid
  have hcount : task.retryCount = 0 := hfresh.unretried task hmem
  refine ⟨?_, ?_, task, hmem, rfl, rfl⟩
  · rw [occurrences_retried_extend]
    change task.retryCount.toNat = _ + 0
    rw [hcount]
    exact hnew.symm
  · change task.retryCount ≤ task.maxRetry
    rw [hcount]
    exact UInt32.zero_le

/-- A history accounts for the task that is tried again, if there was budget left. -/
lemma accounts_retried {report : Task} {lease : Lease} {delay : Duration} {error : String}
    {now : Instant} (howns : (Trace.run limits calls).broker.Owns report lease)
    (hbudget : lease.task.canRetry = true)
    (hretried : Exchange.retried? ⟨.retry report delay error now,
      ((Trace.run limits calls).broker.serve (.retry report delay error now)).1⟩ = some report)
    (h : (Trace.run limits calls).history.Accounts lease.task) :
    ((Trace.run limits calls).extend (.retry report delay error now)).history.Accounts
      ((lease.task.markRetrying error (now.after delay) now).markPending now) := by
  obtain ⟨hcounted, -, submitted, hmem, hid, hmax⟩ := h
  have hreport : report.id = lease.task.id :=
    ((Trace.run_wellFormed limits calls).lease_id howns.1).symm
  have hsucc : (lease.task.retryCount + 1).toNat = lease.task.retryCount.toNat + 1 :=
    Task.toNat_succ_of_canRetry hbudget
  refine ⟨?_, ?_, submitted, enqueued_extend _ _ hmem, hid, hmax⟩
  · rw [occurrences_retried_extend, hretried]
    change (lease.task.retryCount + 1).toNat = occurrences lease.task.id _ + _
    rw [hsucc, hcounted]
    simp [Task.markRetrying, Task.markPending, hreport]
  · change lease.task.retryCount + 1 ≤ lease.task.maxRetry
    have hless := UInt32.lt_iff_toNat_lt.mp (of_decide_eq_true hbudget)
    rw [UInt32.le_iff_toNat_le, hsucc]
    exact Nat.succ_le_of_lt hless

/-- What is accounted for stays so through a call that asks for no retry beyond the budget. -/
lemma extend_accounts (hfresh : ((Trace.run limits calls).extend call).history.Fresh)
    (hretry : ∀ report delay error now lease, call = .retry report delay error now →
      (Trace.run limits calls).broker.Owns report lease → lease.task.canRetry = true)
    (h : ∀ record ∈ (Trace.run limits calls).broker.records,
      (Trace.run limits calls).history.Accounts record)
    (hrecord : record ∈ ((Trace.run limits calls).extend call).broker.records) :
    ((Trace.run limits calls).extend call).history.Accounts record := by
  have hb := Trace.run_wellFormed limits calls
  have htransition := (Trace.run limits calls).transition call
  rcases htransition.retried?_cases hb with hnone |
    ⟨report, lease, delay, error, now, rfl, hretried, howns, hrequeued⟩
  · rcases htransition.mem_records hb hrecord with ⟨old, hold, hbudget⟩ |
      ⟨task, now, rfl, hanswer, rfl⟩ | ⟨report, lease, delay, error, now, rfl, hanswer, -, -⟩
    · refine (h old hold).extend hbudget fun report hretried => ?_
      rw [hnone] at hretried
      cases hretried
    · exact accounts_enqueued hfresh hanswer
    · rw [hanswer] at hnone
      cases hnone
  · have hid := hb.lease_id howns.1
    have hnew := accounts_retried howns (hretry _ _ _ _ _ rfl howns) hretried
      (h _ (mem_records_of_lease howns.1))
    by_cases hsame : record.id = report.id
    · -- No other record has the id of the task that went back.
      have hnodup : (((Trace.run limits calls).extend
          (.retry report delay error now)).broker.records.map (·.id)).Nodup := by
        rw [← Trace.run_concat] at hfresh ⊢
        exact records_nodup hfresh
      rw [List.inj_on_of_nodup_map hnodup hrecord hrequeued (hsame.trans hid.symm)]
      exact hnew
    · rcases htransition.mem_records hb hrecord with ⟨old, hold, hbudget⟩ |
        ⟨_, _, hcall, -⟩ | ⟨_, _, _, _, _, hcall, -, howns', rfl⟩
      · refine (h old hold).extend hbudget fun other hother hid' => ?_
        rw [hretried, Option.some.injEq] at hother
        have hrecordId : record.id = old.id := congrArg Prod.fst hbudget
        exact hsame (hrecordId.trans (hid'.symm.trans (congrArg Task.id hother.symm)))
      · cases hcall
      · cases hcall
        exact absurd (hb.lease_id howns'.1) hsame

/-! ## The decisions of a worker -/

section Report

variable {pool : Pool} {draw : Nat} {task : Task} {ending : Ending} {report : Report}

lemma Pool.reportOn_unregistered (h : pool.registry.resolve? task.kind = none) :
    pool.reportOn draw task ending = .fail (.unregisteredKind task.kind) := by
  rw [reportOn, h]
  rfl

lemma Pool.reportOn_skipRetry {reason : String} (h : pool.registry.resolve? task.kind ≠ none)
    (hresult : ending.result pool.taskTimeout = .error (.skipRetry reason)) :
    pool.reportOn draw task ending = .fail (.skipRetry reason) := by
  unfold reportOn
  split
  · next hnone => exact absurd hnone h
  · rw [hresult]
    rfl

/-- A worker asks for a retry only while its copy of the task has budget left. -/
lemma Pool.canRetry_of_reschedule {delay : Duration} {error : String}
    (h : pool.reportOn draw task ending = .reschedule delay error) : task.canRetry = true := by
  unfold reportOn at h
  split at h
  · cases h
  · unfold Report.ofResult at h
    split at h
    · cases h
    · cases h
    · cases h
    · split at h
      · next hbudget => exact hbudget
      · cases h

/-- A worker gives a task up only when its copy of the task has no budget left. -/
lemma Pool.exhausted_of_report {retries : Nat} {reason : String}
    (h : pool.reportOn draw task ending = .fail (.retriesExhausted retries reason)) :
    retries = task.retryCount.toNat ∧ task.canRetry = false := by
  unfold reportOn at h
  split at h
  · cases h
  · unfold Report.ofResult at h
    split at h
    · cases h
    · cases h
    · cases h
    · split at h
      · cases h
      · next hbudget =>
        cases h
        exact ⟨rfl, Bool.not_eq_true _ ▸ hbudget⟩

lemma Report.call_eq_retry {now time : Instant} {other : Task} {delay : Duration} {error : String}
    (h : report.call task now = .retry other delay error time) :
    report = .reschedule delay error ∧ other = task ∧ time = now := by
  cases report with
  | reschedule => cases h; exact ⟨rfl, rfl, rfl⟩
  | _ => cases h

end Report

/-! ## A whole run -/

namespace Fleet

variable {events : List Event} {worker : Nat} {task : Task}

/-- An event that asks for a retry is the report of a worker that has budget left. -/
lemma retry_of_call? {fleet : Fleet} {event : Event} {report : Task} {delay : Duration}
    {error : String} {now : Instant}
    (h : fleet.call? event = some (.retry report delay error now)) :
    ∃ worker pool draw ending, event = .finish worker pool draw ending now ∧
      fleet.hands worker = some report ∧
        pool.reportOn draw report ending = .reschedule delay error := by
  cases event with
  | enqueue => cases h
  | claim => cases h
  | abandon => cases h
  | finish worker pool draw ending time =>
    obtain ⟨task, hhands, hcall⟩ := Option.map_eq_some_iff.mp h
    obtain ⟨hreport, rfl, rfl⟩ := Report.call_eq_retry hcall
    exact ⟨worker, pool, draw, ending, rfl, hhands, hreport⟩

/-- A worker asks for a retry of the broker's own copy only while that has budget left. -/
lemma canRetry_of_call? {event : Event} {report : Task} {delay : Duration} {error : String}
    {now : Instant} {lease : Lease}
    (h : (run limits events).call? event = some (.retry report delay error now))
    (howns : (run limits events).trace.broker.Owns report lease) : lease.task.canRetry = true := by
  obtain ⟨worker, pool, draw, ending, -, hhands, hreport⟩ := retry_of_call? h
  rw [lease_of_accepted limits events hhands howns]
  exact Pool.canRetry_of_reschedule hreport

lemma fresh_of_concat {event : Event}
    (h : (run limits (events ++ [event])).trace.history.Fresh) :
    (run limits events).trace.history.Fresh := by
  rw [run_concat] at h
  rcases (run limits events).apply_cases event with ⟨-, hsame⟩ | ⟨call, -, htrace⟩
  · rwa [hsame] at h
  · rw [htrace] at h
    exact h.of_extend

/-- The history of a run accounts for every record. -/
theorem run_accounts (hfresh : (run limits events).trace.history.Fresh) :
    ∀ record ∈ (run limits events).trace.broker.records,
      (run limits events).trace.history.Accounts record := by
  induction events using List.reverseRecOn with
  | nil =>
    intro record hrecord
    cases hrecord
  | append_singleton events event ih =>
    have hbefore := ih (fresh_of_concat hfresh)
    rw [run_concat] at hfresh ⊢
    rcases (run limits events).apply_cases event with ⟨-, hsame⟩ | ⟨call, hcall, htrace⟩
    · rwa [hsame]
    · have hretry : ∀ report delay error now lease, call = .retry report delay error now →
          (run limits events).trace.broker.Owns report lease → lease.task.canRetry = true := by
        rintro report delay error now lease rfl howns
        exact canRetry_of_call? hcall howns
      obtain ⟨calls, hcalls⟩ := run_trace limits events
      rw [htrace] at hfresh ⊢
      rw [hcalls] at hfresh hbefore hretry ⊢
      exact fun record hrecord => extend_accounts hfresh hretry hbefore hrecord

/-- A task that a worker gives up with success is, but for the failure that it notes, the one that
the broker had. -/
lemma fail_accepted (hhands : (run limits events).hands worker = some task) {error : QueueError}
    {now : Instant} {next : Broker}
    (h : (Report.fail error).perform (run limits events).trace.broker task now =
      (.ok record, next)) :
    record = task.markFailed error.message now ∧
      (run limits events).trace.broker.get task.id = .ok task := by
  obtain ⟨answer, hserve, hrecord⟩ := Report.serve_of_perform h
  have htransition := serve_transition (run limits events).trace.broker
    (.deadLetter task error.message now)
  change (run limits events).trace.broker.serve (.deadLetter task error.message now) = _ at hserve
  rw [hserve] at htransition
  cases htransition with
  | @buried _ lease _ _ owns =>
    have hlease := lease_of_accepted limits events hhands owns
    subst hlease
    exact ⟨hrecord, get_of_lease owns.1⟩

/-- What it means for a fleet that retries are counted and stay within the budgets. -/
structure KeepsBudget (fleet : Fleet) : Prop where
  /-- The retry count of a task is the number of the accepted reports that it is to be tried again,
  and never more than the budget with which it was submitted. -/
  counted : ∀ id record, fleet.trace.broker.get id = .ok record →
    record.retryCount.toNat = occurrences id fleet.trace.history.retried ∧
      record.retryCount ≤ record.maxRetry ∧
        ∃ submitted ∈ fleet.trace.history.enqueued,
          submitted.id = id ∧ submitted.maxRetry = record.maxRetry
  /-- A task that is given up because its budget is spent has been retried exactly that often, and
  its error says how often. -/
  exhausted : ∀ worker task pool draw ending now retries reason record next,
    fleet.hands worker = some task →
      Pool.reportOn pool draw task ending = .fail (.retriesExhausted retries reason) →
        (Pool.reportOn pool draw task ending).perform fleet.trace.broker task now =
          (.ok record, next) →
          record.id = task.id ∧ record.retryCount = record.maxRetry ∧
            record.lastError =
              some (QueueError.retriesExhausted record.maxRetry.toNat reason).message
  /-- A task that must not be tried again, or that has no handler, is given up at once, whatever is
  left of its budget, and its retry count stays. -/
  hopeless : ∀ worker task pool draw ending error, fleet.hands worker = some task →
    (pool.registry.resolve? task.kind = none ∧ error = .unregisteredKind task.kind ∨
      pool.registry.resolve? task.kind ≠ none ∧ ∃ reason,
        ending.result pool.taskTimeout = .error (.skipRetry reason) ∧ error = .skipRetry reason) →
      Pool.reportOn pool draw task ending = .fail error ∧
        ∀ now record next,
          (Pool.reportOn pool draw task ending).perform fleet.trace.broker task now =
            (.ok record, next) →
            ∃ before, fleet.trace.broker.get task.id = .ok before ∧ record.id = task.id ∧
              record.state = .failed ∧ record.retryCount = before.retryCount ∧
                record.lastError = some error.message
  /-- Nothing but an accepted report that a task is to be tried again changes its retry count. -/
  changed : ∀ event id before after, (fleet.apply event).trace.history.Fresh →
    fleet.trace.broker.get id = .ok before → (fleet.apply event).trace.broker.get id = .ok after →
      after.retryCount = before.retryCount ∨
        ∃ worker pool draw ending now task delay error,
          event = .finish worker pool draw ending now ∧ fleet.hands worker = some task ∧
            task.id = id ∧ Pool.reportOn pool draw task ending = .reschedule delay error ∧
              fleet.trace.broker.Accepts (.retry task delay error now) ∧
                after.retryCount.toNat = before.retryCount.toNat + 1
  /-- A task that was reported as done or as failed for good is never claimed again. -/
  ended : ∀ earlier exchange later report,
    fleet.trace.history = earlier ++ exchange :: later →
      (exchange.acked? = some report ∨ exchange.deadLettered? = some report) →
        ∀ task ∈ History.deliveries later, task.id ≠ report.id

lemma get_accounts (hfresh : (run limits events).trace.history.Fresh) {id : String}
    (h : (run limits events).trace.broker.get id = .ok record) :
    record.id = id ∧ (run limits events).trace.history.Accounts record := by
  obtain ⟨hmem, hid⟩ := mem_records_of_get (run_wellFormed limits events) h
  exact ⟨hid, run_accounts hfresh record hmem⟩

/-- How an event changes the number of retries of an id. -/
lemma occurrences_retried_apply (event : Event) (id : String) :
    occurrences id ((run limits events).apply event).trace.history.retried =
        occurrences id (run limits events).trace.history.retried ∨
      ∃ worker pool draw ending now task delay error,
        event = .finish worker pool draw ending now ∧ (run limits events).hands worker = some task ∧
          task.id = id ∧ Pool.reportOn pool draw task ending = .reschedule delay error ∧
            (run limits events).trace.broker.Accepts (.retry task delay error now) ∧
              occurrences id ((run limits events).apply event).trace.history.retried =
                occurrences id (run limits events).trace.history.retried + 1 := by
  rcases (run limits events).apply_cases event with ⟨-, hsame⟩ | ⟨call, hcall, htrace⟩
  · exact .inl (by rw [hsame])
  rw [htrace, occurrences_retried_extend]
  cases hretried :
      Exchange.retried? ⟨call, ((run limits events).trace.broker.serve call).1⟩ with
  | none => exact .inl rfl
  | some report =>
    by_cases hid : report.id = id
    · refine .inr ?_
      unfold Exchange.retried? at hretried
      split at hretried
      · next other delay error now answer heq =>
        cases hretried
        obtain ⟨hretry, hanswer⟩ := Exchange.mk.inj heq
        rw [hretry] at hcall hanswer
        obtain ⟨worker, pool, draw, ending, hevent, hhands, hreport⟩ := retry_of_call? hcall
        exact ⟨worker, pool, draw, ending, now, report, delay, error, hevent, hhands, hid, hreport,
          ⟨answer, hanswer⟩, by simp [hid]⟩
      · cases hretried
    · exact .inl (by simp [hid])

/-- **Retries stay within their budgets.**  In every run of a fleet over a new broker, with any
number of workers and pools, any clocks, any ends of executions, and claims that lapse at any time:
if clients submit tasks that were never retried and use no id twice, then retries are counted
exactly and never exceed a budget. -/
theorem run_keeps_budget (limits : BrokerLimits) (events : List Event)
    (hfresh : (run limits events).trace.history.Fresh) : KeepsBudget (run limits events) where
  counted id record hget := by
    obtain ⟨rfl, haccounts⟩ := get_accounts hfresh hget
    exact ⟨haccounts.counted, haccounts.bounded, haccounts.submitted⟩
  exhausted worker task pool draw ending now retries reason record next hhands hreport h := by
    rw [hreport] at h
    obtain ⟨hrecord, hget⟩ := fail_accepted hhands h
    obtain ⟨rfl, hspent⟩ := Pool.exhausted_of_report hreport
    have hbound := (get_accounts hfresh hget).2.bounded
    have heq : task.retryCount = task.maxRetry :=
      UInt32.le_antisymm hbound (UInt32.not_lt.mp (of_decide_eq_false hspent))
    rw [hrecord, heq]
    exact ⟨rfl, heq, rfl⟩
  hopeless worker task pool draw ending error hhands hcause := by
    have hreport : Pool.reportOn pool draw task ending = .fail error := by
      rcases hcause with ⟨hnone, rfl⟩ | ⟨hsome, reason, hresult, rfl⟩
      · exact Pool.reportOn_unregistered hnone
      · exact Pool.reportOn_skipRetry hsome hresult
    refine ⟨hreport, fun now record next h => ?_⟩
    rw [hreport] at h
    obtain ⟨rfl, hget⟩ := fail_accepted hhands h
    exact ⟨task, hget, rfl, rfl, rfl, rfl⟩
  changed event id before after hnext hbefore hafter := by
    rw [← run_concat] at hnext hafter
    have hcountBefore := (get_accounts hfresh hbefore).2.counted
    have hcountAfter := (get_accounts hnext hafter).2.counted
    rw [(get_accounts hfresh hbefore).1] at hcountBefore
    rw [(get_accounts hnext hafter).1, run_concat] at hcountAfter
    rw [← UInt32.toNat_inj, hcountBefore, hcountAfter]
    exact occurrences_retried_apply event id
  ended earlier exchange later report hsplit hended := by
    obtain ⟨calls, hcalls⟩ := run_trace limits events
    rw [hcalls] at hfresh hsplit
    exact not_delivered_again hfresh hsplit hended

/-! ### A task that fails twice -/

/-- Room for one task of each sort. -/
def letterLimits : BrokerLimits := ⟨1, Duration.ofSeconds 2, 1, 1, .crashes⟩

/-- Two workers that handle one kind of task. -/
def letterPool : Pool where
  workerCount := 2
  weights := .single "mail"
  policy := .fixed .zero .zero
  taskTimeout := Duration.ofSeconds 1
  pollInterval := .zero
  registry := ⟨[("letter", fun _ _ => .done (.ok ()))]⟩
  hook := .log

/-- A task of this kind that may be retried once. -/
def letter : Task :=
  { Task.create "a" "letter" [] 1 .epoch with queue := "mail" }

/-- The task is submitted, and both workers claim it and fail, one after the other. -/
def letterEvents : List Event :=
  let failure : Ending := .returned (.error (.retry "no stamp"))
  [.enqueue letter .epoch,
   .claim 0 .listed letterPool.weights [] .epoch, .finish 0 letterPool 0 failure .epoch,
   .claim 1 .listed letterPool.weights [] .epoch, .finish 1 letterPool 0 failure .epoch]

theorem letter_keeps_budget :
    (run letterLimits letterEvents).trace.history.Fresh ∧
      KeepsBudget (run letterLimits letterEvents) ∧
        (run letterLimits letterEvents).trace.broker.dead.map
          (fun record => (record.retryCount, record.lastError)) =
            [(1, some "Task failed after 1 retries: no stamp")] := by
  have henqueued : (run letterLimits letterEvents).trace.history.enqueued = [letter] := by
    decide +kernel
  have hfresh : (run letterLimits letterEvents).trace.history.Fresh := by
    refine ⟨?_, ?_⟩
    · rw [henqueued]
      intro task htask
      rw [List.mem_singleton.mp htask]
      rfl
    · rw [henqueued]
      exact List.nodup_singleton _
  exact ⟨hfresh, run_keeps_budget letterLimits letterEvents hfresh, by decide +kernel⟩

end Fleet
end WorkQueue
