import WorkQueue.Proofs.Config.Validity
import WorkQueue.Proofs.Fleet.RetryBudget
import WorkQueue.Proofs.Queue.Weights

/-!
# Counters of one word

Weights, retry counts and budgets are words of 32 bits.  Three numbers are made of them by adding:
the sum of the weights that a choice is drawn from, the number of the attempt that a handler is
told, and the retry count of a task that is tried again.  `FitsWords` says which of them are words
again.

The retry count is, in every run of a fleet, whatever clients submit: a worker asks for a retry only
below the budget, and the broker counts on its own copy of the same envelope.  Along a run the retry
count of a record is therefore never more than the larger of the two numbers with which its task was
submitted (`run_covers`).  The number of the attempt is one more than that, and the sum of the
weights has no bound at all.  So these two are words except at the end of the range, and
`greatest_words_overflow` gets there: validation and the broker accept the greatest words like any
other.
-/

namespace WorkQueue

open Broker Text

variable {limits : BrokerLimits} {trace : Trace} {call : Call} {record old task : Task}

/-! ## The sum of the weights -/

namespace QueueWeights

variable {entries : List (String × Nat)} {hasWork : String → Bool}

/-- Leaving queues out makes the sum no greater. -/
lemma total_filter_le (entries : List (String × Nat)) (keep : String × Nat → Bool) :
    total (entries.filter keep) ≤ total entries := by
  induction entries with
  | nil => exact Nat.le_refl _
  | cons entry rest ih =>
    by_cases hkeep : keep entry = true
    · rw [List.filter_cons_of_pos hkeep]
      exact Nat.add_le_add_left ih _
    · rw [List.filter_cons_of_neg hkeep]
      exact Nat.le_trans ih (Nat.le_add_left _ _)

lemma candidates_all (weights : QueueWeights) :
    weights.candidates (fun _ => true) = weights.entries :=
  List.filter_eq_self.mpr fun _ _ => rfl

/-- A sum that is no word has more than one summand. -/
lemma two_le_length (hweights : ∀ entry ∈ entries, entry.2 < bound32)
    (h : bound32 ≤ total entries) : 2 ≤ entries.length := by
  match entries with
  | [] => exact absurd h (by decide)
  | [entry] => exact absurd (hweights entry List.mem_cons_self) (Nat.not_lt_of_le h)
  | _ :: _ :: _ => exact Nat.le_add_left 2 _

end QueueWeights

open QueueWeights in
/-- Every choice among several queues is drawn from a word exactly if the weights of all queues add
up to one. -/
lemma Config.draws_fit_iff {config : Config} (hvalid : config.validate = .ok ())
    (hweights : ∀ entry ∈ config.queues, entry.2 < bound32) :
    (∀ hasWork, 2 ≤ (config.queueWeights.candidates hasWork).length →
        total (config.queueWeights.candidates hasWork) < bound32) ↔
      total config.queues < bound32 := by
  have hserved := entries_queueWeights (validate_ok_iff.mp hvalid)
  constructor
  · intro hdraws
    by_contra hsum
    have hdraw := hdraws fun _ => true
    rw [candidates_all, hserved] at hdraw
    exact hsum (hdraw (two_le_length hweights (Nat.le_of_not_lt hsum)))
  · intro hsum hasWork _
    have hle := total_filter_le config.queueWeights.entries fun entry => hasWork entry.1
    rw [hserved] at hle
    exact Nat.lt_of_le_of_lt (hserved ▸ hle) hsum

/-! ## Retry counts -/

/-- Whether a history covers a record: a task of its id was submitted with this budget, and the
record has not been retried beyond the larger of the two numbers it was submitted with. -/
def Broker.History.Covers (history : History) (record : Task) : Prop :=
  ∃ submitted ∈ history.enqueued,
    submitted.id = record.id ∧ submitted.maxRetry = record.maxRetry ∧
      record.retryCount.toNat ≤ max submitted.retryCount.toNat submitted.maxRetry.toNat

lemma Broker.History.Covers.of_budget {history : History} (h : history.Covers old)
    (hbudget : record.budget = old.budget) : history.Covers record := by
  obtain ⟨submitted, hmem, hid, hmax, hcount⟩ := h
  simp only [Task.budget, Prod.mk.injEq] at hbudget
  obtain ⟨hid', hcount', hmax'⟩ := hbudget
  exact ⟨submitted, hmem, hid.trans hid'.symm, hmax.trans hmax'.symm, hcount' ▸ hcount⟩

lemma Broker.History.Covers.extend (h : trace.history.Covers record) (call : Call) :
    (trace.extend call).history.Covers record := by
  obtain ⟨submitted, hmem, hcovers⟩ := h
  exact ⟨submitted, enqueued_extend trace call hmem, hcovers⟩

/-- A retry within the budget stays within what was submitted. -/
lemma Broker.History.Covers.retried {history : History} (h : history.Covers task)
    (hbudget : task.canRetry = true) (error : String) (next now : Instant) :
    history.Covers ((task.markRetrying error next now).markPending now) := by
  obtain ⟨submitted, hmem, hid, hmax, -⟩ := h
  have hbelow : task.retryCount.toNat < task.maxRetry.toNat :=
    UInt32.lt_iff_toNat_lt.mp (of_decide_eq_true hbudget)
  refine ⟨submitted, hmem, hid, hmax, ?_⟩
  change (task.retryCount + 1).toNat ≤ _
  rw [Task.toNat_succ_of_canRetry hbudget, hmax]
  exact Nat.le_trans hbelow (Nat.le_max_right _ _)

/-- The records stay covered through a call that asks for no retry beyond the budget. -/
lemma extend_covers (hb : trace.broker.WellFormed)
    (hretry : ∀ report delay error now lease, call = .retry report delay error now →
      trace.broker.Owns report lease → lease.task.canRetry = true)
    (h : ∀ record ∈ trace.broker.records, trace.history.Covers record)
    (hrecord : record ∈ (trace.extend call).broker.records) :
    (trace.extend call).history.Covers record := by
  rcases (trace.transition call).mem_records hb hrecord with ⟨old, hold, hbudget⟩ |
    ⟨task, now, rfl, hanswer, rfl⟩ | ⟨report, lease, delay, error, now, rfl, -, howns, rfl⟩
  · exact ((h old hold).extend call).of_budget hbudget
  · have hmem : task ∈ (trace.extend (.enqueue task now)).history.enqueued := by
      rw [History.enqueued, Trace.filterMap_extend, hanswer]
      exact List.mem_append_right _ (List.mem_singleton_self _)
    exact ⟨task, hmem, rfl, rfl, Nat.le_max_left _ _⟩
  · have hbefore := h _ (mem_records_of_lease howns.1)
    exact (hbefore.extend _).retried (hretry _ _ _ _ _ rfl howns) error _ now

/-- What a claim returns is a record of the broker. -/
lemma Broker.Transition.record_of_delivered {b next : Broker} {answer : Answer}
    (h : Transition b call answer next)
    (hdelivered : Exchange.delivered? ⟨call, answer⟩ = some task) : task ∈ next.records := by
  cases h with
  | @claimed order _ _ now queue entry rest first =>
    cases hdelivered
    have hlease : Table.get? entry.task.id
        ((b.recover order now).handOver queue entry rest now).leases =
          some ((b.recover order now).leaseOn entry now) := by
      rw [handOver, Table.get?_put, if_pos rfl]
    exact mem_records_of_lease hlease
  | disowned isReport =>
    rw [Exchange.delivered?_of_report isReport] at hdelivered
    cases hdelivered
  | _ => cases hdelivered

namespace Fleet

variable {events : List Event} {worker : Nat}

/-- The history of a run covers every record and everything that a claim has returned. -/
theorem run_covers (limits : BrokerLimits) (events : List Event) :
    (∀ record ∈ (run limits events).trace.broker.records,
        (run limits events).trace.history.Covers record) ∧
      ∀ task ∈ (run limits events).trace.history.deliveries,
        (run limits events).trace.history.Covers task := by
  induction events using List.reverseRecOn with
  | nil => exact ⟨fun _ hrecord => (List.not_mem_nil hrecord).elim, fun _ htask =>
    (List.not_mem_nil htask).elim⟩
  | append_singleton events event ih =>
    obtain ⟨hrecords, hdeliveries⟩ := ih
    rw [run_concat]
    rcases (run limits events).apply_cases event with ⟨-, hsame⟩ | ⟨call, hcall, htrace⟩
    · rw [hsame]
      exact ⟨hrecords, hdeliveries⟩
    · rw [htrace]
      have hnext : ∀ record ∈ ((run limits events).trace.extend call).broker.records,
          ((run limits events).trace.extend call).history.Covers record := by
        intro record hrecord
        refine extend_covers (run_wellFormed limits events) ?_ hrecords hrecord
        rintro report delay error now lease rfl howns
        exact canRetry_of_call? hcall howns
      refine ⟨hnext, fun task htask => ?_⟩
      rw [History.deliveries, Trace.filterMap_extend] at htask
      rcases List.mem_append.mp htask with hbefore | hnew
      · exact (hdeliveries task hbefore).extend call
      · have htransition := (run limits events).trace.transition call
        exact hnext task (htransition.record_of_delivered (Option.mem_toList.mp hnew))

/-- A retry that is accepted adds one to the count of the task in hand. -/
lemma retry_accepted (hhands : (run limits events).hands worker = some task) {delay : Duration}
    {error : String} {now : Instant} {next : Broker}
    (h : (Report.reschedule delay error).perform (run limits events).trace.broker task now =
      (.ok record, next)) :
    record = task.markRetrying error (now.after delay) now := by
  obtain ⟨answer, hserve, hrecord⟩ := Report.serve_of_perform h
  have htransition := serve_transition (run limits events).trace.broker
    (.retry task delay error now)
  change (run limits events).trace.broker.serve (.retry task delay error now) = _ at hserve
  rw [hserve] at htransition
  cases htransition with
  | @retried _ lease _ _ _ owns =>
    have hlease := lease_of_accepted limits events hhands owns
    subst hlease
    exact hrecord

/-! ## What fits a word -/

/-- Which of the numbers that a deployment makes by adding are words of 32 bits. -/
structure FitsWords (config : Config) (fleet : Fleet) : Prop where
  /-- Every choice among several queues is drawn from a word, whichever of them have work, exactly
  if the weights of all queues add up to one. -/
  draws : (∀ hasWork, 2 ≤ (config.queueWeights.candidates hasWork).length →
      QueueWeights.total (config.queueWeights.candidates hasWork) < bound32) ↔
    QueueWeights.total config.queues < bound32
  /-- A claimed task has not been retried beyond the larger of the two numbers with which a task of
  this id was submitted. -/
  delivered : ∀ task ∈ fleet.trace.history.deliveries, fleet.trace.history.Covers task
  /-- The number of the attempt that its handler is told is a word too, unless the retry count is
  the greatest one; then a task of this id was submitted with that for its count or its budget. -/
  attempts : ∀ task ∈ fleet.trace.history.deliveries,
    (Delivery.ofTask task).attempt < bound32 ∨
      task.retryCount = greatestCount ∧ ∃ submitted ∈ fleet.trace.history.enqueued,
        submitted.id = task.id ∧
          (submitted.retryCount = greatestCount ∨ submitted.maxRetry = greatestCount)
  /-- A worker that asks for another attempt, and is not refused, adds one to the retry count, and
  what comes out is a word: the count does not start again. -/
  retries : ∀ worker task pool draw ending now delay error record next,
    fleet.hands worker = some task →
      Pool.reportOn pool draw task ending = .reschedule delay error →
        (Pool.reportOn pool draw task ending).perform fleet.trace.broker task now =
          (.ok record, next) →
          record.retryCount.toNat = task.retryCount.toNat + 1 ∧
            task.retryCount.toNat + 1 < bound32

lemma eq_greatestCount {count : UInt32} (h : 4294967295 ≤ count.toNat) : count = greatestCount := by
  have hlt := count.toNat_lt
  exact UInt32.toNat_inj.mp (show count.toNat = 4294967295 by omega)

/-- **Retry counts stay words; attempts and weights need not.**  In every run of a fleet, whatever
counts and budgets its clients submit, no retry leads out of the words, and no attempt does but one
after the greatest of them.  The choices of a valid configuration are drawn
from words exactly if the weights of all its queues add up to one. -/
theorem run_fits_words (config : Config) (hvalid : config.validate = .ok ())
    (hweights : ∀ entry ∈ config.queues, entry.2 < bound32) (limits : BrokerLimits)
    (events : List Event) : FitsWords config (run limits events) where
  draws := Config.draws_fit_iff hvalid hweights
  delivered := (run_covers limits events).2
  attempts task htask := by
    obtain ⟨submitted, hmem, hid, -, hcount⟩ := (run_covers limits events).2 task htask
    by_cases hlast : task.retryCount = greatestCount
    · -- One of the two numbers is as great as the count, and nothing is greater.
      have hgreatest : task.retryCount.toNat = 4294967295 := congrArg UInt32.toNat hlast
      refine .inr ⟨hlast, submitted, hmem, hid, ?_⟩
      rcases Nat.le_total submitted.retryCount.toNat submitted.maxRetry.toNat with hle | hle
      · rw [Nat.max_eq_right hle, hgreatest] at hcount
        exact .inr (eq_greatestCount hcount)
      · rw [Nat.max_eq_left hle, hgreatest] at hcount
        exact .inl (eq_greatestCount hcount)
    · refine .inl ?_
      change task.retryCount.toNat + 1 < bound32
      have hne : task.retryCount.toNat ≠ 4294967295 := fun h => hlast (UInt32.toNat_inj.mp h)
      have hlt := task.retryCount.toNat_lt
      unfold bound32
      omega
  retries worker task pool draw ending now delay error record next hhands hreport h := by
    have hbudget := Pool.canRetry_of_reschedule hreport
    have hsucc := Task.toNat_succ_of_canRetry hbudget
    rw [hreport] at h
    rw [retry_accepted hhands h, ← hsucc]
    exact ⟨rfl, (task.retryCount + 1).toNat_lt⟩

/-- A task whose last retry takes its count to the greatest word. -/
def lastLetter : Task :=
  { letter with retryCount := greatestCount - 1, maxRetry := greatestCount }

/-- It is submitted, and a worker claims it. -/
def lastLetterEvents : List Event :=
  [.enqueue lastLetter .epoch, .claim 0 .listed letterPool.weights [] .epoch]

theorem last_letter_fits_words :
    (Config.standard 1).validate = .ok () ∧
      (∀ entry ∈ (Config.standard 1).queues, entry.2 < bound32) ∧
      FitsWords (Config.standard 1) (run letterLimits lastLetterEvents) ∧
      ((run letterLimits lastLetterEvents).hands 0).map
        (fun task => (Delivery.ofTask task).attempt) = some (bound32 - 1) := by
  have hvalid : (Config.standard 1).validate = .ok () := by decide +kernel
  have hweights : ∀ entry ∈ (Config.standard 1).queues, entry.2 < bound32 := by decide
  exact ⟨hvalid, hweights, run_fits_words _ hvalid hweights _ _, by decide +kernel⟩

/-- The standard configuration with two queues whose weights are words, and add up to none. -/
def wideConfig : Config :=
  { Config.standard 1 with queues := [("a", bound32 - 1), ("b", 1)] }

/-- A task that was retried as often as a word can say. -/
def wornLetter : Task :=
  { letter with queue := "a", retryCount := greatestCount }

/-- Validation accepts weights whose sum is no word, and the broker accepts and hands out a task
whose next attempt has no word for its number. -/
theorem greatest_words_overflow :
    wideConfig.validate = .ok () ∧
      QueueWeights.total (wideConfig.queueWeights.candidates fun _ => true) = bound32 ∧
      (letterPool.registry.resolve? wornLetter.kind).isSome = true ∧
      ((run (.ofConfig wideConfig) [.enqueue wornLetter .epoch,
        .claim 0 .listed wideConfig.queueWeights [] .epoch]).hands 0).map
          (fun task => (Delivery.ofTask task).attempt) = some bound32 :=
  ⟨by decide +kernel, by decide +kernel, rfl, by decide +kernel⟩

end Fleet
end WorkQueue
