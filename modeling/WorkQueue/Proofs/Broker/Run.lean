import Mathlib.Data.List.Induction
import WorkQueue.Proofs.Broker.WellFormed
import WorkQueue.Proofs.Queue.Weights

/-!
# Runs of a broker

A run is a list of calls, each with all that it depends on: the envelope and the reading of the
clock, and for a claim the served queues, the random words that choose among them and the order in
which claims that lapse together go back.  Nothing is assumed about any of these, so a run is
whatever clients, workers, clocks and chance can do to a broker.

`serve` is one call, in terms of the broker's operations.  `Transition` lists what a call can do,
one constructor for each way in which an operation can end, and `serve_transition` says that there
is no other; what is kept by every call is proved by cases on it.  A `Trace` is a broker together
with the history that led to it, and `Trace.run_induction` is the induction on a run from its end.
-/

namespace WorkQueue

/-- Where counts are checked, one that can be raised leaves room for it. -/
lemma Task.toNat_lt_of_counted {task : Task} {overflow : Overflow} (hchecked : overflow = .crashes)
    (hcounted : task.overflows overflow = false) : task.retryCount.toNat + 1 < 2 ^ 32 := by
  have hcount : task.retryCount ≠ greatestCount := by simpa [overflows, hchecked] using hcounted
  have hne : task.retryCount.toNat ≠ 4294967295 := fun h => hcount (UInt32.toNat_inj.mp h)
  have hlt := task.retryCount.toNat_lt
  omega

namespace Broker

/-! ## Calls and answers -/

/-- A call of an operation that changes a broker, with everything that it depends on. -/
inductive Call where
  | enqueue (task : Task) (now : Instant)
  | claim (order : ReturnOrder) (weights : QueueWeights) (words : List UInt32) (now : Instant)
  | ack (report : Task) (now : Instant)
  | retry (report : Task) (delay : Duration) (error : String) (now : Instant)
  | deadLetter (report : Task) (error : String) (now : Instant)
  | release (report : Task) (now : Instant)

/-- What a call answers: an error, nothing, or a task; whoever crashes gets no answer. -/
abbrev Answer := Outcome (Option Task)

/-- The envelope that a report hands in. -/
def Call.report? : Call → Option Task
  | .enqueue _ _ => none
  | .claim _ _ _ _ => none
  | .ack report _ => some report
  | .retry report _ _ _ => some report
  | .deadLetter report _ _ => some report
  | .release report _ => some report

/-- What the clock reads at a call. -/
def Call.reading : Call → Instant
  | .enqueue _ now => now
  | .claim _ _ _ now => now
  | .ack _ now => now
  | .retry _ _ _ now => now
  | .deadLetter _ _ now => now
  | .release _ now => now

/-- The answer to a call, and the broker afterwards. -/
def serve (b : Broker) : Call → Answer × Broker
  | .enqueue task now => b.settle ((b.enqueue task now).map (none, ·))
  | .claim order weights words now =>
    let (result, next, _) := b.claim order weights words now
    (.ofExcept (result.map some), next)
  | .ack report now => b.settle ((b.ack report now).map (none, ·))
  | .retry report delay error now =>
    let (outcome, next) := b.retry report delay error now
    (outcome.map some, next)
  | .deadLetter report error now =>
    b.settle ((b.deadLetter report error now).map fun result => (some result.1, result.2))
  | .release report now => b.settle ((b.release report now).map (none, ·))

/-! ## What a call can do -/

/-- The ways in which a call can end. -/
inductive Transition (b : Broker) : Call → Answer → Broker → Prop
  | turnedAway {task : Task} {now : Instant} (refusal : Refusal)
      (reason : b.holds task.id = true ∨
        b.limits.maxQueueSize ≤ (b.entries task.queue).length) :
      Transition b (.enqueue task now) (.error (.enqueue refusal)) b
  | enqueued {task : Task} {now : Instant} (fresh : b.holds task.id = false)
      (room : (b.entries task.queue).length < b.limits.maxQueueSize) :
      Transition b (.enqueue task now) (.ok none)
        (b.push (task.markPending now) task.eligibleAt)
  | unserved {order : ReturnOrder} {weights : QueueWeights} {words : List UInt32}
      {now : Instant}
      (idle : ∀ queue ∈ weights.names, (b.recover order now).hasDue now queue = false) :
      Transition b (.claim order weights words now) (.error .queueEmpty) (b.recover order now)
  | claimed {order : ReturnOrder} {weights : QueueWeights} {words : List UInt32} {now : Instant}
      {queue : String} {entry : QueueEntry} {rest : List QueueEntry}
      (first : (b.recover order now).entries queue = entry :: rest)
      (served : queue ∈ weights.names) (due : entry.eligibleAt ≤ now) :
      Transition b (.claim order weights words now)
        (.ok (some ((b.recover order now).delivery entry now)))
        ((b.recover order now).handOver queue entry rest now)
  | disowned {call : Call} {report : Task} (isReport : call.report? = some report)
      (foreign : ∀ lease, ¬ b.Owns report lease) :
      Transition b call (.error (.taskNotFound report.id)) b
  | acked {report : Task} {lease : Lease} {now : Instant} (owns : b.Owns report lease) :
      Transition b (.ack report now) (.ok none)
        ((b.dropLease report.id).keepCompleted (lease.task.markCompleted now))
  | retried {report : Task} {lease : Lease} {delay : Duration} {error : String} {now : Instant}
      (owns : b.Owns report lease)
      (counted : lease.task.overflows b.limits.overflow = false) :
      Transition b (.retry report delay error now)
        (.ok (some (lease.task.markRetrying error (now.after delay) now)))
        ((b.dropLease report.id).push
          ((lease.task.markRetrying error (now.after delay) now).markPending now)
          (now.after delay))
  | crashed {report : Task} {lease : Lease} {delay : Duration} {error : String} {now : Instant}
      (owns : b.Owns report lease)
      (uncounted : lease.task.overflows b.limits.overflow = true) :
      Transition b (.retry report delay error now) .crashed (b.dropLease report.id)
  | buried {report : Task} {lease : Lease} {error : String} {now : Instant}
      (owns : b.Owns report lease) :
      Transition b (.deadLetter report error now)
        (.ok (some (lease.task.markFailed error now)))
        ((b.dropLease report.id).keepDead (lease.task.markFailed error now))
  | released {report : Task} {lease : Lease} {now : Instant} (owns : b.Owns report lease) :
      Transition b (.release report now) (.ok none)
        ((b.dropLease report.id).push (lease.task.markPending now) now)

section

variable {b : Broker} {report : Task} {lease : Lease}

/-- A retry whose count can be raised puts the task into its queue again. -/
lemma serve_retry (howns : b.Owns report lease)
    (hcounted : lease.task.overflows b.limits.overflow = false) (delay : Duration)
    (error : String) (now : Instant) :
    b.serve (.retry report delay error now) =
      (.ok (some (lease.task.markRetrying error (now.after delay) now)),
        (b.dropLease report.id).push
          ((lease.task.markRetrying error (now.after delay) now).markPending now)
          (now.after delay)) := by
  have htake := takeLease_ok_iff.mpr ⟨lease, howns, rfl, rfl⟩
  have hcounted' : lease.task.overflows (b.dropLease report.id).limits.overflow = false := hcounted
  simp only [serve, retry, htake, hcounted', Bool.false_eq_true, if_false]
  rfl

/-- A retry whose count cannot be raised loses the task. -/
lemma serve_retry_crashed (howns : b.Owns report lease)
    (hcounted : lease.task.overflows b.limits.overflow = true) (delay : Duration)
    (error : String) (now : Instant) :
    b.serve (.retry report delay error now) = (.crashed, b.dropLease report.id) := by
  have htake := takeLease_ok_iff.mpr ⟨lease, howns, rfl, rfl⟩
  have hcounted' : lease.task.overflows (b.dropLease report.id).limits.overflow = true := hcounted
  simp only [serve, retry, htake, hcounted', if_true]
  rfl

end

lemma enqueue_transition (b : Broker) (task : Task) (now : Instant) :
    Transition b (.enqueue task now) (b.serve (.enqueue task now)).1
      (b.serve (.enqueue task now)).2 := by
  simp only [serve, enqueue]
  split
  · next held => exact .turnedAway _ (.inl held)
  · next fresh =>
    split
    · next full => exact .turnedAway _ (.inr full)
    · next room => exact .enqueued (by simpa using fresh) (Nat.lt_of_not_le room)

lemma claim_transition (b : Broker) (order : ReturnOrder) (weights : QueueWeights)
    (words : List UInt32) (now : Instant) :
    Transition b (.claim order weights words now) (b.serve (.claim order weights words now)).1
      (b.serve (.claim order weights words now)).2 := by
  simp only [serve, claim]
  cases hpick : weights.pick ((b.recover order now).hasDue now) words with
  | mk picked left =>
    cases picked with
    | none => exact .unserved (QueueWeights.pick_eq_none_iff.mp (congrArg Prod.fst hpick))
    | some queue =>
      obtain ⟨hserved, hwork⟩ := QueueWeights.pick_eq_some (congrArg Prod.fst hpick)
      obtain ⟨entry, rest, hentries, hdue⟩ := first_of_hasDue hwork
      simp only [claimFrom_cons hentries]
      exact .claimed hentries hserved hdue

/-- A report ends as the look-up of the claim that it names does. -/
lemma report_transition {b : Broker} {call : Call} {report : Task}
    (hreport : call.report? = some report) :
    Transition b call (b.serve call).1 (b.serve call).2 := by
  by_cases howns : ∃ lease, b.Owns report lease
  · obtain ⟨lease, howns⟩ := howns
    have htake := takeLease_ok_iff.mpr ⟨lease, howns, rfl, rfl⟩
    cases call with
    | enqueue => cases hreport
    | claim => cases hreport
    | ack _ now =>
      cases hreport
      simp only [serve, ack, htake]
      exact .acked howns
    | retry _ delay error now =>
      cases hreport
      cases hcounted : lease.task.overflows b.limits.overflow with
      | false =>
        rw [serve_retry howns hcounted]
        exact .retried howns hcounted
      | true =>
        rw [serve_retry_crashed howns hcounted]
        exact .crashed howns hcounted
    | deadLetter _ error now =>
      cases hreport
      simp only [serve, deadLetter, htake]
      exact .buried howns
    | release _ now =>
      cases hreport
      simp only [serve, release, htake]
      exact .released howns
  · have htake := takeLease_error (not_exists.mp howns)
    have hserve : b.serve call = (.error (.taskNotFound report.id), b) := by
      cases call with
      | enqueue => cases hreport
      | claim => cases hreport
      | ack => cases hreport; simp only [serve, ack, htake]; rfl
      | retry => cases hreport; simp only [serve, retry, htake]; rfl
      | deadLetter => cases hreport; simp only [serve, deadLetter, htake]; rfl
      | release => cases hreport; simp only [serve, release, htake]; rfl
    rw [hserve]
    exact .disowned hreport (not_exists.mp howns)

/-- Every call ends in one of the ways of `Transition`. -/
theorem serve_transition (b : Broker) (call : Call) :
    Transition b call (b.serve call).1 (b.serve call).2 := by
  cases call with
  | enqueue task now => exact enqueue_transition b task now
  | claim order weights words now => exact claim_transition b order weights words now
  | ack | retry | deadLetter | release => exact report_transition rfl

namespace Transition

variable {b next : Broker} {call : Call} {answer : Answer}

lemma of_serve (h : b.serve call = (answer, next)) : Transition b call answer next := by
  have htransition := serve_transition b call
  rwa [h] at htransition

lemma limits_eq (h : Transition b call answer next) : next.limits = b.limits := by
  cases h with
  | unserved => simp
  | claimed => simp [handOver]
  | _ => rfl

/-- Every call keeps a broker well formed. -/
lemma wellFormed (h : Transition b call answer next) (hb : b.WellFormed) : next.WellFormed := by
  cases h with
  | turnedAway => exact hb
  | enqueued fresh _ =>
    refine hb.push fun hmem => ?_
    exact Bool.false_ne_true (fresh.symm.trans (hb.holds_iff.mpr hmem))
  | unserved => exact hb.recover _ _
  | claimed first => exact (hb.recover _ _).handOver first _
  | disowned => exact hb
  | acked => exact (hb.dropLease _).keepCompleted _
  | retried owns => exact hb.requeue _ _ owns.1 (hb.lease_id owns.1)
  | crashed => exact hb.dropLease _
  | buried => exact (hb.dropLease _).keepDead _
  | released owns => exact hb.requeue _ _ owns.1 (hb.lease_id owns.1)

end Transition

/-! ## Histories -/

/-- A call with its answer. -/
structure Exchange where
  call : Call
  answer : Answer

/-- The calls of a run with their answers, oldest first. -/
abbrev History := List Exchange

namespace Exchange

/-- The envelope of an accepted submission. -/
def enqueued? : Exchange → Option Task
  | ⟨.enqueue task _, .ok _⟩ => some task
  | _ => none

/-- The envelope that a claim returned. -/
def delivered? : Exchange → Option Task
  | ⟨.claim _ _ _ _, .ok answer⟩ => answer
  | _ => none

/-- The envelope of an accepted report that a task is done. -/
def acked? : Exchange → Option Task
  | ⟨.ack report _, .ok _⟩ => some report
  | _ => none

/-- The envelope of an accepted report that a task is to be tried again. -/
def retried? : Exchange → Option Task
  | ⟨.retry report _ _ _, .ok _⟩ => some report
  | _ => none

/-- The envelope of an accepted report that a task failed for good. -/
def deadLettered? : Exchange → Option Task
  | ⟨.deadLetter report _ _, .ok _⟩ => some report
  | _ => none

/-- The envelope of a report in which whoever made it crashed. -/
def crashed? : Exchange → Option Task
  | ⟨.retry report _ _ _, .crashed⟩ => some report
  | _ => none

/-- The envelope of an accepted report of any kind. -/
def reported? (exchange : Exchange) : Option Task :=
  match exchange.answer with
  | .ok _ => exchange.call.report?
  | _ => none

/-- The envelope of a report that took its claim off: of an accepted one, or of one in which whoever
made it crashed. -/
def spent? (exchange : Exchange) : Option Task :=
  match exchange.answer with
  | .error _ => none
  | _ => exchange.call.report?

lemma spent?_of_reported {exchange : Exchange} {report : Task}
    (h : exchange.reported? = some report) : exchange.spent? = some report := by
  obtain ⟨call, answer⟩ := exchange
  cases answer with
  | ok => exact h
  | error | crashed => cases h

end Exchange

namespace History

/-- The accepted submissions in order. -/
def enqueued (history : History) : List Task := history.filterMap (·.enqueued?)

/-- What the claims returned, in order. -/
def deliveries (history : History) : List Task := history.filterMap (·.delivered?)

/-- The accepted reports of tasks that are done, in order. -/
def acked (history : History) : List Task := history.filterMap (·.acked?)

/-- The accepted reports of tasks that are to be tried again, in order. -/
def retried (history : History) : List Task := history.filterMap (·.retried?)

/-- The accepted reports of tasks that failed for good, in order. -/
def deadLettered (history : History) : List Task := history.filterMap (·.deadLettered?)

/-- The reports in which whoever made them crashed, in order. -/
def crashed (history : History) : List Task := history.filterMap (·.crashed?)

/-- All accepted reports in order. -/
def reported (history : History) : List Task := history.filterMap (·.reported?)

/-- All reports that took their claims off, in order. -/
def spent (history : History) : List Task := history.filterMap (·.spent?)

lemma mem_spent_of_reported {history : History} {report : Task} (h : report ∈ history.reported) :
    report ∈ history.spent := by
  obtain ⟨exchange, hexchange, hreported⟩ := List.mem_filterMap.mp h
  exact List.mem_filterMap.mpr ⟨exchange, hexchange, Exchange.spent?_of_reported hreported⟩

end History

/-! ## Traces -/

/-- A broker with the history that led to it. -/
structure Trace where
  broker : Broker
  history : History

namespace Trace

/-- A new broker. -/
def start (limits : BrokerLimits) : Trace := ⟨empty limits, []⟩

/-- One more call. -/
def extend (trace : Trace) (call : Call) : Trace where
  broker := (trace.broker.serve call).2
  history := trace.history ++ [⟨call, (trace.broker.serve call).1⟩]

/-- A run of calls on a new broker. -/
def run (limits : BrokerLimits) (calls : List Call) : Trace :=
  calls.foldl extend (start limits)

/-- A run of calls on a broker as it is, with the history of these calls alone. -/
def onward (b : Broker) (calls : List Call) : Trace :=
  calls.foldl extend ⟨b, []⟩

lemma run_concat (limits : BrokerLimits) (calls : List Call) (call : Call) :
    run limits (calls ++ [call]) = (run limits calls).extend call := by
  simp [run]

lemma foldl_extend (b : Broker) (history : History) (calls : List Call) :
    calls.foldl extend ⟨b, history⟩ =
      ⟨(onward b calls).broker, history ++ (onward b calls).history⟩ := by
  induction calls generalizing b history with
  | nil => simp [onward]
  | cons call rest ih =>
    simp only [List.foldl_cons, extend, onward, List.nil_append]
    rw [ih, ih _ [_]]
    simp

lemma onward_cons (b : Broker) (call : Call) (rest : List Call) :
    onward b (call :: rest) =
      ⟨(onward (b.serve call).2 rest).broker,
        ⟨call, (b.serve call).1⟩ :: (onward (b.serve call).2 rest).history⟩ :=
  foldl_extend (b.serve call).2 [⟨call, (b.serve call).1⟩] rest

lemma onward_calls (b : Broker) (calls : List Call) :
    (onward b calls).history.map (·.call) = calls := by
  induction calls generalizing b with
  | nil => rfl
  | cons call rest ih => rw [onward_cons, List.map_cons, ih]

lemma onward_concat (b : Broker) (calls : List Call) (call : Call) :
    onward b (calls ++ [call]) = (onward b calls).extend call := by
  simp [onward]

lemma run_append (limits : BrokerLimits) (first rest : List Call) :
    run limits (first ++ rest) =
      ⟨(onward (run limits first).broker rest).broker,
        (run limits first).history ++ (onward (run limits first).broker rest).history⟩ := by
  rw [run, List.foldl_append]
  exact foldl_extend _ _ rest

lemma run_calls (limits : BrokerLimits) (calls : List Call) :
    (run limits calls).history.map (·.call) = calls :=
  onward_calls (empty limits) calls

/-- One more exchange adds to a list of a history what it adds to it by itself. -/
lemma filterMap_extend {α : Type} (f : Exchange → Option α) (trace : Trace) (call : Call) :
    (trace.extend call).history.filterMap f =
      trace.history.filterMap f ++ (f ⟨call, (trace.broker.serve call).1⟩).toList := by
  simp only [extend, List.filterMap_append]
  cases h : f ⟨call, (trace.broker.serve call).1⟩ <;> simp [h]

/-- The broker of a run, and the tasks that it has accepted. -/
def ledger (trace : Trace) : Broker × List Task := (trace.broker, trace.history.enqueued)

lemma ledger_extend (trace : Trace) (call : Call) :
    (trace.extend call).ledger = ((trace.ledger.1.serve call).2, trace.ledger.2 ++
      (Exchange.enqueued? ⟨call, (trace.ledger.1.serve call).1⟩).toList) :=
  Prod.ext rfl (filterMap_extend _ trace call)

/-- A call that submits nothing changes the broker alone. -/
lemma ledger_extend_of_none {call : Call} (h : ∀ answer, Exchange.enqueued? ⟨call, answer⟩ = none)
    (trace : Trace) :
    (trace.extend call).ledger = ((trace.ledger.1.serve call).2, trace.ledger.2) := by
  rw [ledger_extend, h, Option.toList_none, List.append_nil]

lemma transition (trace : Trace) (call : Call) :
    Transition trace.broker call (trace.broker.serve call).1 (trace.extend call).broker :=
  serve_transition _ _

/-- A history is cut at an exchange where the run is cut at its call: the calls before it lead to
the broker that answers it, and those after it go on from there. -/
lemma run_cut {limits : BrokerLimits} {calls : List Call} {before after : History}
    {exchange : Exchange} (h : (run limits calls).history = before ++ exchange :: after) :
    ∃ first next rest, calls = first ++ exchange.call :: rest ∧
      (run limits first).history = before ∧
      (run limits first).broker.serve exchange.call = (exchange.answer, next) ∧
      onward next rest = ⟨(run limits calls).broker, after⟩ := by
  have hcalls : before.map (·.call) ++ exchange.call :: after.map (·.call) = calls := by
    simpa [h] using run_calls limits calls
  generalize hfirst : before.map (·.call) = first at hcalls
  generalize after.map (·.call) = rest at hcalls
  have hlength : (run limits first).history.length = before.length := by
    simpa [← hfirst] using congrArg List.length (run_calls limits first)
  have hrun := run_append limits first (exchange.call :: rest)
  rw [hcalls, onward_cons] at hrun
  have hhistory := congrArg Trace.history hrun
  rw [h] at hhistory
  obtain ⟨hbefore, htail⟩ := List.append_inj hhistory hlength.symm
  obtain ⟨hexchange, hafter⟩ := List.cons.inj htail
  have hanswer := congrArg Exchange.answer hexchange
  exact ⟨first, _, rest, hcalls.symm, hbefore.symm, Prod.ext hanswer.symm rfl,
    by rw [hrun, hafter]⟩

theorem run_wellFormed (limits : BrokerLimits) (calls : List Call) :
    (run limits calls).broker.WellFormed := by
  induction calls using List.reverseRecOn with
  | nil => exact wellFormed_empty limits
  | append_singleton calls call ih =>
    rw [run_concat]
    exact ((run limits calls).transition call).wellFormed ih

lemma run_limits (limits : BrokerLimits) (calls : List Call) :
    (run limits calls).broker.limits = limits := by
  induction calls using List.reverseRecOn with
  | nil => rfl
  | append_singleton calls call ih =>
    rw [run_concat]
    exact ((run limits calls).transition call).limits_eq.trans ih

/-- What holds of a new broker and survives every call holds after every run. -/
lemma run_induction {limits : BrokerLimits} {motive : Trace → Prop} (start : motive (start limits))
    (extend : ∀ trace call, trace.broker.WellFormed → trace.broker.limits = limits →
      motive trace → motive (trace.extend call)) (calls : List Call) :
    motive (run limits calls) := by
  induction calls using List.reverseRecOn with
  | nil => exact start
  | append_singleton calls call ih =>
    rw [run_concat]
    exact extend _ _ (run_wellFormed limits calls) (run_limits limits calls) ih

/-- What holds of a broker as it is and survives every call holds after every run on it. -/
lemma onward_induction {b : Broker} {motive : Trace → Prop} (hb : b.WellFormed)
    (start : motive ⟨b, []⟩) (extend : ∀ trace call, trace.broker.WellFormed →
      motive trace → motive (trace.extend call)) (calls : List Call) :
    (onward b calls).broker.WellFormed ∧ motive (onward b calls) := by
  induction calls using List.reverseRecOn with
  | nil => exact ⟨hb, start⟩
  | append_singleton calls call ih =>
    rw [onward_concat]
    exact ⟨((onward b calls).transition call).wellFormed ih.1, extend _ _ ih.1 ih.2⟩

end Trace

/-! ## A letter that cannot be counted -/

/-- A letter whose count of retries is at its end. -/
def wornLetter : Task :=
  { Task.create "a" "letter" [] 0 .epoch with retryCount := greatestCount }

/-- The limits of a small broker in a program that was built with checks. -/
def checkedLimits : BrokerLimits := ⟨5, Duration.ofSeconds 30, 1, 1, .crashes⟩

/-- The letter is submitted and claimed. -/
def wornCalls : List Call :=
  [.enqueue wornLetter .epoch, .claim .listed (.single "default") [] .epoch]

/-- The report that the letter is to be tried again. -/
def lastRetry : Call :=
  .retry { wornLetter with lease := some 1 } Duration.zero "late" .epoch

end Broker
end WorkQueue
