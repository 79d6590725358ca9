import Mathlib.Algebra.BigOperators.Group.Finset.Basic
import WorkQueue.Proofs.Broker.Reports

/-!
# No task is lost or duplicated

The main statement is `run_conserves`.  After every run, the accepted submissions of an id are the
accepted reports that ended it, by success or for good, and one more if the broker holds it; and an
id that is held is held once, in a queue or under a claim.  The numbers that a broker tells of
itself follow from this, and its two histories are the last of what was finished, in order.

A retry in which whoever reports crashes is the exception.  The task is lost there: it has not
ended, and it is not held (`worn_letter_lost`).  The account names these losses, and `lost` says
that there are none but of tasks whose count of retries is at its end, in a program that was built
with checks.

The argument is one count per call: `Transition.count_heldIds` says by how much a call changes the
number of times that an id is held, which by `WellFormed.heldIds_nodup` is at most one.
-/

namespace WorkQueue
namespace Broker

variable {b next : Broker} {call : Call} {answer : Answer}

/-! ## The count of an id -/

/-- How often an id occurs among some envelopes. -/
def occurrences (id : String) (tasks : List Task) : Nat :=
  (tasks.map (·.id)).count id

@[simp] lemma occurrences_nil (id : String) : occurrences id [] = 0 := rfl

@[simp] lemma occurrences_singleton (id : String) (task : Task) :
    occurrences id [task] = if task.id = id then 1 else 0 := by
  simp [occurrences, List.count_cons]

@[simp] lemma occurrences_append (id : String) (earlier later : List Task) :
    occurrences id (earlier ++ later) = occurrences id earlier + occurrences id later := by
  simp [occurrences]

lemma Exchange.acked?_of_refused {report : Task} (h : call.report? = some report)
    (error : QueueError) :
    enqueued? ⟨call, .error error⟩ = none ∧ acked? ⟨call, .error error⟩ = none ∧
      deadLettered? ⟨call, .error error⟩ = none ∧ crashed? ⟨call, .error error⟩ = none := by
  cases call <;> exact ⟨rfl, rfl, rfl, rfl⟩

/-- What a call adds to the accepted submissions of an id, it adds to those that ended, to those
that were lost or to the held ones. -/
lemma Transition.count_heldIds (h : Transition b call answer next) (hb : b.WellFormed)
    (id : String) :
    next.heldIds.count id + occurrences id (Exchange.acked? ⟨call, answer⟩).toList +
        occurrences id (Exchange.deadLettered? ⟨call, answer⟩).toList +
        occurrences id (Exchange.crashed? ⟨call, answer⟩).toList =
      b.heldIds.count id + occurrences id (Exchange.enqueued? ⟨call, answer⟩).toList := by
  cases h with
  | turnedAway =>
    simp [Exchange.acked?, Exchange.deadLettered?, Exchange.crashed?, Exchange.enqueued?]
  | @enqueued task now fresh _ =>
    have hcount := (hb.heldIds_push (task.markPending now) task.eligibleAt).count_eq id
    have hid : (task.markPending now).id = task.id := rfl
    simp only [hid, List.count_cons, beq_iff_eq] at hcount
    simp [Exchange.acked?, Exchange.deadLettered?, Exchange.crashed?, Exchange.enqueued?, hcount]
  | @unserved order _ _ now =>
    have hcount := (hb.heldIds_recover order now).count_eq id
    simp [Exchange.acked?, Exchange.deadLettered?, Exchange.crashed?, Exchange.enqueued?, hcount]
  | @claimed order _ _ now _ _ _ first =>
    have hrecover := (hb.heldIds_recover order now).count_eq id
    have hcount := ((hb.recover order now).heldIds_handOver first now).count_eq id
    simp [Exchange.acked?, Exchange.deadLettered?, Exchange.crashed?, Exchange.enqueued?, hcount,
      hrecover]
  | @disowned _ report isReport _ =>
    obtain ⟨henqueued, hacked, hdead, hcrashed⟩ :=
      Exchange.acked?_of_refused isReport (.taskNotFound report.id)
    simp [henqueued, hacked, hdead, hcrashed]
  | acked owns | buried owns =>
    have hcount := (hb.heldIds_dropLease owns.1).count_eq id
    simp only [List.count_cons, beq_iff_eq] at hcount
    simp only [Exchange.acked?, Exchange.deadLettered?, Exchange.crashed?, Exchange.enqueued?,
      hcount, Option.toList_some, Option.toList_none, occurrences_singleton, occurrences_nil,
      Nat.add_zero]
    rfl
  | crashed owns =>
    have hcount := (hb.heldIds_dropLease owns.1).count_eq id
    simp only [List.count_cons, beq_iff_eq] at hcount
    simp [Exchange.acked?, Exchange.deadLettered?, Exchange.crashed?, Exchange.enqueued?, hcount]
  | @retried _ lease delay error now owns =>
    have hcount := (hb.heldIds_requeue
      ((lease.task.markRetrying error (now.after delay) now).markPending now) (now.after delay)
      owns.1 (hb.lease_id owns.1)).count_eq id
    simpa [Exchange.acked?, Exchange.deadLettered?, Exchange.crashed?, Exchange.enqueued?]
      using hcount
  | @released _ lease now owns =>
    have hcount := (hb.heldIds_requeue (lease.task.markPending now) now owns.1
      (hb.lease_id owns.1)).count_eq id
    simpa [Exchange.acked?, Exchange.deadLettered?, Exchange.crashed?, Exchange.enqueued?]
      using hcount

lemma count_enqueued (limits : BrokerLimits) (calls : List Call) (id : String) :
    occurrences id (Trace.run limits calls).history.enqueued =
      occurrences id (Trace.run limits calls).history.acked +
        occurrences id (Trace.run limits calls).history.deadLettered +
          occurrences id (Trace.run limits calls).history.crashed +
            (Trace.run limits calls).broker.heldIds.count id := by
  refine Trace.run_induction (motive := fun trace =>
    occurrences id trace.history.enqueued = occurrences id trace.history.acked +
      occurrences id trace.history.deadLettered + occurrences id trace.history.crashed +
        trace.broker.heldIds.count id) ?_ ?_ calls
  · simp [Trace.start, History.enqueued, History.acked, History.deadLettered, History.crashed,
      occurrences, heldIds, queuedIds, allEntries, empty, Table.names]
  · intro trace call hb _ ih
    have hcount := (trace.transition call).count_heldIds hb id
    simp only [History.enqueued, History.acked, History.deadLettered, History.crashed,
      Trace.filterMap_extend, occurrences_append] at ih ⊢
    omega

/-- The accepted submissions are, up to order, what has ended, what was lost and what is held. -/
lemma enqueued_perm (limits : BrokerLimits) (calls : List Call) :
    ((Trace.run limits calls).history.enqueued.map (·.id)).Perm
      ((Trace.run limits calls).history.acked.map (·.id) ++
        (Trace.run limits calls).history.deadLettered.map (·.id) ++
          (Trace.run limits calls).history.crashed.map (·.id) ++
            (Trace.run limits calls).broker.heldIds) := by
  rw [List.perm_iff_count]
  intro id
  rw [List.count_append, List.count_append, List.count_append]
  exact count_enqueued limits calls id

/-- A task is lost only if its count is at its end, in a program that was built with checks. -/
lemma mem_crashed (limits : BrokerLimits) (calls : List Call) {report : Task}
    (h : report ∈ (Trace.run limits calls).history.crashed) :
    limits.overflow = .crashes ∧ ∃ task ∈ (Trace.run limits calls).history.deliveries,
      task.id = report.id ∧ task.lease = report.lease ∧ task.retryCount = greatestCount := by
  induction calls using List.reverseRecOn with
  | nil => exact absurd h List.not_mem_nil
  | append_singleton calls call ih =>
    rw [Trace.run_concat] at h ⊢
    rw [History.crashed, Trace.filterMap_extend] at h
    rw [History.deliveries, Trace.filterMap_extend]
    rcases List.mem_append.mp h with h | h
    · obtain ⟨hchecked, task, htask, hof⟩ := ih h
      exact ⟨hchecked, task, List.mem_append_left _ htask, hof⟩
    · have hcrashed := Option.mem_toList.mp h
      have htransition := (Trace.run limits calls).transition call
      have hb := Trace.run_wellFormed limits calls
      rw [Trace.extend] at htransition
      generalize (Trace.run limits calls).broker.serve call = served at hcrashed htransition ⊢
      obtain ⟨answer, next⟩ := served
      cases htransition with
      | @crashed _ lease _ _ _ owns uncounted =>
        cases hcrashed
        have hoverflows := Bool.and_eq_true_iff.mp uncounted
        have hchecked := of_decide_eq_true hoverflows.1
        have hmem := Trace.mem_deliveries_of_lease (Trace.run_tracked limits calls) owns.1
        rw [Trace.run_limits] at hchecked
        exact ⟨hchecked, lease.task, List.mem_append_left _ hmem, hb.lease_id owns.1,
          (hb.lease_token owns.1).trans owns.2.symm, of_decide_eq_true hoverflows.2⟩
      | disowned => cases call <;> cases hcrashed
      | _ => cases hcrashed

/-! ## Where an id is held -/

/-- How often an id is held: among the queued tasks and among the claims. -/
def holdings (b : Broker) (id : String) : Nat :=
  b.allEntries.countP (fun entry => entry.task.id == id) +
    b.leases.countP fun item => item.2.task.id == id

namespace WellFormed

lemma holdings_eq_count (h : b.WellFormed) (id : String) :
    b.holdings id = b.heldIds.count id := by
  have hqueued : b.queuedIds.count id =
      b.allEntries.countP fun entry => entry.task.id == id := List.countP_map
  have hclaimed : (Table.names b.leases).count id =
      b.leases.countP fun item => item.2.task.id == id := by
    rw [← h.lease_ids, List.count, List.countP_map]
    rfl
  rw [heldIds, List.count_append, hqueued, hclaimed, holdings]

/-- An id is held once or not at all. -/
lemma holdings_eq (h : b.WellFormed) (id : String) :
    b.holdings id = if b.holds id then 1 else 0 := by
  rw [h.holdings_eq_count]
  by_cases hid : id ∈ b.heldIds
  · rw [if_pos (h.holds_iff.mpr hid)]
    exact List.count_eq_one_of_mem h.heldIds_nodup hid
  · rw [if_neg fun hholds => hid (h.holds_iff.mp hholds)]
    exact List.count_eq_zero_of_not_mem hid

/-- The queued tasks are those of all queues together. -/
lemma length_allEntries (h : b.WellFormed) :
    b.allEntries.length = ∑ queue ∈ (Table.names b.queues).toFinset, b.size queue := by
  rw [List.sum_toFinset _ h.queues_sorted.names_nodup, Table.names, List.map_map, allEntries,
    List.length_flatMap]
  refine congrArg List.sum (List.map_congr_left fun item hitem => ?_)
  simp [size, entries, h.queues_sorted.mem_iff.mp hitem]

end WellFormed

lemma size_eq_zero (b : Broker) {queue : String} (h : queue ∉ Table.names b.queues) :
    b.size queue = 0 := by
  have hnone : Table.get? queue b.queues = none := by
    rw [Table.get?_eq_none_iff]
    exact fun item hitem hname => h (List.mem_map.mpr ⟨item, hitem, hname⟩)
  simp [size, entries, hnone]

lemma pending_add_scheduled (b : Broker) (now : Instant) :
    (b.stats now).pending + (b.stats now).scheduled = b.allEntries.length := by
  have hsplit := List.length_eq_countP_add_countP (l := b.allEntries)
    (fun entry => decide (entry.eligibleAt ≤ now))
  simp only [Bool.not_eq_true, Bool.decide_eq_false] at hsplit
  rw [hsplit, List.countP_eq_length_filter, List.countP_eq_length_filter]
  rfl

lemma length_heldIds (b : Broker) (now : Instant) :
    b.heldIds.length =
      (b.stats now).pending + (b.stats now).scheduled + (b.stats now).inFlight := by
  rw [pending_add_scheduled]
  simp [heldIds, queuedIds, Table.names, stats]

/-! ## The two histories -/

/-- The envelope that the claim with a token returned. -/
def History.delivery? (history : History) (token : Option Nat) : Option Task :=
  history.deliveries.find? fun task => decide (task.lease = token)

/-- The envelope of an accepted report that a task is done, and what the report makes of the
envelope that was claimed. -/
def Exchange.completion? : Exchange → Option (Task × (Task → Task))
  | ⟨.ack report now, .ok _⟩ => some (report, (·.markCompleted now))
  | _ => none

/-- The envelope of an accepted report that a task failed for good, and what the report makes of the
envelope that was claimed. -/
def Exchange.burial? : Exchange → Option (Task × (Task → Task))
  | ⟨.deadLetter report error now, .ok _⟩ => some (report, (·.markFailed error now))
  | _ => none

/-- The record that a report of some kind leaves: the envelope that its claim had returned, as the
report marks it. -/
def History.record? (history : History) (kind : Exchange → Option (Task × (Task → Task)))
    (exchange : Exchange) : Option Task :=
  (kind exchange).bind fun (report, mark) => (history.delivery? report.lease).map mark

/-- The records that the reports of some kind left, in the order of the reports. -/
def History.records (history : History) (kind : Exchange → Option (Task × (Task → Task))) :
    List Task :=
  history.filterMap (history.record? kind)

lemma delivery?_of_mem (limits : BrokerLimits) (calls : List Call) {task : Task}
    (h : task ∈ (Trace.run limits calls).history.deliveries) :
    (Trace.run limits calls).history.delivery? task.lease = some task := by
  cases hfound : (Trace.run limits calls).history.delivery? task.lease with
  | none =>
    have hnone := List.find?_eq_none.mp hfound task h
    simp at hnone
  | some other =>
    have hother := List.mem_of_find?_eq_some hfound
    have hlease : other.lease = task.lease := by simpa using List.find?_some hfound
    rw [Trace.delivery_inj limits calls hother h hlease]

lemma delivery?_concat {history : History} {token : Option Nat} {task : Task}
    (h : history.delivery? token = some task) (exchange : Exchange) :
    History.delivery? (history ++ [exchange]) token = some task := by
  unfold History.delivery? History.deliveries at h ⊢
  rw [List.filterMap_append, List.find?_append, h]
  rfl

/-- The claim that an accepted report names can be looked up, also after the call. -/
lemma delivery?_of_owns (limits : BrokerLimits) (calls : List Call) (exchange : Exchange)
    {report : Task} {lease : Lease} (howns : (Trace.run limits calls).broker.Owns report lease) :
    History.delivery? ((Trace.run limits calls).history ++ [exchange]) report.lease =
      some lease.task := by
  have hmem := Trace.mem_deliveries_of_lease (Trace.run_tracked limits calls) howns.1
  have htoken := (Trace.run_wellFormed limits calls).lease_token howns.1
  have hfound := delivery?_of_mem limits calls hmem
  rw [htoken, ← howns.2] at hfound
  exact delivery?_concat hfound exchange

/-! ### What a broker keeps of them -/

lemma keepLast_keepLast_concat {α : Type} (count : Nat) (items : List α) (item : α) :
    keepLast count (keepLast count items ++ [item]) = keepLast count (items ++ [item]) := by
  unfold keepLast
  rw [← List.drop_append_of_le_length (Nat.sub_le _ _), List.drop_drop]
  congr 1
  simp only [List.length_drop, List.length_append, List.length_singleton]
  omega

lemma keepLast_suffix {α : Type} (count : Nat) (items : List α) :
    keepLast count items <:+ items ∧ (keepLast count items).length = min count items.length := by
  refine ⟨List.drop_suffix _ _, ?_⟩
  rw [keepLast, List.length_drop]
  omega

/-- How a broker keeps the records of one kind of report: each accepted report adds the record of
the claim that it names and drops the oldest beyond a limit, and nothing else changes them. -/
structure Keeps (kind : Exchange → Option (Task × (Task → Task))) (kept : Broker → List Task)
    (limit : BrokerLimits → Nat) : Prop where
  start : ∀ limits, kept (empty limits) = []
  reported : ∀ {exchange report mark}, kind exchange = some (report, mark) →
    exchange.reported? = some report ∧ ∀ task, (mark task).id = task.id
  added : ∀ {b call answer next report mark}, Transition b call answer next →
    kind ⟨call, answer⟩ = some (report, mark) → ∃ lease, b.Owns report lease ∧
      kept next = keepLast (limit b.limits) (kept b ++ [mark lease.task])
  unchanged : ∀ {b call answer next}, Transition b call answer next →
    kind ⟨call, answer⟩ = none → kept next = kept b

lemma keeps_completed : Keeps Exchange.completion? (·.completed) (·.completedHistory) where
  start _ := rfl
  reported {exchange report mark} h := by
    unfold Exchange.completion? at h
    split at h
    · cases h
      exact ⟨rfl, fun _ => rfl⟩
    · cases h
  added := by
    intro b call answer next report mark htransition h
    cases htransition with
    | acked owns =>
      cases h
      exact ⟨_, owns, rfl⟩
    | disowned => cases call <;> cases h
    | _ => cases h
  unchanged htransition h := by
    cases htransition with
    | acked => cases h
    | unserved => exact recover_completed _ _ _
    | claimed => exact recover_completed _ _ _
    | _ => rfl

lemma keeps_dead : Keeps Exchange.burial? (·.dead) (·.deadLetterHistory) where
  start _ := rfl
  reported {exchange report mark} h := by
    unfold Exchange.burial? at h
    split at h
    · cases h
      exact ⟨rfl, fun _ => rfl⟩
    · cases h
  added := by
    intro b call answer next report mark htransition h
    cases htransition with
    | buried owns =>
      cases h
      exact ⟨_, owns, rfl⟩
    | disowned => cases call <;> cases h
    | _ => cases h
  unchanged htransition h := by
    cases htransition with
    | buried => cases h
    | unserved => exact recover_dead _ _ _
    | claimed => exact recover_dead _ _ _
    | _ => rfl

namespace Keeps

variable {kind : Exchange → Option (Task × (Task → Task))} {kept : Broker → List Task}
  {limit : BrokerLimits → Nat}

/-- One more exchange adds its own record to those of a run: what the earlier reports looked up they
find again. -/
lemma records_extend (h : Keeps kind kept limit) (limits : BrokerLimits) (calls : List Call)
    (call : Call) :
    ((Trace.run limits calls).extend call).history.records kind =
      (Trace.run limits calls).history.records kind ++
        (((Trace.run limits calls).extend call).history.record? kind
          ⟨call, ((Trace.run limits calls).broker.serve call).1⟩).toList := by
  unfold History.records
  rw [Trace.filterMap_extend]
  refine congrArg (· ++ _) (List.filterMap_congr fun exchange hexchange => ?_)
  unfold History.record?
  cases hkind : kind exchange with
  | none => rfl
  | some closed =>
    obtain ⟨report, mark⟩ := closed
    have hreported : report ∈ (Trace.run limits calls).history.reported :=
      List.mem_filterMap.mpr ⟨exchange, hexchange, (h.reported hkind).1⟩
    have hmem := History.mem_spent_of_reported hreported
    obtain ⟨⟨task, htask, hlease, -⟩, -⟩ := (Trace.run_spent limits calls).1 report hmem
    have hfound := delivery?_of_mem limits calls htask
    rw [hlease] at hfound
    simp only [Option.bind_some, hfound, Trace.extend, delivery?_concat hfound]

/-- What a broker keeps of some kind of report is the end of all their records. -/
theorem run_kept (h : Keeps kind kept limit) (limits : BrokerLimits) (calls : List Call) :
    kept (Trace.run limits calls).broker =
        keepLast (limit limits) ((Trace.run limits calls).history.records kind) ∧
      ((Trace.run limits calls).history.records kind).map (·.id) =
        ((Trace.run limits calls).history.filterMap fun exchange =>
          (kind exchange).map (·.1)).map (·.id) := by
  induction calls using List.reverseRecOn with
  | nil => exact ⟨(h.start limits).trans List.drop_nil.symm, rfl⟩
  | append_singleton calls call ih =>
    obtain ⟨hkept, hids⟩ := ih
    have htransition := (Trace.run limits calls).transition call
    rw [Trace.run_concat, h.records_extend, Trace.filterMap_extend, List.map_append,
      List.map_append, hids]
    unfold History.record?
    cases hkind : kind ⟨call, ((Trace.run limits calls).broker.serve call).1⟩ with
    | none =>
      rw [h.unchanged htransition hkind, hkept]
      simp
    | some closed =>
      obtain ⟨report, mark⟩ := closed
      obtain ⟨lease, howns, hadded⟩ := h.added htransition hkind
      have hid : (mark lease.task).id = report.id :=
        ((h.reported hkind).2 lease.task).trans
          ((Trace.run_wellFormed limits calls).lease_id howns.1)
      have hlookup := delivery?_of_owns limits calls
        ⟨call, ((Trace.run limits calls).broker.serve call).1⟩ howns
      rw [hadded, hkept, Trace.run_limits]
      simp only [Trace.extend, Option.bind_some, hlookup, Option.map_some, Option.toList_some,
        keepLast_keepLast_concat, List.map_cons, List.map_nil, hid, and_self]

end Keeps

/-! ## Conservation -/

/-- What it means that no task was lost or duplicated on the way to a broker. -/
structure Conserves (limits : BrokerLimits) (trace : Trace) : Prop where
  /-- Every accepted submission has ended, is held, or was lost when whoever reported crashed. -/
  account : ∀ id, occurrences id trace.history.enqueued =
    occurrences id trace.history.acked + occurrences id trace.history.deadLettered +
      occurrences id trace.history.crashed + trace.broker.holdings id
  /-- A task is lost only in a program that was built with checks, and only from a claim on a task
  whose count is at its end. -/
  lost : ∀ report ∈ trace.history.crashed, limits.overflow = .crashes ∧
    ∃ task ∈ trace.history.deliveries, task.id = report.id ∧ task.lease = report.lease ∧
      task.retryCount = greatestCount
  /-- An id that is held is held by one entry or by one claim, and never by both. -/
  once : ∀ id, trace.broker.holdings id = if trace.broker.holds id then 1 else 0
  /-- The tasks that wait, due or not, are those of all queues. -/
  waiting : ∀ now, (trace.broker.stats now).pending + (trace.broker.stats now).scheduled =
    ∑ queue ∈ (Table.names trace.broker.queues).toFinset, trace.broker.size queue
  /-- Queues that the broker does not know are empty. -/
  unknown : ∀ queue, queue ∉ (Table.names trace.broker.queues).toFinset →
    trace.broker.size queue = 0
  /-- The waiting and the claimed tasks are the accepted ones that have not ended and were not
  lost. -/
  unfinished : ∀ now, trace.history.enqueued.length =
    trace.history.acked.length + trace.history.deadLettered.length +
      trace.history.crashed.length + ((trace.broker.stats now).pending +
        (trace.broker.stats now).scheduled + (trace.broker.stats now).inFlight)
  /-- The completed tasks are the last of those that were reported as done, each as its claim had
  returned it. -/
  completed : trace.broker.completed <:+ trace.history.records Exchange.completion? ∧
    (trace.history.records Exchange.completion?).map (·.id) = trace.history.acked.map (·.id) ∧
    trace.broker.completed.length = min limits.completedHistory trace.history.acked.length
  /-- The dead letters are the last of those that were reported as failed for good, each as its
  claim had returned it. -/
  dead : trace.broker.dead <:+ trace.history.records Exchange.burial? ∧
    (trace.history.records Exchange.burial?).map (·.id) =
      trace.history.deadLettered.map (·.id) ∧
    trace.broker.dead.length = min limits.deadLetterHistory trace.history.deadLettered.length

/-- What is kept of a list of records, when they are as many as the reports. -/
lemma keepLast_of_ids {kept records reports : List Task} {limit : Nat}
    (hkept : kept = keepLast limit records) (hids : records.map (·.id) = reports.map (·.id)) :
    kept <:+ records ∧ records.map (·.id) = reports.map (·.id) ∧
      kept.length = min limit reports.length := by
  obtain ⟨hsuffix, hlength⟩ := keepLast_suffix limit records
  have hcount := congrArg List.length hids
  rw [List.length_map, List.length_map] at hcount
  rw [hkept]
  exact ⟨hsuffix, hids, hcount ▸ hlength⟩

lemma acked?_eq (exchange : Exchange) : exchange.acked? = exchange.completion?.map (·.1) := by
  unfold Exchange.acked? Exchange.completion?
  split <;> simp

lemma deadLettered?_eq (exchange : Exchange) :
    exchange.deadLettered? = exchange.burial?.map (·.1) := by
  unfold Exchange.deadLettered? Exchange.burial?
  split <;> simp

/-- **No task is lost or duplicated.**  Whatever is called on a new broker, in any order and with
any arguments, every accepted submission of an id has ended in an accepted report that it is done or
that it failed for good, or it is held, once; unless its last retry could not be counted and crashed
whoever reported it. -/
theorem run_conserves (limits : BrokerLimits) (calls : List Call) :
    Conserves limits (Trace.run limits calls) where
  account id := by
    rw [(Trace.run_wellFormed limits calls).holdings_eq_count]
    exact count_enqueued limits calls id
  lost _ := mem_crashed limits calls
  once := (Trace.run_wellFormed limits calls).holdings_eq
  waiting now := by
    rw [pending_add_scheduled, (Trace.run_wellFormed limits calls).length_allEntries]
  unknown queue h := size_eq_zero _ fun hmem => h (List.mem_toFinset.mpr hmem)
  unfinished now := by
    have hlength := (enqueued_perm limits calls).length_eq
    simp only [List.length_append, List.length_map] at hlength
    rw [hlength, length_heldIds _ now]
  completed := by
    obtain ⟨hkept, hids⟩ := keeps_completed.run_kept limits calls
    simp only [← acked?_eq] at hids
    exact keepLast_of_ids hkept hids
  dead := by
    obtain ⟨hkept, hids⟩ := keeps_dead.run_kept limits calls
    simp only [← deadLettered?_eq] at hids
    exact keepLast_of_ids hkept hids

/-- A letter whose count of retries is at its end is submitted, claimed and reported once more: it
was accepted once, it has not ended, and the broker does not hold it. -/
theorem worn_letter_lost :
    occurrences "a" (Trace.run checkedLimits (wornCalls ++ [lastRetry])).history.enqueued = 1 ∧
      occurrences "a" (Trace.run checkedLimits (wornCalls ++ [lastRetry])).history.acked = 0 ∧
      occurrences "a"
        (Trace.run checkedLimits (wornCalls ++ [lastRetry])).history.deadLettered = 0 ∧
      (Trace.run checkedLimits (wornCalls ++ [lastRetry])).broker.holdings "a" = 0 := by
  decide +kernel

end Broker
end WorkQueue
