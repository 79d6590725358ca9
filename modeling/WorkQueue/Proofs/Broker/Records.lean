import WorkQueue.Proofs.Broker.Conservation

/-!
# The records of a broker

A broker keeps a record of a task in one of four places: in a queue, under a claim, among the dead
letters or among the completed tasks.  `Transition.mem_records` says where the records after a call
come from: each is that of an earlier record, except for a task that was accepted and for one that
is tried again.  No call but the report that a task is to be tried again touches a retry count, and
none touches a budget.

If clients never use an id twice (`History.Fresh`), an id has one record at most
(`records_nodup`), and a task that has ended is never delivered again (`not_delivered_again`).
-/

namespace WorkQueue

/-- The id of a task, how often it was retried and how often it may be. -/
def Task.budget (task : Task) : String × UInt32 × UInt32 :=
  (task.id, task.retryCount, task.maxRetry)

namespace Broker

variable {b next : Broker} {call : Call} {answer : Answer} {record task : Task} {id : String}

/-! ## The four places -/

/-- All records that a broker keeps. -/
def records (b : Broker) : List Task :=
  b.allEntries.map (·.task) ++ b.leases.map (·.2.task) ++ (b.dead ++ b.completed)

lemma mem_records : record ∈ b.records ↔
    (∃ entry ∈ b.allEntries, entry.task = record) ∨ (∃ item ∈ b.leases, item.2.task = record) ∨
      record ∈ b.dead ∨ record ∈ b.completed := by
  simp [records]

/-- The record that a broker shows of an id is one that it keeps. -/
lemma mem_records_of_get (hb : b.WellFormed) (h : b.get id = .ok record) :
    record ∈ b.records ∧ record.id = id := by
  unfold get at h
  simp only at h
  split at h
  · next found hfound =>
    cases h
    rw [mem_records]
    rcases Option.or_eq_some_iff.mp hfound with hlease | ⟨-, hfound⟩
    · obtain ⟨lease, hget, rfl⟩ := Option.map_eq_some_iff.mp hlease
      exact ⟨.inr (.inl ⟨_, Table.mem_of_get? hget, rfl⟩), hb.lease_id hget⟩
    rcases Option.or_eq_some_iff.mp hfound with hqueued | ⟨-, hfound⟩
    · simp only [queued?, Option.bind_eq_bind, Option.bind_eq_some_iff] at hqueued
      obtain ⟨queue, -, entry, hentry, hrecord⟩ := hqueued
      cases hrecord
      have hmem := (mem_allEntries hb.queues_sorted).mpr ⟨queue, List.mem_of_find?_eq_some hentry⟩
      have hid := List.find?_some hentry
      exact ⟨.inl ⟨entry, hmem, rfl⟩, by simpa using hid⟩
    rcases Option.or_eq_some_iff.mp hfound with hdead | ⟨-, hcompleted⟩
    · have hid := List.find?_some hdead
      exact ⟨.inr (.inr (.inl (List.mem_of_find?_eq_some hdead))), by simpa using hid⟩
    · have hid := List.find?_some hcompleted
      exact ⟨.inr (.inr (.inr (List.mem_of_find?_eq_some hcompleted))), by simpa using hid⟩
  · cases h

lemma get_of_lease {lease : Lease} (h : Table.get? id b.leases = some lease) :
    b.get id = .ok lease.task := by
  simp [get, h]

/-! ## Where records come from -/

lemma mem_records_push (hb : b.WellFormed) {eligibleAt : Instant} :
    record ∈ (b.push task eligibleAt).records ↔ record = task ∨ record ∈ b.records := by
  have hentry : ∀ entry, entry ∈ (b.push task eligibleAt).allEntries ↔
      entry = ⟨task, eligibleAt, b.sequence⟩ ∨ entry ∈ b.allEntries :=
    fun _ => mem_push hb.queues_sorted
  have hleases : (b.push task eligibleAt).leases = b.leases := rfl
  have hdead : (b.push task eligibleAt).dead = b.dead := rfl
  have hcompleted : (b.push task eligibleAt).completed = b.completed := rfl
  simp only [mem_records, hentry, hleases, hdead, hcompleted]
  constructor
  · rintro (⟨entry, rfl | hmem, hrecord⟩ | hrest)
    · exact .inl hrecord.symm
    · exact .inr (.inl ⟨entry, hmem, hrecord⟩)
    · exact .inr (.inr hrest)
  · rintro (rfl | ⟨entry, hmem, hrecord⟩ | hrest)
    · exact .inl ⟨_, .inl rfl, rfl⟩
    · exact .inl ⟨entry, .inr hmem, hrecord⟩
    · exact .inr hrest

lemma mem_records_of_dropLease (h : record ∈ (b.dropLease id).records) : record ∈ b.records := by
  rw [mem_records] at h ⊢
  rcases h with hentry | ⟨item, hitem, hrecord⟩ | hrest
  · exact .inl hentry
  · exact .inr (.inl ⟨item, (Table.mem_erase.mp hitem).1, hrecord⟩)
  · exact .inr (.inr hrest)

lemma mem_records_of_lease {lease : Lease} (h : Table.get? id b.leases = some lease) :
    lease.task ∈ b.records :=
  mem_records.mpr (.inr (.inl ⟨_, Table.mem_of_get? h, rfl⟩))

lemma mem_records_of_keepCompleted (h : record ∈ (b.keepCompleted task).records) :
    record = task ∨ record ∈ b.records := by
  rw [mem_records] at h ⊢
  rcases h with hentry | hlease | hdead | hcompleted
  · exact .inr (.inl hentry)
  · exact .inr (.inr (.inl hlease))
  · exact .inr (.inr (.inr (.inl hdead)))
  · rcases List.mem_append.mp (List.mem_of_mem_drop hcompleted) with hold | hnew
    · exact .inr (.inr (.inr (.inr hold)))
    · exact .inl (List.mem_singleton.mp hnew)

lemma mem_records_of_keepDead (h : record ∈ (b.keepDead task).records) :
    record = task ∨ record ∈ b.records := by
  rw [mem_records] at h ⊢
  rcases h with hentry | hlease | hdead | hcompleted
  · exact .inr (.inl hentry)
  · exact .inr (.inr (.inl hlease))
  · rcases List.mem_append.mp (List.mem_of_mem_drop hdead) with hold | hnew
    · exact .inr (.inr (.inr (.inl hold)))
    · exact .inl (List.mem_singleton.mp hnew)
  · exact .inr (.inr (.inr (.inr hcompleted)))

/-- A task that goes back to its queue keeps its budget, and so do all others. -/
lemma budget_of_requeue (hb : b.WellFormed) {lease : Lease} {now eligibleAt : Instant}
    (hget : Table.get? id b.leases = some lease)
    (h : record ∈ ((b.dropLease id).push (lease.task.markPending now) eligibleAt).records) :
    ∃ old ∈ b.records, record.budget = old.budget := by
  rcases (mem_records_push (hb.dropLease id)).mp h with rfl | hold
  · exact ⟨lease.task, mem_records_of_lease hget, rfl⟩
  · exact ⟨record, mem_records_of_dropLease hold, rfl⟩

lemma budget_of_recover (hb : b.WellFormed) (order : ReturnOrder) (now : Instant)
    (h : record ∈ (b.recover order now).records) :
    ∃ old ∈ b.records, record.budget = old.budget := by
  refine (hb.recover_induction (motive := fun next =>
    ∀ record ∈ next.records, ∃ old ∈ b.records, record.budget = old.budget) order now
    (fun record hrecord => ⟨record, hrecord, rfl⟩) ?_).2 record h
  intro next lease hnext ih hget _ record hrecord
  obtain ⟨middle, hmiddle, hsame⟩ := budget_of_requeue hnext hget hrecord
  obtain ⟨old, hold, hsame'⟩ := ih middle hmiddle
  exact ⟨old, hold, hsame.trans hsame'⟩

lemma budget_of_handOver (hb : b.WellFormed) {queue : String} {entry : QueueEntry}
    {rest : List QueueEntry} (hqueue : b.entries queue = entry :: rest) {now : Instant}
    (h : record ∈ (b.handOver queue entry rest now).records) :
    ∃ old ∈ b.records, record.budget = old.budget := by
  rcases mem_records.mp h with ⟨other, hother, rfl⟩ | ⟨item, hitem, rfl⟩ | hrest
  · have hmem := (mem_handOver hb.queues_sorted hqueue).mpr (.inr hother)
    exact ⟨other.task, mem_records.mpr (.inl ⟨other, hmem, rfl⟩), rfl⟩
  · rcases Table.mem_put hitem with rfl | hitem
    · have hmem := hb.mem_of_entries hqueue
      exact ⟨entry.task, mem_records.mpr (.inl ⟨entry, hmem, rfl⟩), rfl⟩
    · exact ⟨item.2.task, mem_records.mpr (.inr (.inl ⟨item, hitem, rfl⟩)), rfl⟩
  · exact ⟨record, mem_records.mpr (.inr (.inr hrest)), rfl⟩

/-- The records after a call: those of before, as far as their budgets go, and the one of a task
that was accepted or is tried again. -/
theorem Transition.mem_records (h : Transition b call answer next) (hb : b.WellFormed)
    (hrecord : record ∈ next.records) :
    (∃ old ∈ b.records, record.budget = old.budget) ∨
    (∃ task now, call = .enqueue task now ∧ answer = .ok none ∧ record = task.markPending now) ∨
    ∃ report lease delay error now, call = .retry report delay error now ∧
      answer = .ok (some (lease.task.markRetrying error (now.after delay) now)) ∧
      b.Owns report lease ∧
      record = (lease.task.markRetrying error (now.after delay) now).markPending now := by
  cases h with
  | turnedAway => exact .inl ⟨record, hrecord, rfl⟩
  | enqueued =>
    rcases (mem_records_push hb).mp hrecord with hnew | hold
    · exact .inr (.inl ⟨_, _, rfl, rfl, hnew⟩)
    · exact .inl ⟨record, hold, rfl⟩
  | unserved => exact .inl (budget_of_recover hb _ _ hrecord)
  | claimed first =>
    obtain ⟨middle, hmiddle, hsame⟩ := budget_of_handOver (hb.recover _ _) first hrecord
    obtain ⟨old, hold, hsame'⟩ := budget_of_recover hb _ _ hmiddle
    exact .inl ⟨old, hold, hsame.trans hsame'⟩
  | disowned => exact .inl ⟨record, hrecord, rfl⟩
  | acked owns =>
    rcases mem_records_of_keepCompleted hrecord with rfl | hold
    · exact .inl ⟨_, mem_records_of_lease owns.1, rfl⟩
    · exact .inl ⟨record, mem_records_of_dropLease hold, rfl⟩
  | retried owns =>
    rcases (mem_records_push (hb.dropLease _)).mp hrecord with hnew | hold
    · exact .inr (.inr ⟨_, _, _, _, _, rfl, rfl, owns, hnew⟩)
    · exact .inl ⟨record, mem_records_of_dropLease hold, rfl⟩
  | crashed => exact .inl ⟨record, mem_records_of_dropLease hrecord, rfl⟩
  | buried owns =>
    rcases mem_records_of_keepDead hrecord with rfl | hold
    · exact .inl ⟨_, mem_records_of_lease owns.1, rfl⟩
    · exact .inl ⟨record, mem_records_of_dropLease hold, rfl⟩
  | released owns => exact .inl (budget_of_requeue hb owns.1 hrecord)

lemma Transition.held_of_delivered (h : Transition b call answer next) (hb : b.WellFormed)
    (hdelivered : Exchange.delivered? ⟨call, answer⟩ = some task) : task.id ∈ b.heldIds := by
  cases h with
  | @claimed order _ _ now queue entry rest first =>
    cases hdelivered
    have hentry := (hb.recover order now).mem_of_entries first
    have hheld : entry.task.id ∈ (b.recover order now).heldIds :=
      List.mem_append_left _ (mem_queuedIds.mpr ⟨entry, hentry, rfl⟩)
    exact (hb.heldIds_recover order now).mem_iff.mp hheld
  | disowned isReport =>
    rw [Exchange.delivered?_of_report isReport] at hdelivered
    cases hdelivered
  | _ => cases hdelivered

/-! ## Fresh ids -/

/-- Whether clients behave: they submit tasks that were never retried, and use no id twice. -/
structure History.Fresh (history : History) : Prop where
  unretried : ∀ task ∈ history.enqueued, task.retryCount = 0
  ids_nodup : (history.enqueued.map (·.id)).Nodup

lemma History.Fresh.of_extend {trace : Trace} (h : (trace.extend call).history.Fresh) :
    trace.history.Fresh := by
  obtain ⟨hunretried, hids⟩ := h
  rw [History.enqueued, Trace.filterMap_extend] at hunretried hids
  rw [List.map_append] at hids
  exact ⟨fun task htask => hunretried task (List.mem_append_left _ htask), hids.of_append_left⟩

lemma History.Fresh.occurrences_le {history : History} (h : history.Fresh) (id : String) :
    occurrences id history.enqueued ≤ 1 :=
  List.nodup_iff_count_le_one.mp h.ids_nodup id

lemma occurrences_pos {tasks : List Task} (h : task ∈ tasks) : 0 < occurrences task.id tasks :=
  List.count_pos_iff.mpr (List.mem_map_of_mem h)

section Run

variable {limits : BrokerLimits} {calls : List Call}

/-- What is held was submitted. -/
lemma enqueued_of_held (h : id ∈ (Trace.run limits calls).broker.heldIds) :
    id ∈ (Trace.run limits calls).history.enqueued.map (·.id) := by
  have hcount := count_enqueued limits calls id
  have hheld := List.count_pos_iff.mpr h
  exact List.count_pos_iff.mp (by unfold occurrences at hcount; omega)

/-- A task that has ended is not held, if its id was used once. -/
lemma not_held_of_ended (hfresh : (Trace.run limits calls).history.Fresh)
    (h : task ∈ (Trace.run limits calls).history.acked ∨
      task ∈ (Trace.run limits calls).history.deadLettered) :
    task.id ∉ (Trace.run limits calls).broker.heldIds := by
  intro hheld
  have hcount := count_enqueued limits calls task.id
  have honce := hfresh.occurrences_le task.id
  have hpos := List.count_pos_iff.mpr hheld
  rcases h with h | h
  · have hacked := occurrences_pos h
    omega
  · have hdead := occurrences_pos h
    omega

/-- An id has one record at most. -/
lemma records_nodup (hfresh : (Trace.run limits calls).history.Fresh) :
    ((Trace.run limits calls).broker.records.map (·.id)).Nodup := by
  have hb := Trace.run_wellFormed limits calls
  obtain ⟨hcompleted, hcompletedIds⟩ := keeps_completed.run_kept limits calls
  obtain ⟨hdead, hdeadIds⟩ := keeps_dead.run_kept limits calls
  simp only [← acked?_eq] at hcompletedIds
  simp only [← deadLettered?_eq] at hdeadIds
  have hcompletedSub : ((Trace.run limits calls).broker.completed.map (·.id)).Sublist
      ((Trace.run limits calls).history.acked.map (·.id)) := by
    rw [hcompleted, History.acked, ← hcompletedIds]
    exact (List.drop_sublist _ _).map _
  have hdeadSub : ((Trace.run limits calls).broker.dead.map (·.id)).Sublist
      ((Trace.run limits calls).history.deadLettered.map (·.id)) := by
    rw [hdead, History.deadLettered, ← hdeadIds]
    exact (List.drop_sublist _ _).map _
  rw [List.nodup_iff_count_le_one]
  intro id
  have hheld : (Trace.run limits calls).broker.heldIds =
      (Trace.run limits calls).broker.allEntries.map (·.task.id) ++
        (Trace.run limits calls).broker.leases.map (·.2.task.id) := by
    rw [hb.lease_ids]
    rfl
  have hcount := count_enqueued limits calls id
  have honce := hfresh.occurrences_le id
  have hacked := hcompletedSub.count_le id
  have hburied := hdeadSub.count_le id
  rw [hheld, List.count_append] at hcount
  simp only [records, List.map_append, List.map_map, List.count_append]
  unfold occurrences at hcount honce
  simp only [Function.comp_def]
  omega

/-- What was delivered was submitted. -/
lemma enqueued_of_delivered (h : task ∈ (Trace.run limits calls).history.deliveries) :
    task.id ∈ (Trace.run limits calls).history.enqueued.map (·.id) := by
  induction calls using List.reverseRecOn with
  | nil => cases h
  | append_singleton calls call ih =>
    rw [Trace.run_concat, History.deliveries, Trace.filterMap_extend] at h
    rw [Trace.run_concat, History.enqueued, Trace.filterMap_extend, List.map_append]
    refine List.mem_append_left _ ?_
    rcases List.mem_append.mp h with h | h
    · exact ih h
    · have hdelivered := Option.mem_toList.mp h
      exact enqueued_of_held (((Trace.run limits calls).transition call).held_of_delivered
        (Trace.run_wellFormed limits calls) hdelivered)

/-- What was tried again was submitted. -/
lemma enqueued_of_retried (h : task ∈ (Trace.run limits calls).history.retried) :
    task.id ∈ (Trace.run limits calls).history.enqueued.map (·.id) := by
  obtain ⟨⟨call, answer⟩, hexchange, hretried⟩ := List.mem_filterMap.mp h
  have hreported : Exchange.reported? ⟨call, answer⟩ = some task := by
    unfold Exchange.retried? at hretried
    split at hretried
    · next heq =>
      cases heq
      exact hretried
    · cases hretried
  have hmem : task ∈ (Trace.run limits calls).history.reported :=
    List.mem_filterMap.mpr ⟨_, hexchange, hreported⟩
  have hspent := History.mem_spent_of_reported hmem
  obtain ⟨⟨delivered, hdelivered, -, hid⟩, -⟩ := (Trace.run_spent limits calls).1 task hspent
  exact hid ▸ enqueued_of_delivered hdelivered

/-- A task that was reported as done or as failed for good is never delivered again. -/
theorem not_delivered_again (hfresh : (Trace.run limits calls).history.Fresh)
    {before after : History} {exchange : Exchange}
    (hsplit : (Trace.run limits calls).history = before ++ exchange :: after) {report : Task}
    (hended : exchange.acked? = some report ∨ exchange.deadLettered? = some report) :
    ∀ task ∈ History.deliveries after, task.id ≠ report.id := by
  induction calls using List.reverseRecOn generalizing after with
  | nil => simp [Trace.run, Trace.start] at hsplit
  | append_singleton calls call ih =>
    rw [Trace.run_concat] at hfresh hsplit
    intro task htask
    rcases List.eq_nil_or_concat' after with rfl | ⟨after, last, rfl⟩
    · cases htask
    rw [Trace.extend, ← List.cons_append, ← List.append_assoc] at hsplit
    obtain ⟨hinit, hlast⟩ := List.append_inj' hsplit rfl
    rw [History.deliveries, List.filterMap_append] at htask
    rcases List.mem_append.mp htask with htask | htask
    · exact ih hfresh.of_extend hinit task htask
    · cases hlast
      have hdelivered : Exchange.delivered?
          ⟨call, ((Trace.run limits calls).broker.serve call).1⟩ = some task := by
        simpa using htask
      have hheld := ((Trace.run limits calls).transition call).held_of_delivered
        (Trace.run_wellFormed limits calls) hdelivered
      have hmem : exchange ∈ (Trace.run limits calls).history := by
        rw [hinit]
        exact List.mem_append_right _ List.mem_cons_self
      intro hid
      refine not_held_of_ended hfresh.of_extend ?_ (hid ▸ hheld)
      exact hended.imp (fun h => List.mem_filterMap.mpr ⟨exchange, hmem, h⟩)
        fun h => List.mem_filterMap.mpr ⟨exchange, hmem, h⟩

end Run

end Broker
end WorkQueue
