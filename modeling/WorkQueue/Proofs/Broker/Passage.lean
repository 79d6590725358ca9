import WorkQueue.Proofs.Broker.Claims

/-!
# The way of one task

A broker holds a task in a queue or under a claim, or not at all.  `holding` says which, and as what
it holds the task; everything else that the broker keeps is left out.  Seen like this, a call does
one of nine things to a task, and `Passage` lists them with the exchange that shows each: most calls
leave the task aside, a claim can put it back without returning it, and the others name it.

`Transition.passage` says that there is no other way.  What is said of one task along a run is
proved by cases on it, without a word about queues, indices and claims.
-/

namespace WorkQueue

/-- The task as a claim with a token hands it out. -/
def Task.underClaim (task : Task) (token : Nat) (now : Instant) : Task :=
  { task.markRunning now with lease := some token }

namespace Broker

variable {b next : Broker} {task : Task} {entry : QueueEntry} {rest : List QueueEntry}
  {queue id other : String} {now eligibleAt : Instant} {lease : Lease} {call : Call}
  {answer : Answer}

/-! ## Where a task is held -/

/-- Where a broker holds a task, and as what. -/
inductive Holding where
  | nowhere
  | queued (task : Task)
  | claimed (task : Task)

/-- Where a broker holds the task with an id. -/
def holding (b : Broker) (id : String) : Holding :=
  match Table.get? id b.leases with
  | some lease => .claimed lease.task
  | none =>
    match b.allEntries.find? fun entry => decide (entry.task.id = id) with
    | some entry => .queued entry.task
    | none => .nowhere

lemma holding_of_lease (hget : Table.get? id b.leases = some lease) :
    b.holding id = .claimed lease.task := by
  simp only [holding, hget]

lemma holding_of_entry (hb : b.WellFormed) (hentry : entry ∈ b.allEntries)
    (hid : entry.task.id = id) : b.holding id = .queued entry.task := by
  subst hid
  have hfind : b.allEntries.find? (fun other => decide (other.task.id = entry.task.id)) =
      some entry := by
    cases hfound : b.allEntries.find? fun other => decide (other.task.id = entry.task.id) with
    | none =>
      rw [List.find?_eq_none] at hfound
      simpa using hfound entry hentry
    | some other =>
      have hmem := List.mem_of_find?_eq_some hfound
      have hsame := List.find?_some hfound
      rw [hb.entry_inj hmem hentry (by simpa using hsame)]
  simp only [holding, hb.lease_none hentry, hfind]

lemma holding_of_not_held (h : id ∉ b.heldIds) : b.holding id = .nowhere := by
  rw [heldIds, List.mem_append, not_or] at h
  obtain ⟨hqueued, hclaimed⟩ := h
  have hlease : Table.get? id b.leases = none := by
    cases hget : Table.get? id b.leases with
    | none => rfl
    | some lease => exact absurd (mem_names_leases.mpr ⟨lease, hget⟩) hclaimed
  have hfind : b.allEntries.find? (fun other => decide (other.task.id = id)) = none := by
    rw [List.find?_eq_none]
    intro entry hentry hid
    exact hqueued (mem_queuedIds.mpr ⟨entry, hentry, by simpa using hid⟩)
  simp only [holding, hlease, hfind]

/-- A task is under a claim, in a queue, or not held. -/
lemma holding_cases (hb : b.WellFormed) (id : String) :
    (∃ lease, Table.get? id b.leases = some lease ∧ b.holding id = .claimed lease.task) ∨
    (∃ entry ∈ b.allEntries, entry.task.id = id ∧ b.holding id = .queued entry.task) ∨
    (id ∉ b.heldIds ∧ b.holding id = .nowhere) := by
  by_cases hheld : id ∈ b.heldIds
  · rcases List.mem_append.mp hheld with hqueued | hclaimed
    · obtain ⟨entry, hentry, hid⟩ := mem_queuedIds.mp hqueued
      exact .inr (.inl ⟨entry, hentry, hid, holding_of_entry hb hentry hid⟩)
    · obtain ⟨lease, hget⟩ := mem_names_leases.mp hclaimed
      exact .inl ⟨lease, hget, holding_of_lease hget⟩
  · exact .inr (.inr ⟨hheld, holding_of_not_held hheld⟩)

lemma not_held_of_nowhere (hb : b.WellFormed) (h : b.holding id = .nowhere) : id ∉ b.heldIds := by
  rcases holding_cases hb id with ⟨lease, -, hclaimed⟩ | ⟨entry, -, -, hqueued⟩ | ⟨hnone, -⟩
  · rw [h] at hclaimed
    cases hclaimed
  · rw [h] at hqueued
    cases hqueued
  · exact hnone

lemma lease_of_claimed (hb : b.WellFormed) (h : b.holding id = .claimed task) :
    ∃ lease, Table.get? id b.leases = some lease ∧ lease.task = task := by
  rcases holding_cases hb id with ⟨lease, hget, hclaimed⟩ | ⟨entry, -, -, hqueued⟩ | ⟨-, hnone⟩
  · rw [h] at hclaimed
    cases hclaimed
    exact ⟨lease, hget, rfl⟩
  · rw [h] at hqueued
    cases hqueued
  · rw [h] at hnone
    cases hnone

/-- Where a task is held depends on the claim on it and on the entries with its id alone. -/
lemma holding_congr (hb : b.WellFormed) (hnext : next.WellFormed)
    (hleases : Table.get? id next.leases = Table.get? id b.leases)
    (hentries : ∀ entry : QueueEntry, entry.task.id = id →
      (entry ∈ next.allEntries ↔ entry ∈ b.allEntries)) : next.holding id = b.holding id := by
  rcases holding_cases hb id with ⟨lease, hget, hclaimed⟩ | ⟨entry, hentry, hid, hqueued⟩ |
    ⟨hfree, hnone⟩
  · rw [hclaimed]
    exact holding_of_lease (hleases.trans hget)
  · rw [hqueued]
    exact holding_of_entry hnext ((hentries entry hid).mpr hentry) hid
  · rw [hnone]
    refine holding_of_not_held fun hheld => hfree ?_
    rcases List.mem_append.mp hheld with hqueued | hclaimed
    · obtain ⟨entry, hentry, hid⟩ := mem_queuedIds.mp hqueued
      exact List.mem_append_left _ (mem_queuedIds.mpr ⟨entry, (hentries entry hid).mp hentry, hid⟩)
    · obtain ⟨lease, hget⟩ := mem_names_leases.mp hclaimed
      exact List.mem_append_right _ (mem_names_leases.mpr ⟨lease, hleases ▸ hget⟩)

/-! ## What the moves do to where a task is held -/

lemma holding_push (hb : b.WellFormed) (hfresh : task.id ∉ b.heldIds) (id : String) :
    (b.push task eligibleAt).holding id =
      if task.id = id then .queued task else b.holding id := by
  have hmem : ∀ entry, entry ∈ (b.push task eligibleAt).allEntries ↔
      entry = ⟨task, eligibleAt, b.sequence⟩ ∨ entry ∈ b.allEntries :=
    fun _ => mem_push hb.queues_sorted
  split
  · next hid =>
    have hentry : ⟨task, eligibleAt, b.sequence⟩ ∈ (b.push task eligibleAt).allEntries :=
      (hmem _).mpr (.inl rfl)
    exact holding_of_entry (hb.push hfresh) hentry hid
  · next hid =>
    refine holding_congr hb (hb.push hfresh) rfl fun entry hentry => ?_
    rw [hmem]
    refine or_iff_right ?_
    rintro rfl
    exact hid hentry

lemma holding_dropLease (hb : b.WellFormed) (hget : Table.get? other b.leases = some lease)
    (id : String) :
    (b.dropLease other).holding id = if other = id then .nowhere else b.holding id := by
  split
  · next hid =>
    exact holding_of_not_held (hid ▸ hb.not_mem_heldIds_dropLease hget)
  · next hid =>
    refine holding_congr hb (hb.dropLease other) ?_ fun _ _ => Iff.rfl
    rw [WellFormed.get?_dropLease, if_neg hid]

lemma holding_requeue (hb : b.WellFormed) (hget : Table.get? other b.leases = some lease)
    (task : Task) (hother : task.id = other) (id : String) :
    ((b.dropLease other).push task eligibleAt).holding id =
      if other = id then .queued task else b.holding id := by
  have hfree : task.id ∉ (b.dropLease other).heldIds := by
    rw [hother]
    exact hb.not_mem_heldIds_dropLease hget
  rw [holding_push (hb.dropLease other) hfree, holding_dropLease hb hget, hother]
  split <;> rfl

/-- A lapsed claim becomes a place in the queue, and nothing else changes. -/
lemma holding_recover (hb : b.WellFormed) (order : ReturnOrder) (now : Instant) (id : String) :
    (b.recover order now).holding id = b.holding id ∨
      ∃ task, b.holding id = .claimed task ∧
        (b.recover order now).holding id = .queued (task.markPending now) := by
  refine (hb.recover_induction (motive := fun next => next.holding id = b.holding id ∨
    ∃ task, b.holding id = .claimed task ∧ next.holding id = .queued (task.markPending now))
    order now (.inl rfl) ?_).2
  intro next lease hnext ih hget _
  have hgive : (giveBack now next lease).holding id =
      if lease.task.id = id then .queued (lease.task.markPending now) else next.holding id :=
    holding_requeue hnext hget (lease.task.markPending now) rfl id
  by_cases hid : lease.task.id = id
  · subst hid
    rw [if_pos rfl] at hgive
    have hclaimed := holding_of_lease hget
    rcases ih with hsame | ⟨task, -, hqueued⟩
    · exact .inr ⟨lease.task, hsame.symm.trans hclaimed, hgive⟩
    · rw [hclaimed] at hqueued
      cases hqueued
  · rw [if_neg hid] at hgive
    rw [hgive]
    exact ih

lemma holding_handOver (hb : b.WellFormed) (hqueue : b.entries queue = entry :: rest)
    (now : Instant) (id : String) :
    (b.handOver queue entry rest now).holding id =
      if entry.task.id = id then .claimed (b.delivery entry now) else b.holding id := by
  have hget := WellFormed.get?_handOver b queue id entry rest now
  split
  · next hid =>
    rw [if_pos hid] at hget
    exact holding_of_lease hget
  · next hid =>
    rw [if_neg hid] at hget
    refine holding_congr hb (hb.handOver hqueue now) hget fun other hother => ?_
    rw [mem_handOver hb.queues_sorted hqueue]
    refine (or_iff_right ?_).symm
    rintro rfl
    exact hid hother

/-! ## What a call can do to a task -/

/-- Whether an exchange says nothing of a task: it is no accepted submission of it, no claim that
returned it, and no report that took a claim on it off. -/
structure Exchange.Silent (exchange : Exchange) (id : String) : Prop where
  enqueued : ∀ task, exchange.enqueued? = some task → task.id ≠ id
  delivered : ∀ task, exchange.delivered? = some task → task.id ≠ id
  spent : ∀ task, exchange.spent? = some task → task.id ≠ id

/-- What a call can do to the task with an id: where it was held, the call and its answer, and where
it is held afterwards; `overflow` says what becomes of a count at its end. -/
inductive Passage (overflow : Overflow) (id : String) : Holding → Exchange → Holding → Prop
  | aside {holding : Holding} {exchange : Exchange} (silent : exchange.Silent id) :
      Passage overflow id holding exchange holding
  /-- A claim finds the claim on it lapsed, and does not return it. -/
  | lapsed {task : Task} {now : Instant} {exchange : Exchange} (silent : exchange.Silent id) :
      Passage overflow id (.claimed task) exchange (.queued (task.markPending now))
  | enqueued {task : Task} {now : Instant} (same : task.id = id) :
      Passage overflow id .nowhere ⟨.enqueue task now, .ok none⟩ (.queued (task.markPending now))
  | delivered {task : Task} {order : ReturnOrder} {weights : QueueWeights} {words : List UInt32}
      {now : Instant} (token : Nat) (same : task.id = id) :
      Passage overflow id (.queued task)
        ⟨.claim order weights words now, .ok (some (task.underClaim token now))⟩
        (.claimed (task.underClaim token now))
  /-- A claim finds the claim on it lapsed, and returns it again. -/
  | redelivered {task : Task} {order : ReturnOrder} {weights : QueueWeights} {words : List UInt32}
      {now : Instant} (token : Nat) (same : task.id = id) :
      Passage overflow id (.claimed task)
        ⟨.claim order weights words now,
          .ok (some ((task.markPending now).underClaim token now))⟩
        (.claimed ((task.markPending now).underClaim token now))
  | acked {task report : Task} {now : Instant} (same : report.id = id)
      (named : report.lease = task.lease) :
      Passage overflow id (.claimed task) ⟨.ack report now, .ok none⟩ .nowhere
  | retried {task report : Task} {delay : Duration} {error : String} {now : Instant}
      (same : report.id = id) (named : report.lease = task.lease)
      (counted : task.overflows overflow = false) :
      Passage overflow id (.claimed task)
        ⟨.retry report delay error now, .ok (some (task.markRetrying error (now.after delay) now))⟩
        (.queued ((task.markRetrying error (now.after delay) now).markPending now))
  /-- Whoever reports crashes, because the retry cannot be counted. -/
  | crashed {task report : Task} {delay : Duration} {error : String} {now : Instant}
      (same : report.id = id) (named : report.lease = task.lease)
      (uncounted : task.overflows overflow = true) :
      Passage overflow id (.claimed task) ⟨.retry report delay error now, .crashed⟩ .nowhere
  | buried {task report : Task} {error : String} {now : Instant} (same : report.id = id)
      (named : report.lease = task.lease) :
      Passage overflow id (.claimed task)
        ⟨.deadLetter report error now, .ok (some (task.markFailed error now))⟩ .nowhere
  | released {task report : Task} {now : Instant} (same : report.id = id)
      (named : report.lease = task.lease) :
      Passage overflow id (.claimed task) ⟨.release report now, .ok none⟩
        (.queued (task.markPending now))

namespace Exchange

lemma silent_of_refused {error : QueueError} (id : String) : Silent ⟨call, .error error⟩ id where
  enqueued task h := by cases call <;> cases h
  delivered task h := by cases call <;> cases h
  spent task h := by cases h

lemma silent_enqueued {result : Option Task} (h : task.id ≠ id) :
    Silent ⟨.enqueue task now, .ok result⟩ id where
  enqueued _ hsame := by cases hsame; exact h
  delivered _ hsame := by cases hsame
  spent _ hsame := by cases hsame

lemma silent_delivered {order : ReturnOrder} {weights : QueueWeights} {words : List UInt32}
    (h : task.id ≠ id) : Silent ⟨.claim order weights words now, .ok (some task)⟩ id where
  enqueued _ hsame := by cases hsame
  delivered _ hsame := by cases hsame; exact h
  spent _ hsame := by cases hsame

lemma silent_reported {report : Task} (hreport : call.report? = some report)
    (h : report.id ≠ id) (answer : Answer) : Silent ⟨call, answer⟩ id where
  enqueued _ hsame := by
    cases call with
    | enqueue | claim => cases hreport
    | _ => cases hsame
  delivered _ hsame := by
    rw [delivered?_of_report hreport] at hsame
    cases hsame
  spent other hsame := by
    cases answer with
    | error => cases hsame
    | ok | crashed =>
      have hother : call.report? = some other := hsame
      cases hreport.symm.trans hother
      exact h

end Exchange

/-- A claim hands out the first entry of a queue, after what has lapsed was put back. -/
lemma passage_handOver {order : ReturnOrder} {weights : QueueWeights} {words : List UInt32}
    (hb : b.WellFormed) (first : (b.recover order now).entries queue = entry :: rest)
    (overflow : Overflow) (id : String) :
    Passage overflow id (b.holding id)
      ⟨.claim order weights words now, .ok (some ((b.recover order now).delivery entry now))⟩
      (((b.recover order now).handOver queue entry rest now).holding id) := by
  have hrecovered := hb.recover order now
  have hdelivery : (b.recover order now).delivery entry now =
    entry.task.underClaim ((b.recover order now).nextLease + 1) now := rfl
  rw [holding_handOver hrecovered first, hdelivery]
  split
  · next hid =>
    have hentry := holding_of_entry hrecovered (hrecovered.mem_of_entries first) hid
    rcases holding_recover hb order now id with hsame | ⟨task, hclaimed, hqueued⟩
    · rw [← hsame, hentry]
      exact .delivered _ hid
    · have htask : entry.task = task.markPending now :=
        Holding.queued.inj (hentry.symm.trans hqueued)
      rw [htask] at hid
      rw [hclaimed, htask]
      exact .redelivered _ hid
  · next hid =>
    rcases holding_recover hb order now id with hsame | ⟨task, hclaimed, hqueued⟩
    · rw [hsame]
      exact .aside (Exchange.silent_delivered hid)
    · rw [hclaimed, hqueued]
      exact .lapsed (Exchange.silent_delivered hid)

/-- A report does something to the task under the claim that it names, and leaves the others
aside. -/
lemma Owns.passage {report : Task} {after : Holding} {overflow : Overflow}
    (owns : b.Owns report lease) (hb : b.WellFormed) (hreport : call.report? = some report)
    (hafter : next.holding id = if report.id = id then after else b.holding id)
    (hnamed : report.id = id → report.lease = lease.task.lease →
      Passage overflow id (.claimed lease.task) ⟨call, answer⟩ after) :
    Passage overflow id (b.holding id) ⟨call, answer⟩ (next.holding id) := by
  rw [hafter]
  split
  · next hid =>
    rw [holding_of_lease (hid ▸ owns.1)]
    exact hnamed hid (owns.2.trans (hb.lease_token owns.1).symm)
  · next hid => exact .aside (Exchange.silent_reported hreport hid answer)

/-- Every call does one of these things to a task. -/
theorem Transition.passage (h : Transition b call answer next) (hb : b.WellFormed) (id : String) :
    Passage b.limits.overflow id (b.holding id) ⟨call, answer⟩ (next.holding id) := by
  cases h with
  | turnedAway => exact .aside (Exchange.silent_of_refused id)
  | @enqueued task now fresh _ =>
    have hfresh : (task.markPending now).id ∉ b.heldIds := fun hmem =>
      Bool.false_ne_true (fresh.symm.trans (hb.holds_iff.mpr hmem))
    rw [holding_push hb hfresh]
    split
    · next hid =>
      have hid' : task.id = id := hid
      rw [holding_of_not_held (hid ▸ hfresh)]
      exact .enqueued hid'
    · next hid => exact .aside (Exchange.silent_enqueued hid)
  | @unserved order _ _ now =>
    rcases holding_recover hb order now id with hsame | ⟨task, hclaimed, hqueued⟩
    · rw [hsame]
      exact .aside (Exchange.silent_of_refused id)
    · rw [hclaimed, hqueued]
      exact .lapsed (Exchange.silent_of_refused id)
  | claimed first => exact passage_handOver hb first _ id
  | disowned => exact .aside (Exchange.silent_of_refused id)
  | acked owns => exact owns.passage hb rfl (holding_dropLease hb owns.1 id) .acked
  | @retried report lease delay error now owns counted =>
    have hsame : ((lease.task.markRetrying error (now.after delay) now).markPending now).id =
      report.id := hb.lease_id owns.1
    exact owns.passage hb rfl (holding_requeue hb owns.1 _ hsame id)
      fun hid hnamed => .retried hid hnamed counted
  | crashed owns uncounted =>
    exact owns.passage hb rfl (holding_dropLease hb owns.1 id)
      fun hid hnamed => .crashed hid hnamed uncounted
  | buried owns => exact owns.passage hb rfl (holding_dropLease hb owns.1 id) .buried
  | @released report lease now owns =>
    have hsame : (lease.task.markPending now).id = report.id := hb.lease_id owns.1
    exact owns.passage hb rfl (holding_requeue hb owns.1 _ hsame id) .released

end Broker
end WorkQueue
