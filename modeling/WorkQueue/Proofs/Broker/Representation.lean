import WorkQueue.Proofs.Broker.Claims
import WorkQueue.Proofs.Broker.Order

/-!
# How a broker is represented

A broker keeps four containers and two counters, and each operation trusts a different one of them:
a submission asks the index, a report the claims, a look-up the index and then the queue that it
names.  The main statement, `run_coherent`, says how they fit together after every run: which entry
stands behind a line of the index, whose envelope a claim holds, which stage a task is in by the
place where it is kept, and that no number is given twice.

Most of it is already in `WellFormed` and `Ordered`.  What is new is the stage of a task:
`Staged` ties it to the container, whatever stage and token an envelope claims for itself when it is
submitted.
-/

namespace WorkQueue
namespace Broker

variable {b next : Broker} {task : Task} {entry : QueueEntry} {rest : List QueueEntry}
  {queue id : String} {now eligibleAt : Instant} {lease : Lease} {call : Call} {answer : Answer}

/-! ## Stages -/

/-- The stages of the tasks that a broker keeps, by the place where it keeps them. -/
structure Staged (b : Broker) : Prop where
  queued : ∀ entry ∈ b.allEntries, entry.task.state = .pending ∧ entry.task.lease = none
  claimed : ∀ {id lease}, Table.get? id b.leases = some lease → lease.task.state = .running
  completed : ∀ record ∈ b.completed, record.state = .completed
  dead : ∀ record ∈ b.dead, record.state = .failed

lemma staged_empty (limits : BrokerLimits) : (empty limits).Staged where
  queued := by simp [allEntries, empty]
  claimed := by simp [empty]
  completed := by simp [empty]
  dead := by simp [empty]

namespace Staged

lemma push (h : b.Staged) (hb : b.WellFormed) (task : Task) (now eligibleAt : Instant) :
    (b.push (task.markPending now) eligibleAt).Staged where
  queued := by
    intro entry hentry
    rcases (mem_push hb.queues_sorted).mp hentry with rfl | hentry
    · exact ⟨rfl, rfl⟩
    · exact h.queued entry hentry
  claimed := h.claimed
  completed := h.completed
  dead := h.dead

lemma dropLease (h : b.Staged) (id : String) : (b.dropLease id).Staged where
  queued := h.queued
  claimed hget := h.claimed (WellFormed.get?_of_dropLease hget).2
  completed := h.completed
  dead := h.dead

lemma requeue (h : b.Staged) (hb : b.WellFormed) (id : String) (task : Task)
    (now eligibleAt : Instant) :
    ((b.dropLease id).push (task.markPending now) eligibleAt).Staged :=
  (h.dropLease id).push (hb.dropLease id) task now eligibleAt

lemma recover (h : b.Staged) (hb : b.WellFormed) (order : ReturnOrder) (now : Instant) :
    (b.recover order now).Staged :=
  (hb.recover_induction order now h fun _ lease hnext ih _ _ =>
    ih.requeue hnext lease.task.id lease.task now now).2

lemma handOver (h : b.Staged) (hb : b.WellFormed) (hqueue : b.entries queue = entry :: rest)
    (now : Instant) : (b.handOver queue entry rest now).Staged where
  queued other hother :=
    h.queued other ((mem_handOver hb.queues_sorted hqueue).mpr (.inr hother))
  claimed := by
    intro id lease hget
    rw [WellFormed.get?_handOver] at hget
    split at hget
    · cases hget
      rfl
    · exact h.claimed hget
  completed := h.completed
  dead := h.dead

lemma keepCompleted (h : b.Staged) (hstate : task.state = .completed) :
    (b.keepCompleted task).Staged where
  queued := h.queued
  claimed := h.claimed
  completed := by
    intro record hrecord
    rcases List.mem_append.mp (List.mem_of_mem_drop hrecord) with hold | hnew
    · exact h.completed record hold
    · rwa [List.mem_singleton.mp hnew]
  dead := h.dead

lemma keepDead (h : b.Staged) (hstate : task.state = .failed) : (b.keepDead task).Staged where
  queued := h.queued
  claimed := h.claimed
  completed := h.completed
  dead := by
    intro record hrecord
    rcases List.mem_append.mp (List.mem_of_mem_drop hrecord) with hold | hnew
    · exact h.dead record hold
    · rwa [List.mem_singleton.mp hnew]

end Staged

/-- Every call keeps the stages. -/
lemma Transition.staged (h : Transition b call answer next) (hb : b.WellFormed)
    (hstaged : b.Staged) : next.Staged := by
  cases h with
  | turnedAway => exact hstaged
  | enqueued => exact hstaged.push hb _ _ _
  | unserved => exact hstaged.recover hb _ _
  | claimed first => exact (hstaged.recover hb _ _).handOver (hb.recover _ _) first _
  | disowned => exact hstaged
  | acked => exact (hstaged.dropLease _).keepCompleted rfl
  | retried => exact hstaged.requeue hb _ _ _ _
  | crashed => exact hstaged.dropLease _
  | buried => exact (hstaged.dropLease _).keepDead rfl
  | released => exact hstaged.requeue hb _ _ _ _

theorem Trace.run_staged (limits : BrokerLimits) (calls : List Call) :
    (run limits calls).broker.Staged :=
  run_induction (motive := fun trace => trace.broker.Staged) (staged_empty limits)
    (fun trace call hb _ h => (trace.transition call).staged hb h) calls

/-! ## One item for each name -/

/-- If no two items of a list have the same name, those with the name of an item are that item
alone. -/
lemma filter_eq_singleton {α β : Type} [DecidableEq β] {name : α → β} {items : List α} {item : α}
    (hnames : (items.map name).Nodup) (hitem : item ∈ items) :
    items.filter (fun other => decide (name other = name item)) = [item] := by
  induction items with
  | nil => cases hitem
  | cons first rest ih =>
    obtain ⟨hfirst, hrest⟩ := List.nodup_cons.mp hnames
    rcases List.mem_cons.mp hitem with rfl | hitem
    · have hnone : rest.filter (fun other => decide (name other = name item)) = [] := by
        rw [List.filter_eq_nil_iff]
        intro other hother hname
        exact hfirst (List.mem_map.mpr ⟨other, hother, of_decide_eq_true hname⟩)
      simp [hnone]
    · have hne : name first ≠ name item := fun hname =>
        hfirst (List.mem_map.mpr ⟨item, hitem, hname.symm⟩)
      simp [hne, ih hrest hitem]

namespace WellFormed

/-- What the index says of an id is where its one entry is. -/
lemma index_iff_filter (h : b.WellFormed) :
    Table.get? id b.index = some queue ↔
      ∃ entry, b.allEntries.filter (fun entry => decide (entry.task.id = id)) = [entry] ∧
        entry ∈ b.entries queue ∧ entry.task.queue = queue := by
  rw [h.index_iff]
  constructor
  · rintro ⟨entry, hentry, rfl, rfl⟩
    exact ⟨entry, filter_eq_singleton h.queuedIds_nodup hentry, h.mem_entries hentry, rfl⟩
  · rintro ⟨entry, hfilter, hentry, hqueue⟩
    have hmem : entry ∈ b.allEntries.filter fun entry => decide (entry.task.id = id) := by
      rw [hfilter]
      exact List.mem_singleton_self _
    obtain ⟨hmem, hid⟩ := List.mem_filter.mp hmem
    exact ⟨entry, hmem, of_decide_eq_true hid, hqueue⟩

/-- No two claims have the same token. -/
lemma tokens_nodup (h : b.WellFormed) : (b.leases.map (·.2.token)).Nodup := by
  have hnames := h.leases_sorted.names_nodup
  refine List.Nodup.map_on ?_ hnames.of_map
  rintro ⟨id, lease⟩ hitem ⟨other, lease'⟩ hitem' htoken
  have hget := h.leases_sorted.mem_iff.mp hitem
  have hget' := h.leases_sorted.mem_iff.mp hitem'
  have hid := h.token_inj hget hget' htoken
  rw [hid, hget', Option.some.injEq] at hget
  rw [hid, hget]

end WellFormed

/-! ## Coherence -/

/-- How the parts of a broker fit together, and with its history. -/
structure Coherent (trace : Trace) : Prop where
  /-- The index sends an id to a queue if one entry of all has the id, and it lies in that queue and
  its task names that queue. -/
  index : ∀ id queue, Table.get? id trace.broker.index = some queue ↔
    ∃ entry, trace.broker.allEntries.filter (fun entry => decide (entry.task.id = id)) = [entry] ∧
      entry ∈ trace.broker.entries queue ∧ entry.task.queue = queue
  /-- No id is queued and claimed. -/
  apart : ∀ id, ¬ (Table.has id trace.broker.index = true ∧ Table.has id trace.broker.leases = true)
  /-- A claim is listed under the id of its task, which is running under the token of the claim, and
  the task is the envelope that the one claim with this token returned. -/
  claimed : ∀ id lease, (id, lease) ∈ trace.broker.leases →
    lease.task.id = id ∧ lease.task.state = .running ∧ lease.task.lease = some lease.token ∧
      trace.history.deliveries.filter (fun task => decide (task.lease = some lease.token)) =
        [lease.task]
  /-- A queued task is pending and has no token. -/
  queued : ∀ entry ∈ trace.broker.allEntries,
    entry.task.state = .pending ∧ entry.task.lease = none
  /-- No id is claimed twice. -/
  claims : (trace.broker.leases.map (·.1)).Nodup
  /-- The tokens of the claims differ, and all were given out. -/
  tokens : (trace.broker.leases.map (·.2.token)).Nodup ∧
    ∀ item ∈ trace.broker.leases, item.2.token ≤ trace.broker.nextLease
  /-- The numbers of the arrivals differ, and all were given out. -/
  arrivals : (trace.broker.allEntries.map (·.sequence)).Nodup ∧
    ∀ entry ∈ trace.broker.allEntries, entry.sequence < trace.broker.sequence
  /-- What is kept as completed is completed. -/
  completed : ∀ record ∈ trace.broker.completed, record.state = .completed
  /-- What is kept as failed for good has failed. -/
  dead : ∀ record ∈ trace.broker.dead, record.state = .failed

/-- **The parts of a broker fit together after every run.** -/
theorem run_coherent (limits : BrokerLimits) (calls : List Call) :
    Coherent (Trace.run limits calls) := by
  have hb := Trace.run_wellFormed limits calls
  have hordered := Trace.run_ordered limits calls
  have hstaged := Trace.run_staged limits calls
  exact {
    index := fun id queue => hb.index_iff_filter
    apart := by
      rintro id ⟨hindex, hlease⟩
      obtain ⟨lease, hget⟩ := Option.isSome_iff_exists.mp hlease
      exact hb.not_mem_queuedIds hget (hb.index_has_iff.mp hindex)
    claimed := by
      intro id lease hitem
      have hget := hb.leases_sorted.mem_iff.mp hitem
      have htoken := hb.lease_token hget
      refine ⟨hb.lease_id hget, hstaged.claimed hget, htoken, ?_⟩
      have hmem := Trace.mem_deliveries_of_lease (Trace.run_tracked limits calls) hget
      rw [← htoken]
      exact filter_eq_singleton (Trace.deliveries_nodup limits calls) hmem
    queued := hstaged.queued
    claims := hb.leases_sorted.names_nodup
    tokens := by
      refine ⟨hb.tokens_nodup, ?_⟩
      rintro ⟨id, lease⟩ hitem
      exact hb.token_le (hb.leases_sorted.mem_iff.mp hitem)
    arrivals := ⟨hordered.sequence_nodup, hordered.sequence_lt⟩
    completed := hstaged.completed
    dead := hstaged.dead }

end Broker
end WorkQueue
