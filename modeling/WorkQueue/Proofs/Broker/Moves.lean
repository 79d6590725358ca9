import WorkQueue.Broker.Operation
import WorkQueue.Proofs.Table

/-!
# The moves of a broker

Every operation of a broker is made of a few moves: a task is put into its queue (`push`), the first
entry of a queue is handed out under a claim (`handOver`), and a claim is taken off
(`dropLease`).  Taking back what has lapsed is a sequence of the first and the last (`giveBack`).
This module says what a move does to what can be seen of a broker: the entries of all its queues,
up to order, and the claim on each id.  The equations `giveBack_eq`, `claimFrom_cons` and
`takeLease_ok_iff` say that the operations are made of the moves.
-/

namespace WorkQueue
namespace Broker

variable {b : Broker} {task report : Task} {entry : QueueEntry} {rest : List QueueEntry}
  {queue id : String} {now eligibleAt : Instant}

/-! ## Queues -/

lemma insert_perm (entry : QueueEntry) (entries : List QueueEntry) :
    (entry.insert entries).Perm (entry :: entries) := by
  induction entries with
  | nil => exact List.Perm.refl _
  | cons other rest ih =>
    simp only [QueueEntry.insert]
    split
    · exact List.Perm.refl _
    · exact (ih.cons other).trans (List.Perm.swap _ _ _)

lemma mem_allEntries (hsorted : b.queues.Sorted) :
    entry ∈ b.allEntries ↔ ∃ queue, entry ∈ b.entries queue := by
  simp only [allEntries, List.mem_flatMap, entries]
  constructor
  · rintro ⟨⟨queue, items⟩, hmem, hentry⟩
    exact ⟨queue, by simpa [hsorted.mem_iff.mp hmem] using hentry⟩
  · rintro ⟨queue, hentry⟩
    cases hget : Table.get? queue b.queues with
    | none => simp [hget] at hentry
    | some items => exact ⟨(queue, items), Table.mem_of_get? hget, by simpa [hget] using hentry⟩

/-! ## Putting a task into its queue -/

lemma entries_push (b : Broker) (task : Task) (eligibleAt : Instant) (queue : String) :
    (b.push task eligibleAt).entries queue =
      if task.queue = queue then
        (QueueEntry.mk task eligibleAt b.sequence).insert (b.entries queue)
      else b.entries queue := by
  by_cases h : task.queue = queue
  · simp [push, entries, Table.get?_put, h]
  · simp [push, entries, Table.get?_put, h]

lemma allEntries_push (hsorted : b.queues.Sorted) (task : Task) (eligibleAt : Instant) :
    (b.push task eligibleAt).allEntries.Perm
      (⟨task, eligibleAt, b.sequence⟩ :: b.allEntries) := by
  have hput := hsorted.flatMap_put task.queue
    ((QueueEntry.mk task eligibleAt b.sequence).insert (b.entries task.queue))
  have hsplit := hsorted.flatMap_split task.queue
  exact hput.trans (((insert_perm _ _).append_right _).trans (hsplit.symm.cons _))

lemma mem_push (hsorted : b.queues.Sorted) :
    entry ∈ (b.push task eligibleAt).allEntries ↔
      entry = ⟨task, eligibleAt, b.sequence⟩ ∨ entry ∈ b.allEntries := by
  rw [(allEntries_push hsorted task eligibleAt).mem_iff, List.mem_cons]

/-! ## Handing out the first entry of a queue -/

/-- The envelope under which an entry is handed out. -/
def delivery (b : Broker) (entry : QueueEntry) (now : Instant) : Task :=
  { entry.task.markRunning now with lease := some (b.nextLease + 1) }

/-- The claim under which an entry is handed out. -/
def leaseOn (b : Broker) (entry : QueueEntry) (now : Instant) : Lease :=
  ⟨b.delivery entry now, b.nextLease + 1, now.after b.limits.visibilityTimeout⟩

/-- The broker once the first entry of a queue is handed out. -/
def handOver (b : Broker) (queue : String) (entry : QueueEntry) (rest : List QueueEntry)
    (now : Instant) : Broker :=
  { b with
    queues := Table.put queue rest b.queues
    index := Table.erase entry.task.id b.index
    leases := Table.put entry.task.id (b.leaseOn entry now) b.leases
    nextLease := b.nextLease + 1 }

/-- A queue with work that is due has a first entry, and that one is due. -/
lemma first_of_hasDue (h : b.hasDue now queue = true) :
    ∃ entry rest, b.entries queue = entry :: rest ∧ entry.eligibleAt ≤ now := by
  unfold hasDue at h
  split at h
  · cases h
  · next entry rest hentries => exact ⟨entry, rest, hentries, by simpa using h⟩

lemma claimFrom_cons (h : b.entries queue = entry :: rest) :
    b.claimFrom queue now = (.ok (b.delivery entry now), b.handOver queue entry rest now) := by
  simp only [claimFrom, h]
  rfl

lemma entries_handOver (b : Broker) (queue other : String) (entry : QueueEntry)
    (rest : List QueueEntry) (now : Instant) :
    (b.handOver queue entry rest now).entries other =
      if queue = other then rest else b.entries other := by
  by_cases h : queue = other <;> simp [handOver, entries, Table.get?_put, h]

lemma allEntries_handOver (hsorted : b.queues.Sorted) (h : b.entries queue = entry :: rest)
    (now : Instant) :
    b.allEntries.Perm (entry :: (b.handOver queue entry rest now).allEntries) := by
  have hput := hsorted.flatMap_put queue rest
  have hsplit := hsorted.flatMap_split queue
  change b.allEntries.Perm (b.entries queue ++ _) at hsplit
  rw [h] at hsplit
  exact hsplit.trans (hput.symm.cons entry)

lemma mem_handOver (hsorted : b.queues.Sorted) (h : b.entries queue = entry :: rest)
    {other : QueueEntry} :
    other ∈ b.allEntries ↔
      other = entry ∨ other ∈ (b.handOver queue entry rest now).allEntries := by
  rw [(allEntries_handOver hsorted h now).mem_iff, List.mem_cons]

/-! ## Taking a claim off -/

/-- The broker without the claim on an id. -/
def dropLease (b : Broker) (id : String) : Broker :=
  { b with leases := Table.erase id b.leases }

lemma giveBack_eq (b : Broker) (lease : Lease) (now : Instant) :
    giveBack now b lease =
      (b.dropLease lease.task.id).push (lease.task.markPending now) now := rfl

/-- Whether a report names the claim that holds its task. -/
def Owns (b : Broker) (report : Task) (lease : Lease) : Prop :=
  Table.get? report.id b.leases = some lease ∧ report.lease = some lease.token

lemma takeLease_ok_iff {taken : Task} {next : Broker} :
    b.takeLease report = .ok (taken, next) ↔
      ∃ lease, b.Owns report lease ∧ taken = lease.task ∧ next = b.dropLease report.id := by
  unfold takeLease Owns
  cases hget : Table.get? report.id b.leases with
  | none => simp
  | some lease =>
    by_cases htoken : report.lease = some lease.token
    · simp only [htoken, if_true, Except.ok.injEq, Prod.mk.injEq, Option.some.injEq]
      constructor
      · rintro ⟨rfl, rfl⟩
        exact ⟨lease, ⟨rfl, rfl⟩, rfl, rfl⟩
      · rintro ⟨_, ⟨rfl, -⟩, rfl, rfl⟩
        exact ⟨rfl, rfl⟩
    · simp only [htoken, if_false, reduceCtorEq, false_iff]
      rintro ⟨_, ⟨hlease, htoken'⟩, -⟩
      cases hlease
      exact htoken htoken'

lemma takeLease_error (h : ∀ lease, ¬ b.Owns report lease) :
    b.takeLease report = .error (.taskNotFound report.id) := by
  unfold takeLease
  cases hget : Table.get? report.id b.leases with
  | none => rfl
  | some lease =>
    have htoken : report.lease ≠ some lease.token := fun htoken => h lease ⟨hget, htoken⟩
    simp [htoken]

/-! ## Keeping what is finished -/

/-- The broker with a task more among the completed ones that it keeps. -/
def keepCompleted (b : Broker) (task : Task) : Broker :=
  { b with completed := keepLast b.limits.completedHistory (b.completed ++ [task]) }

/-- The broker with a task more among those that failed for good and that it keeps. -/
def keepDead (b : Broker) (task : Task) : Broker :=
  { b with dead := keepLast b.limits.deadLetterHistory (b.dead ++ [task]) }

/-! ## Taking back what has lapsed -/

/-- What a return of one claim keeps, a return of all lapsed claims keeps. -/
lemma recover_frame {α : Type} (f : Broker → α) (now : Instant)
    (h : ∀ b lease, f (giveBack now b lease) = f b) (b : Broker) (order : ReturnOrder) :
    f (b.recover order now) = f b := by
  unfold recover
  generalize order.arrange (b.lapsed now) = leases
  induction leases generalizing b with
  | nil => rfl
  | cons lease rest ih => rw [List.foldl_cons, ih, h]

@[simp] lemma recover_limits (b : Broker) (order : ReturnOrder) (now : Instant) :
    (b.recover order now).limits = b.limits :=
  recover_frame (·.limits) now (fun _ _ => rfl) b order

@[simp] lemma recover_nextLease (b : Broker) (order : ReturnOrder) (now : Instant) :
    (b.recover order now).nextLease = b.nextLease :=
  recover_frame (·.nextLease) now (fun _ _ => rfl) b order

@[simp] lemma recover_completed (b : Broker) (order : ReturnOrder) (now : Instant) :
    (b.recover order now).completed = b.completed :=
  recover_frame (·.completed) now (fun _ _ => rfl) b order

@[simp] lemma recover_dead (b : Broker) (order : ReturnOrder) (now : Instant) :
    (b.recover order now).dead = b.dead :=
  recover_frame (·.dead) now (fun _ _ => rfl) b order

lemma leases_foldl_giveBack (now : Instant) (leases : List Lease) (b : Broker) :
    (leases.foldl (giveBack now) b).leases =
      b.leases.filter fun item => !decide (item.1 ∈ leases.map (·.task.id)) := by
  induction leases generalizing b with
  | nil => simp
  | cons lease rest ih =>
    have hgive : (giveBack now b lease).leases = Table.erase lease.task.id b.leases := rfl
    rw [List.foldl_cons, ih, hgive, Table.erase, List.filter_filter]
    refine List.filter_congr fun item _ => ?_
    by_cases h : item.1 = lease.task.id <;> simp [h]

end Broker
end WorkQueue
