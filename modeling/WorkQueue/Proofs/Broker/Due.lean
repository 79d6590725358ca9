import Mathlib.Data.List.Perm.Basic
import WorkQueue.Proofs.Broker.Claims
import WorkQueue.Proofs.Broker.Order
import WorkQueue.Proofs.Time.Instant

/-!
# What is due

What is due at a time is `dueTasks`: the queued tasks whose time has come, and those under claims
that have lapsed.  Those of them that belong to served queues are what a claim can return
(`claimable`).  A claim moves the tasks of lapsed claims into their queues, under the same time, so
the list stays what it is up to order and to the marks that a delivery overwrites
(`claimable_recover`), and it takes one task out of it (`claimable_handOver`).  It has nothing to
return exactly if the list is empty, because the queues are ordered (`claimable_eq_nil_iff`).
-/

namespace WorkQueue
namespace Broker

variable {b : Broker} {weights : QueueWeights} {task : Task} {entry : QueueEntry}
  {rest : List QueueEntry} {queue id : String} {now : Instant} {lease : Lease}

/-! ## What is due -/

/-- The queued entries whose time has come. -/
def dueEntries (b : Broker) (now : Instant) : List QueueEntry :=
  b.allEntries.filter fun entry => decide (entry.eligibleAt ≤ now)

/-- The tasks that are due at a time: the queued ones whose time has come, and those under claims
that have lapsed. -/
def dueTasks (b : Broker) (now : Instant) : List Task :=
  (b.dueEntries now).map (·.task) ++ (b.lapsed now).map (·.task)

/-- The tasks that are due in the served queues. -/
def claimable (b : Broker) (weights : QueueWeights) (now : Instant) : List Task :=
  (b.dueTasks now).filter fun task => decide (task.queue ∈ weights.names)

lemma mem_claimable (hb : b.WellFormed) :
    task ∈ b.claimable weights now ↔ task.queue ∈ weights.names ∧
      ((∃ entry ∈ b.allEntries, entry.eligibleAt ≤ now ∧ entry.task = task) ∨
        ∃ lease, Table.get? task.id b.leases = some lease ∧ lease.expiresAt ≤ now ∧
          lease.task = task) := by
  simp only [claimable, dueTasks, dueEntries, List.mem_filter, List.mem_append, List.mem_map,
    decide_eq_true_eq, hb.mem_lapsed_iff, and_assoc]
  rw [and_comm]
  refine and_congr_right fun _ => or_congr_right ?_
  constructor
  · rintro ⟨lease, hget, hlapsed, rfl⟩
    exact ⟨lease, hget, hlapsed, rfl⟩
  · rintro ⟨lease, hget, hlapsed, rfl⟩
    exact ⟨lease, hget, hlapsed, rfl⟩

/-- No id is due twice. -/
lemma claimable_ids_nodup (hb : b.WellFormed) :
    ((b.claimable weights now).map (·.id)).Nodup := by
  have hheld : b.heldIds =
      (b.allEntries.map (·.task) ++ (b.leases.map (·.2)).map (·.task)).map (·.id) := by
    simp only [heldIds, queuedIds, ← hb.lease_ids, List.map_append, List.map_map,
      Function.comp_def]
  have hqueued : ((b.dueEntries now).map (·.task)).Sublist (b.allEntries.map (·.task)) :=
    List.filter_sublist.map _
  have hclaimed : ((b.lapsed now).map (·.task)).Sublist ((b.leases.map (·.2)).map (·.task)) :=
    List.filter_sublist.map _
  have hsub : ((b.claimable weights now).map (·.id)).Sublist b.heldIds := by
    rw [hheld]
    exact (List.filter_sublist.trans (hqueued.append hclaimed)).map _
  exact hb.heldIds_nodup.sublist hsub

lemma claimable_eq_nil (hb : b.WellFormed) : b.claimable weights now = [] ↔
    (∀ entry ∈ b.allEntries, entry.task.queue ∈ weights.names → ¬ entry.eligibleAt ≤ now) ∧
      ∀ id lease, Table.get? id b.leases = some lease → lease.task.queue ∈ weights.names →
        ¬ lease.expiresAt ≤ now := by
  rw [List.eq_nil_iff_forall_not_mem]
  constructor
  · intro hnone
    refine ⟨fun entry hentry hserved hdue => ?_, fun id lease hget hserved hlapsed => ?_⟩
    · exact hnone _ ((mem_claimable hb).mpr ⟨hserved, .inl ⟨entry, hentry, hdue, rfl⟩⟩)
    · rw [← hb.lease_id hget] at hget
      exact hnone _ ((mem_claimable hb).mpr ⟨hserved, .inr ⟨lease, hget, hlapsed, rfl⟩⟩)
  · rintro ⟨hentries, hleases⟩ task htask
    obtain ⟨hserved, ⟨entry, hentry, hdue, rfl⟩ | ⟨lease, hget, hlapsed, rfl⟩⟩ :=
      (mem_claimable hb).mp htask
    · exact hentries entry hentry hserved hdue
    · exact hleases _ lease hget hserved hlapsed

lemma not_claimable_of_entry (hb : b.WellFormed) (hentry : entry ∈ b.allEntries)
    (hspared : ¬ (entry.task.queue ∈ weights.names ∧ entry.eligibleAt ≤ now)) :
    ∀ task ∈ b.claimable weights now, task.id ≠ entry.task.id := by
  intro task htask hid
  obtain ⟨hserved, ⟨other, hother, hdue, rfl⟩ | ⟨lease, hget, -, rfl⟩⟩ :=
    (mem_claimable hb).mp htask
  · have hsame := hb.entry_inj hother hentry hid
    exact hspared ⟨hsame ▸ hserved, hsame ▸ hdue⟩
  · rw [hid, hb.lease_none hentry] at hget
    cases hget

lemma not_claimable_of_lease (hb : b.WellFormed) (hget : Table.get? id b.leases = some lease)
    (hspared : ¬ (lease.task.queue ∈ weights.names ∧ lease.expiresAt ≤ now)) :
    ∀ task ∈ b.claimable weights now, task.id ≠ id := by
  intro task htask hid
  obtain ⟨hserved, ⟨entry, hentry, -, rfl⟩ | ⟨other, hother, hlapsed, rfl⟩⟩ :=
    (mem_claimable hb).mp htask
  · rw [← hid, hb.lease_none hentry] at hget
    cases hget
  · rw [hid, hget, Option.some.injEq] at hother
    exact hspared ⟨hother ▸ hserved, hother ▸ hlapsed⟩

/-! ## Lapsed claims that go back -/

/-- Tasks as they would wait in their queues.  A delivery overwrites all that this changes. -/
def marked (now : Instant) (tasks : List Task) : List Task :=
  tasks.map fun task => task.markPending now

lemma marked_perm (now : Instant) {tasks others : List Task} (h : tasks.Perm others) :
    (marked now tasks).Perm (marked now others) :=
  h.map _

lemma dueEntries_push (hsorted : b.queues.Sorted) (task : Task) (now : Instant) :
    ((b.push task now).dueEntries now).Perm (⟨task, now, b.sequence⟩ :: b.dueEntries now) := by
  have hpush := (allEntries_push hsorted task now).filter
    fun entry => decide (entry.eligibleAt ≤ now)
  rwa [List.filter_cons_of_pos (by simpa using Instant.le_refl now)] at hpush

lemma lapsed_dropLease (hb : b.WellFormed) (hget : Table.get? id b.leases = some lease)
    (hlapsed : lease.expiresAt ≤ now) :
    (b.lapsed now).Perm (lease :: (b.dropLease id).lapsed now) := by
  have hdrop := ((hb.leases_sorted.perm_erase hget).map (·.2)).filter
    fun lease => decide (lease.expiresAt ≤ now)
  rwa [List.map_cons, List.filter_cons_of_pos (by simpa using hlapsed)] at hdrop

/-- A lapsed claim that goes back is as due as it was. -/
lemma dueTasks_giveBack (hb : b.WellFormed)
    (hget : Table.get? lease.task.id b.leases = some lease) (hlapsed : lease.expiresAt ≤ now) :
    (marked now ((giveBack now b lease).dueTasks now)).Perm (marked now (b.dueTasks now)) := by
  have hentries : ((giveBack now b lease).dueEntries now).Perm
      (⟨lease.task.markPending now, now, b.sequence⟩ :: b.dueEntries now) :=
    dueEntries_push (b := b.dropLease lease.task.id) hb.queues_sorted _ now
  have hleases : (b.lapsed now).Perm (lease :: (giveBack now b lease).lapsed now) :=
    lapsed_dropLease hb hget hlapsed
  have hnew : ((giveBack now b lease).dueTasks now).Perm (lease.task.markPending now ::
      ((b.dueEntries now).map (·.task) ++ ((giveBack now b lease).lapsed now).map (·.task))) :=
    (hentries.map QueueEntry.task).append_right _
  have hold : (lease.task ::
      ((b.dueEntries now).map (·.task) ++ ((giveBack now b lease).lapsed now).map (·.task))).Perm
        (b.dueTasks now) :=
    List.perm_middle.symm.trans ((hleases.map Lease.task).symm.append_left _)
  -- The two lists differ in the mark of the task that went back, and marking twice is marking once.
  have hmark := marked_perm now hold
  exact (marked_perm now hnew).trans hmark

lemma dueTasks_recover (hb : b.WellFormed) (order : ReturnOrder) (now : Instant) :
    (marked now ((b.recover order now).dueTasks now)).Perm (marked now (b.dueTasks now)) :=
  (hb.recover_induction
    (motive := fun next => (marked now (next.dueTasks now)).Perm (marked now (b.dueTasks now)))
    order now (List.Perm.refl _) fun _ _ hnext ih hget hlapsed =>
      (dueTasks_giveBack hnext hget hlapsed).trans ih).2

lemma marked_claimable (b : Broker) (weights : QueueWeights) (now : Instant) :
    marked now (b.claimable weights now) =
      (marked now (b.dueTasks now)).filter fun task => decide (task.queue ∈ weights.names) := by
  rw [marked, marked, List.filter_map]
  rfl

/-- What can be claimed before lapsed claims go back can be claimed after that. -/
lemma claimable_recover (hb : b.WellFormed) (weights : QueueWeights) (order : ReturnOrder)
    (now : Instant) :
    (marked now ((b.recover order now).claimable weights now)).Perm
      (marked now (b.claimable weights now)) := by
  rw [marked_claimable, marked_claimable]
  exact (dueTasks_recover hb order now).filter _

/-- No claim that is left has lapsed. -/
lemma lapsed_recover (hb : b.WellFormed) (order : ReturnOrder) (now : Instant) :
    (b.recover order now).lapsed now = [] := by
  rw [List.eq_nil_iff_forall_not_mem]
  intro lease hlease
  obtain ⟨hget, hlapsed⟩ := (hb.recover order now).mem_lapsed_iff.mp hlease
  exact ((hb.get?_recover order now).mp hget).2 hlapsed

/-! ## A task that is handed out -/

lemma dueEntries_handOver (hsorted : b.queues.Sorted) (hqueue : b.entries queue = entry :: rest)
    (hdue : entry.eligibleAt ≤ now) :
    (b.dueEntries now).Perm (entry :: (b.handOver queue entry rest now).dueEntries now) := by
  have hhand := (allEntries_handOver hsorted hqueue now).filter
    fun entry => decide (entry.eligibleAt ≤ now)
  rwa [List.filter_cons_of_pos (by simpa using hdue)] at hhand

/-- A new claim has not lapsed. -/
lemma lapsed_handOver (hb : b.WellFormed) (hqueue : b.entries queue = entry :: rest)
    (hfresh : ¬ now.after b.limits.visibilityTimeout ≤ now) :
    ((b.handOver queue entry rest now).lapsed now).Perm (b.lapsed now) := by
  have hput := ((hb.leases_sorted.put_perm entry.task.id (b.leaseOn entry now)).map (·.2)).filter
    fun lease => decide (lease.expiresAt ≤ now)
  have hnew : ¬ (b.leaseOn entry now).expiresAt ≤ now := hfresh
  rwa [Table.erase_of_get?_eq_none (hb.lease_none (hb.mem_of_entries hqueue)), List.map_cons,
    List.filter_cons_of_neg (by simpa using hnew)] at hput

/-- A claim takes the task that it returns out of what is due. -/
lemma claimable_handOver (hb : b.WellFormed) (hqueue : b.entries queue = entry :: rest)
    (hserved : queue ∈ weights.names) (hdue : entry.eligibleAt ≤ now)
    (hfresh : ¬ now.after b.limits.visibilityTimeout ≤ now) :
    (b.claimable weights now).Perm
      (entry.task :: (b.handOver queue entry rest now).claimable weights now) := by
  have hentries := dueEntries_handOver hb.queues_sorted hqueue hdue
  have hleases := lapsed_handOver hb hqueue hfresh
  have htasks : (b.dueTasks now).Perm
      (entry.task :: (b.handOver queue entry rest now).dueTasks now) :=
    (hentries.map QueueEntry.task).append (hleases.map Lease.task).symm
  have hname : entry.task.queue = queue := hb.entry_queue (hqueue ▸ List.mem_cons_self)
  have hfilter := htasks.filter fun task => decide (task.queue ∈ weights.names)
  rwa [List.filter_cons_of_pos (by simpa [hname] using hserved)] at hfilter

/-- Once lapsed claims are back, nothing can be claimed exactly if no served queue has work. -/
lemma claimable_eq_nil_iff (hb : b.WellFormed) (hordered : b.Ordered)
    (hlapsed : b.lapsed now = []) :
    b.claimable weights now = [] ↔ ∀ queue ∈ weights.names, b.hasDue now queue = false := by
  rw [List.eq_nil_iff_forall_not_mem]
  constructor
  · intro hnone queue hserved
    rw [Bool.eq_false_iff]
    intro hwork
    obtain ⟨entry, hentry, hdue⟩ := hordered.hasDue_iff.mp hwork
    have hmem : entry ∈ b.allEntries := (mem_allEntries hb.queues_sorted).mpr ⟨queue, hentry⟩
    refine hnone entry.task ((mem_claimable hb).mpr ⟨?_, .inl ⟨entry, hmem, hdue, rfl⟩⟩)
    rwa [hb.entry_queue hentry]
  · intro hidle task htask
    obtain ⟨hserved, ⟨entry, hmem, hdue, rfl⟩ | ⟨lease, hget, hexpired, rfl⟩⟩ :=
      (mem_claimable hb).mp htask
    · obtain ⟨queue, hentry⟩ := (mem_allEntries hb.queues_sorted).mp hmem
      rw [hb.entry_queue hentry] at hserved
      have hwork := hordered.hasDue_iff.mpr ⟨entry, hentry, hdue⟩
      exact Bool.eq_false_iff.mp (hidle queue hserved) hwork
    · have hmem := hb.mem_lapsed_iff.mpr ⟨hget, hexpired⟩
      rw [hlapsed] at hmem
      cases hmem

end Broker
end WorkQueue
