import Mathlib.Data.Finset.Lattice.Fold
import Mathlib.Data.Finset.Range
import Mathlib.Order.Lattice.Nat
import WorkQueue.Proofs.Broker.Reports

/-!
# How full a queue can be

Only a submission asks whether a queue has room, and it looks at what waits there and not at what is
claimed.  A retry, a release and the return of a lapsed claim put a task back without asking, so
that a queue can hold more than its capacity.  It cannot hold much more, because whatever is put
back was claimed.

`backlog` counts both, the tasks that wait in a queue and the claims on its tasks, lapsed ones
included.  No call but a submission adds to it, and a submission only up to the capacity and the
claims of the moment (`Transition.backlog_le`).  So at no moment of a run is it more than the
capacity and the greatest number of claims that there were at once (`peak`): this is the main
statement, `backlog_bounded`, together with what each operation does ask.
-/

namespace WorkQueue
namespace Broker

variable {b next : Broker} {task : Task} {entry : QueueEntry} {rest : List QueueEntry}
  {queue other id : String} {now eligibleAt : Instant} {lease : Lease} {call : Call}
  {answer : Answer}

/-! ## Claims on the tasks of a queue -/

/-- How many claims there are on tasks of a queue, lapsed ones that were not given back included. -/
def claimsOn (b : Broker) (queue : String) : Nat :=
  b.leases.countP fun item => item.2.task.queue == queue

/-- How many tasks of a queue wait in it or are claimed. -/
def backlog (b : Broker) (queue : String) : Nat :=
  b.size queue + b.claimsOn queue

lemma size_push (b : Broker) (task : Task) (eligibleAt : Instant) (queue : String) :
    (b.push task eligibleAt).size queue =
      b.size queue + if task.queue = queue then 1 else 0 := by
  rw [size, entries_push]
  by_cases hqueue : task.queue = queue
  · rw [if_pos hqueue, if_pos hqueue, (insert_perm _ _).length_eq]
    rfl
  · rw [if_neg hqueue, if_neg hqueue]
    rfl

lemma size_push_own (b : Broker) (task : Task) (eligibleAt : Instant) :
    (b.push task eligibleAt).size task.queue = b.size task.queue + 1 := by
  rw [size_push, if_pos rfl]

lemma claimsOn_dropLease (hb : b.WellFormed) (hget : Table.get? id b.leases = some lease)
    (queue : String) :
    b.claimsOn queue =
      (b.dropLease id).claimsOn queue + if lease.task.queue = queue then 1 else 0 := by
  rw [claimsOn, (hb.leases_sorted.perm_erase hget).countP_eq, List.countP_cons]
  simp only [beq_iff_eq]
  rfl

/-- A claimed task that goes back to its queue still counts. -/
lemma backlog_requeue (hb : b.WellFormed) (hget : Table.get? id b.leases = some lease)
    (task : Task) (hqueue : task.queue = lease.task.queue) (eligibleAt : Instant)
    (queue : String) : ((b.dropLease id).push task eligibleAt).backlog queue = b.backlog queue := by
  have hsize := size_push (b.dropLease id) task eligibleAt queue
  have hclaims := claimsOn_dropLease hb hget queue
  have hsame : (b.dropLease id).size queue = b.size queue := rfl
  have hleases : ((b.dropLease id).push task eligibleAt).claimsOn queue =
      (b.dropLease id).claimsOn queue := rfl
  rw [hqueue] at hsize
  unfold backlog
  omega

lemma backlog_recover (hb : b.WellFormed) (order : ReturnOrder) (now : Instant) (queue : String) :
    (b.recover order now).backlog queue = b.backlog queue := by
  refine (hb.recover_induction (motive := fun next => next.backlog queue = b.backlog queue) order
    now rfl ?_).2
  intro next lease hnext ih hget _
  have hback : (giveBack now next lease).backlog queue = next.backlog queue :=
    backlog_requeue hnext hget (lease.task.markPending now) rfl now queue
  exact hback.trans ih

/-- A task that is handed out still counts. -/
lemma backlog_handOver (hb : b.WellFormed) (hentries : b.entries queue = entry :: rest)
    (now : Instant) (other : String) :
    (b.handOver queue entry rest now).backlog other = b.backlog other := by
  have hentry := hb.mem_of_entries hentries
  have hqueue : entry.task.queue = queue := hb.entry_queue (hentries ▸ List.mem_cons_self)
  have hclaims : (b.handOver queue entry rest now).claimsOn other =
      b.claimsOn other + if queue = other then 1 else 0 := by
    have hperm := hb.leases_sorted.put_perm entry.task.id (b.leaseOn entry now)
    rw [Table.erase_of_get?_eq_none (hb.lease_none hentry)] at hperm
    have hcount := hperm.countP_eq fun item => item.2.task.queue == other
    rw [List.countP_cons] at hcount
    have hlease : (b.leaseOn entry now).task.queue = queue := hqueue
    simp only [hlease, beq_iff_eq] at hcount
    exact hcount
  have hsize : (b.handOver queue entry rest now).size other +
      (if queue = other then 1 else 0) = b.size other := by
    rw [size, entries_handOver]
    by_cases hsame : queue = other
    · rw [if_pos hsame, if_pos hsame, size, ← hsame, hentries]
      rfl
    · rw [if_neg hsame, if_neg hsame]
      rfl
  unfold backlog
  omega

/-- Only a submission adds to what waits or is claimed, and only up to the capacity and the claims
of the moment. -/
lemma Transition.backlog_le (h : Transition b call answer next) (hb : b.WellFormed)
    (queue : String) :
    next.backlog queue ≤
      max (b.backlog queue) (b.limits.maxQueueSize + b.claimsOn queue) := by
  have hless : next.backlog queue ≤ b.backlog queue → next.backlog queue ≤
      max (b.backlog queue) (b.limits.maxQueueSize + b.claimsOn queue) :=
    fun hle => le_max_of_le_left hle
  cases h with
  | turnedAway | disowned => exact hless le_rfl
  | @enqueued task now fresh room =>
    have hsize := size_push b (task.markPending now) task.eligibleAt queue
    have hclaims : (b.push (task.markPending now) task.eligibleAt).claimsOn queue =
        b.claimsOn queue := rfl
    by_cases hqueue : task.queue = queue
    · refine le_max_of_le_right ?_
      have hroom : b.size queue < b.limits.maxQueueSize := hqueue ▸ room
      have hone : (task.markPending now).queue = queue := hqueue
      rw [if_pos hone] at hsize
      unfold backlog
      omega
    · refine hless ?_
      have hnone : (task.markPending now).queue ≠ queue := hqueue
      rw [if_neg hnone] at hsize
      unfold backlog
      omega
  | unserved => exact hless (backlog_recover hb _ _ _).le
  | @claimed order _ _ now _ _ _ first =>
    have hhand := backlog_handOver (hb.recover order now) first now queue
    exact hless (hhand.trans (backlog_recover hb order now queue)).le
  | acked owns | crashed owns | buried owns =>
    have hclaims := claimsOn_dropLease hb owns.1 queue
    refine hless (Nat.add_le_add_left ?_ (b.size queue))
    rw [hclaims]
    exact Nat.le_add_right _ _
  | @retried _ lease delay error now owns =>
    have hback := backlog_requeue hb owns.1
      ((lease.task.markRetrying error (now.after delay) now).markPending now) rfl
      (now.after delay) queue
    exact hless hback.le
  | @released _ lease now owns =>
    have hback := backlog_requeue hb owns.1 (lease.task.markPending now) rfl now queue
    exact hless hback.le

/-! ## Runs -/

/-- The greatest number of claims on tasks of a queue that there were at once in a run, lapsed ones
that were not given back included. -/
def peak (limits : BrokerLimits) (calls : List Call) (queue : String) : Nat :=
  (Finset.range (calls.length + 1)).sup fun moment =>
    (Trace.run limits (calls.take moment)).broker.claimsOn queue

lemma claimsOn_le_peak (limits : BrokerLimits) (calls : List Call) (queue : String) :
    (Trace.run limits calls).broker.claimsOn queue ≤ peak limits calls queue := by
  have hle := Finset.le_sup (f := fun moment =>
    (Trace.run limits (calls.take moment)).broker.claimsOn queue)
    (Finset.self_mem_range_succ calls.length)
  rwa [List.take_length] at hle

lemma peak_le_concat (limits : BrokerLimits) (calls : List Call) (call : Call) (queue : String) :
    peak limits calls queue ≤ peak limits (calls ++ [call]) queue := by
  refine Finset.sup_le fun moment hmoment => ?_
  have hlength : moment ≤ calls.length := Nat.lt_succ_iff.mp (Finset.mem_range.mp hmoment)
  have hle := Finset.le_sup (f := fun moment =>
    (Trace.run limits ((calls ++ [call]).take moment)).broker.claimsOn queue)
    (Finset.mem_range.mpr (show moment < (calls ++ [call]).length + 1 by
      rw [List.length_append]
      omega))
  rwa [List.take_append_of_le_length hlength] at hle

lemma run_backlog_le (limits : BrokerLimits) (calls : List Call) (queue : String) :
    (Trace.run limits calls).broker.backlog queue ≤
      limits.maxQueueSize + peak limits calls queue := by
  induction calls using List.reverseRecOn with
  | nil => simp [backlog, size, entries, claimsOn, Trace.run, Trace.start, empty]
  | append_singleton calls call ih =>
    have hstep := ((Trace.run limits calls).transition call).backlog_le
      (Trace.run_wellFormed limits calls) queue
    have hclaims := claimsOn_le_peak limits calls queue
    have hpeak := peak_le_concat limits calls call queue
    rw [Trace.run_limits] at hstep
    rw [Trace.run_concat]
    omega

/-! ## Who asks for room -/

/-- A submission of a task that is not held is refused if its queue is full, and only then. -/
lemma serve_enqueue_of_free (h : b.holds task.id = false) (now : Instant) :
    (b.serve (.enqueue task now)).1 =
      if b.limits.maxQueueSize ≤ b.size task.queue then
        .error (.enqueue (.queueFull task.queue (b.size task.queue)))
      else .ok none := by
  simp only [serve, enqueue, h, Bool.false_eq_true, if_false]
  by_cases hfull : b.limits.maxQueueSize ≤ (b.entries task.queue).length
  · rw [if_pos hfull, if_pos (show b.limits.maxQueueSize ≤ b.size task.queue from hfull)]
    rfl
  · rw [if_neg hfull, if_neg (show ¬ b.limits.maxQueueSize ≤ b.size task.queue from hfull)]
    rfl

/-- A retry puts its task back, however full the queue is. -/
lemma serve_retry_of_owns {report : Task} (h : b.Owns report lease)
    (hcounted : lease.task.overflows b.limits.overflow = false) (delay : Duration)
    (error : String) (now : Instant) :
    (∃ record, (b.serve (.retry report delay error now)).1 = .ok (some record)) ∧
      (b.serve (.retry report delay error now)).2.size lease.task.queue =
        b.size lease.task.queue + 1 := by
  rw [serve_retry h hcounted]
  exact ⟨⟨_, rfl⟩, size_push_own (b.dropLease report.id)
    ((lease.task.markRetrying error (now.after delay) now).markPending now) (now.after delay)⟩

/-- A retry that cannot be counted puts nothing back, and no answer tells of a full queue. -/
lemma serve_retry_lost {report : Task} (h : b.Owns report lease)
    (hcounted : lease.task.overflows b.limits.overflow = true) (delay : Duration)
    (error : String) (now : Instant) :
    (b.serve (.retry report delay error now)).1 = .crashed ∧
      ∀ queue, (b.serve (.retry report delay error now)).2.size queue = b.size queue := by
  rw [serve_retry_crashed h hcounted]
  exact ⟨rfl, fun _ => rfl⟩

/-- A release puts its task back, however full the queue is. -/
lemma serve_release_of_owns {report : Task} (h : b.Owns report lease) (now : Instant) :
    (b.serve (.release report now)).1 = .ok none ∧
      (b.serve (.release report now)).2.size lease.task.queue = b.size lease.task.queue + 1 := by
  have htake := takeLease_ok_iff.mpr ⟨lease, h, rfl, rfl⟩
  simp only [serve, release, htake]
  exact ⟨rfl, size_push_own (b.dropLease report.id) (lease.task.markPending now) now⟩

/-- A report fails for one reason alone, that it does not name the claim that holds its task. -/
lemma error_of_report {report : Task} {error : QueueError} (hreport : call.report? = some report)
    (h : (b.serve call).1 = .error error) : error = .taskNotFound report.id := by
  have htransition := report_transition (b := b) hreport
  rw [h] at htransition
  generalize (b.serve call).2 = next at htransition
  cases htransition with
  | turnedAway => cases hreport
  | unserved => cases hreport
  | disowned isReport =>
    cases hreport.symm.trans isReport
    rfl

/-- A claim fails for one reason alone, that nothing is due. -/
lemma error_of_claim {order : ReturnOrder} {weights : QueueWeights} {words : List UInt32}
    {error : QueueError} (h : (b.serve (.claim order weights words now)).1 = .error error) :
    error = .queueEmpty := by
  have htransition := claim_transition b order weights words now
  rw [h] at htransition
  generalize (b.serve (.claim order weights words now)).2 = next at htransition
  cases htransition with
  | unserved => rfl
  | disowned isReport => cases isReport

/-! ## The bound -/

/-- What it means that the queues of a broker are bounded after a run. -/
structure BoundsBacklog (limits : BrokerLimits) (calls : List Call) : Prop where
  /-- What waits in a queue or is claimed is no more than the capacity and the peak of the
  claims. -/
  bounded : ∀ queue, (Trace.run limits calls).broker.size queue +
    (Trace.run limits calls).broker.claimsOn queue ≤
      limits.maxQueueSize + peak limits calls queue
  /-- So a queue exceeds its capacity by no more than that peak. -/
  excess : ∀ queue, (Trace.run limits calls).broker.size queue - limits.maxQueueSize ≤
    peak limits calls queue
  /-- A submission of a task that is not held is refused if its queue has reached the capacity, and
  otherwise accepted; nothing else counts. -/
  submission : ∀ task now, (Trace.run limits calls).broker.holds task.id = false →
    ((Trace.run limits calls).broker.serve (.enqueue task now)).1 =
      if limits.maxQueueSize ≤ (Trace.run limits calls).broker.size task.queue then
        .error (.enqueue (.queueFull task.queue ((Trace.run limits calls).broker.size task.queue)))
      else .ok none
  /-- A retry and a release by the claim that holds a task put it back, however full its queue; but
  a retry that cannot be counted crashes, and adds to no queue. -/
  putBack : ∀ report lease, (Trace.run limits calls).broker.Owns report lease →
    (lease.task.overflows limits.overflow = false → ∀ delay error now, (∃ record,
      ((Trace.run limits calls).broker.serve (.retry report delay error now)).1 =
        .ok (some record)) ∧
      ((Trace.run limits calls).broker.serve (.retry report delay error now)).2.size
        lease.task.queue = (Trace.run limits calls).broker.size lease.task.queue + 1) ∧
    (lease.task.overflows limits.overflow = true → ∀ delay error now,
      ((Trace.run limits calls).broker.serve (.retry report delay error now)).1 = .crashed ∧
      ∀ queue, ((Trace.run limits calls).broker.serve (.retry report delay error now)).2.size
        queue = (Trace.run limits calls).broker.size queue) ∧
    ∀ now, ((Trace.run limits calls).broker.serve (.release report now)).1 = .ok none ∧
      ((Trace.run limits calls).broker.serve (.release report now)).2.size lease.task.queue =
        (Trace.run limits calls).broker.size lease.task.queue + 1
  /-- The task of every lapsed claim goes back, however full its queue, before a claim is served. -/
  returned : ∀ order now id lease,
    Table.get? id (Trace.run limits calls).broker.leases = some lease → lease.expiresAt ≤ now →
      ∃ entry ∈ ((Trace.run limits calls).broker.recover order now).entries lease.task.queue,
        entry.task = lease.task.markPending now
  /-- No report and no claim is refused for want of room. -/
  refusals : ∀ call error, ((Trace.run limits calls).broker.serve call).1 = .error error →
    (∃ task now, call = .enqueue task now) ∨
    (∃ report, call.report? = some report ∧ error = .taskNotFound report.id) ∨
    ∃ order weights words now, call = .claim order weights words now ∧ error = .queueEmpty

/-- **The backlog of a queue is bounded.**  At every moment of a run, the tasks that wait in a queue
and the claims on its tasks are no more than the capacity and the greatest number of such claims
that there were at once.  A queue is full for a submission alone: what was claimed always goes
back. -/
theorem backlog_bounded (limits : BrokerLimits) (calls : List Call) :
    BoundsBacklog limits calls := by
  have hb := Trace.run_wellFormed limits calls
  have hbacklog := run_backlog_le limits calls
  refine ⟨hbacklog, ?_, ?_, ?_, ?_, ?_⟩
  · intro queue
    have hle := hbacklog queue
    unfold backlog at hle
    omega
  · intro task now hfree
    have hserve := serve_enqueue_of_free hfree now
    rwa [Trace.run_limits] at hserve
  · intro report lease howns
    have hlimits := Trace.run_limits limits calls
    refine ⟨fun hcounted => serve_retry_of_owns howns ?_, fun huncounted =>
      serve_retry_lost howns ?_, serve_release_of_owns howns⟩
    · rwa [hlimits]
    · rwa [hlimits]
  · intro order now id lease hget hlapsed
    obtain ⟨entry, hentry, htask, -⟩ := hb.entry_of_lapsed order hget hlapsed
    have hplace := (hb.recover order now).mem_entries hentry
    rw [htask] at hplace
    exact ⟨entry, hplace, htask⟩
  · intro call error herror
    cases hreport : call.report? with
    | some report => exact .inr (.inl ⟨report, rfl, error_of_report hreport herror⟩)
    | none =>
      cases call with
      | enqueue task now => exact .inl ⟨task, now, rfl⟩
      | claim order weights words now =>
        exact .inr (.inr ⟨order, weights, words, now, rfl, error_of_claim herror⟩)
      | ack | retry | deadLetter | release => cases hreport

/-- The bound is reached: a queue for one task holds two of them once the claim on the first is
given back. -/
example :
    let letter := fun id => Task.create id "letter" [] 0 .epoch
    let calls := [.enqueue (letter "a") .epoch, .claim .listed (.single "default") [] .epoch,
      .enqueue (letter "b") .epoch, .release { letter "a" with lease := some 1 } .epoch]
    (Trace.run ⟨1, Duration.ofSeconds 30, 1, 1, .crashes⟩ calls).broker.size "default" = 2 ∧
      peak ⟨1, Duration.ofSeconds 30, 1, 1, .crashes⟩ calls "default" = 1 := by
  decide +kernel

end Broker
end WorkQueue
