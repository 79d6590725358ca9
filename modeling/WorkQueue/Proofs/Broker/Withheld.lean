import WorkQueue.Proofs.Broker.Claims
import WorkQueue.Proofs.Time.Instant

/-!
# Tasks that are kept from claims

A task is kept from claims up to a time in two ways: it waits in its queue for that time
(`Deferred`), or it is under a claim that stands until then.  A claim that lapses is not given back
at that moment, though.  A later claim does that, perhaps on other queues and by another clock, and
the task waits from then on under the time of that clock.  So what is kept from call to call is not
the claim but `Withheld`: one of the two ways, up to that time or a later one.

A claim that returns a withheld task reads a time that is late enough (`Transition.le_of_withheld`).
A task stays deferred until a claim returns it (`Transition.deferred`), and it stays withheld until
a report takes the claim on it off (`Transition.withheld`): the new claim reads a time that is late
enough, and it stands longer than that.  Nothing is assumed about the clocks.
-/

namespace WorkQueue
namespace Broker

variable {b next : Broker} {task : Task} {entry : QueueEntry} {rest : List QueueEntry}
  {queue id : String} {now bound : Instant} {call : Call} {answer : Answer}

/-! ## Tasks that wait -/

/-- Whether a task waits in a queue for a time that is not before another. -/
def Deferred (b : Broker) (id : String) (bound : Instant) : Prop :=
  ∃ entry ∈ b.allEntries, entry.task.id = id ∧ bound ≤ entry.eligibleAt

namespace Deferred

lemma of_subset (h : b.Deferred id bound)
    (hsubset : ∀ entry ∈ b.allEntries, entry ∈ next.allEntries) : next.Deferred id bound := by
  obtain ⟨entry, hentry, hid, hbound⟩ := h
  exact ⟨entry, hsubset entry hentry, hid, hbound⟩

lemma push (h : b.Deferred id bound) (hb : b.WellFormed) (task : Task) (eligibleAt : Instant) :
    (b.push task eligibleAt).Deferred id bound :=
  h.of_subset fun _ hentry => (mem_push hb.queues_sorted).mpr (.inr hentry)

lemma requeue (h : b.Deferred id bound) (hb : b.WellFormed) (dropped : String) (task : Task)
    (eligibleAt : Instant) : ((b.dropLease dropped).push task eligibleAt).Deferred id bound :=
  push (b := b.dropLease dropped) h (hb.dropLease dropped) task eligibleAt

lemma recover (h : b.Deferred id bound) (hb : b.WellFormed) (order : ReturnOrder) (now : Instant) :
    (b.recover order now).Deferred id bound :=
  h.of_subset fun _ hentry => hb.mem_recover order now hentry

/-- An entry with the id of a deferred task waits long enough. -/
lemma le_of_entry (h : b.Deferred id bound) (hb : b.WellFormed) (hentry : entry ∈ b.allEntries)
    (hid : entry.task.id = id) : bound ≤ entry.eligibleAt := by
  obtain ⟨other, hother, hid', hbound⟩ := h
  rwa [hb.entry_inj hentry hother (hid.trans hid'.symm)]

lemma handOver (h : b.Deferred id bound) (hb : b.WellFormed)
    (hqueue : b.entries queue = entry :: rest) (hid : entry.task.id ≠ id) :
    (b.handOver queue entry rest now).Deferred id bound := by
  obtain ⟨other, hother, hid', hbound⟩ := h
  rcases (mem_handOver hb.queues_sorted hqueue).mp hother with rfl | hother
  · exact absurd hid' hid
  · exact ⟨other, hother, hid', hbound⟩

end Deferred

/-! ## Tasks that wait or are claimed -/

/-- Whether a task is kept from claims up to a time: it is claimed until that time or longer, or it
waits for that time or a later one. -/
def Withheld (b : Broker) (id : String) (bound : Instant) : Prop :=
  (∃ lease, Table.get? id b.leases = some lease ∧ bound ≤ lease.expiresAt) ∨ b.Deferred id bound

namespace Withheld

lemma push (h : b.Withheld id bound) (hb : b.WellFormed) (task : Task) (eligibleAt : Instant) :
    (b.push task eligibleAt).Withheld id bound := by
  rcases h with hlease | hdeferred
  · exact .inl hlease
  · exact .inr (hdeferred.push hb task eligibleAt)

lemma dropLease (h : b.Withheld id bound) {dropped : String} (hdropped : dropped ≠ id) :
    (b.dropLease dropped).Withheld id bound := by
  rcases h with ⟨lease, hget, hbound⟩ | hdeferred
  · refine .inl ⟨lease, ?_, hbound⟩
    rw [WellFormed.get?_dropLease, if_neg hdropped, hget]
  · exact .inr hdeferred

/-- If the claim on a withheld task has lapsed, the present is late enough for the task to wait for
it. -/
lemma recover (h : b.Withheld id bound) (hb : b.WellFormed) (order : ReturnOrder) (now : Instant) :
    (b.recover order now).Withheld id bound := by
  rcases h with ⟨lease, hget, hbound⟩ | hdeferred
  · by_cases hlapsed : lease.expiresAt ≤ now
    · obtain ⟨entry, hentry, htask, htime⟩ := hb.entry_of_lapsed order hget hlapsed
      have hid : entry.task.id = id := by
        rw [htask]
        exact hb.lease_id hget
      have hlate : bound ≤ entry.eligibleAt := by
        rw [htime]
        exact Instant.le_trans hbound hlapsed
      exact .inr ⟨entry, hentry, hid, hlate⟩
    · exact .inl ⟨lease, (hb.get?_recover order now).mpr ⟨hget, hlapsed⟩, hbound⟩
  · exact .inr (hdeferred.recover hb order now)

/-- An entry with the id of a withheld task waits long enough. -/
lemma le_of_entry (h : b.Withheld id bound) (hb : b.WellFormed) (hentry : entry ∈ b.allEntries)
    (hid : entry.task.id = id) : bound ≤ entry.eligibleAt := by
  rcases h with ⟨lease, hget, -⟩ | hdeferred
  · have hnone := hb.lease_none hentry
    rw [hid, hget] at hnone
    cases hnone
  · exact hdeferred.le_of_entry hb hentry hid

lemma handOver (h : b.Withheld id bound) (hb : b.WellFormed) (hbound : bound ≤ Instant.latest)
    (hqueue : b.entries queue = entry :: rest) (hdue : entry.eligibleAt ≤ now) :
    (b.handOver queue entry rest now).Withheld id bound := by
  by_cases hid : entry.task.id = id
  · have hlate := h.le_of_entry hb (hb.mem_of_entries hqueue) hid
    refine .inl ⟨b.leaseOn entry now, ?_, ?_⟩
    · rw [WellFormed.get?_handOver, if_pos hid]
    · exact Instant.le_after hbound (Instant.le_trans hlate hdue) _
  · rcases h with ⟨lease, hget, hlate⟩ | hdeferred
    · refine .inl ⟨lease, ?_, hlate⟩
      rw [WellFormed.get?_handOver, if_neg hid, hget]
    · exact .inr (hdeferred.handOver hb hqueue hid)

lemma holds (h : b.Withheld id bound) (hb : b.WellFormed) : b.holds id = true := by
  refine hb.holds_iff.mpr (List.mem_append.mpr ?_)
  rcases h with ⟨lease, hget, -⟩ | ⟨entry, hentry, hid, -⟩
  · exact .inr (mem_names_leases.mpr ⟨lease, hget⟩)
  · exact .inl (mem_queuedIds.mpr ⟨entry, hentry, hid⟩)

end Withheld

/-! ## Calls -/

namespace Transition

/-- A deferred task stays deferred unless a claim returns it. -/
lemma deferred (h : Transition b call answer next) (hb : b.WellFormed)
    (hdeferred : b.Deferred id bound)
    (hother : ∀ task, Exchange.delivered? ⟨call, answer⟩ = some task → task.id ≠ id) :
    next.Deferred id bound := by
  cases h with
  | turnedAway => exact hdeferred
  | enqueued => exact hdeferred.push hb _ _
  | unserved => exact hdeferred.recover hb _ _
  | @claimed order _ _ now _ entry _ first =>
    have hid : entry.task.id ≠ id := hother ((b.recover order now).delivery entry now) rfl
    exact (hdeferred.recover hb order now).handOver (hb.recover order now) first hid
  | disowned => exact hdeferred
  | acked => exact hdeferred
  | retried => exact hdeferred.requeue hb _ _ _
  | crashed => exact hdeferred
  | buried => exact hdeferred
  | released => exact hdeferred.requeue hb _ _ _

/-- A task that is to be tried again is deferred to the end of the delay. -/
lemma deferred_of_retried {report : Task} {delay : Duration} {error : String} {time : Instant}
    {result : Option Task} (h : Transition b (.retry report delay error time) (.ok result) next)
    (hb : b.WellFormed) : next.Deferred report.id (time.after delay) := by
  cases h with
  | retried owns =>
    exact ⟨_, (mem_push (hb.dropLease report.id).queues_sorted).mpr (.inl rfl),
      hb.lease_id owns.1, Instant.le_refl _⟩

/-- A withheld task stays withheld unless a report takes the claim on it off. -/
lemma withheld (h : Transition b call answer next) (hb : b.WellFormed)
    (hbound : bound ≤ Instant.latest) (hwithheld : b.Withheld id bound)
    (hquiet : ∀ report, Exchange.spent? ⟨call, answer⟩ = some report → report.id ≠ id) :
    next.Withheld id bound := by
  cases h with
  | turnedAway => exact hwithheld
  | enqueued => exact hwithheld.push hb _ _
  | unserved => exact hwithheld.recover hb _ _
  | claimed first _ due =>
    exact (hwithheld.recover hb _ _).handOver (hb.recover _ _) hbound first due
  | disowned => exact hwithheld
  | acked => exact hwithheld.dropLease (hquiet _ rfl)
  | retried => exact (hwithheld.dropLease (hquiet _ rfl)).push (hb.dropLease _) _ _
  | crashed => exact hwithheld.dropLease (hquiet _ rfl)
  | buried => exact hwithheld.dropLease (hquiet _ rfl)
  | released => exact (hwithheld.dropLease (hquiet _ rfl)).push (hb.dropLease _) _ _

/-- A claim that returns a withheld task reads a time that is late enough. -/
lemma le_of_withheld (h : Transition b call answer next) (hb : b.WellFormed)
    (hwithheld : b.Withheld id bound)
    (hdelivered : Exchange.delivered? ⟨call, answer⟩ = some task) (hid : task.id = id) :
    bound ≤ call.reading := by
  cases h with
  | @claimed order _ _ now _ _ _ first _ due =>
    cases hdelivered
    have hrecovered := hb.recover order now
    have hlate := (hwithheld.recover hb order now).le_of_entry hrecovered
      (hrecovered.mem_of_entries first) hid
    exact Instant.le_trans hlate due
  | disowned isReport => cases (Exchange.delivered?_of_report isReport).symm.trans hdelivered
  | _ => cases hdelivered

/-- An envelope that a claim returns is under that claim afterwards. -/
lemma lease_of_delivered (h : Transition b call answer next)
    (hdelivered : Exchange.delivered? ⟨call, answer⟩ = some task) :
    ∃ lease, Table.get? task.id next.leases = some lease ∧ lease.task = task ∧
      lease.expiresAt = call.reading.after b.limits.visibilityTimeout := by
  cases h with
  | claimed =>
    cases hdelivered
    refine ⟨_, (WellFormed.get?_handOver _ _ _ _ _ _).trans (if_pos rfl), rfl, ?_⟩
    rw [leaseOn, recover_limits]
    rfl
  | disowned isReport => cases (Exchange.delivered?_of_report isReport).symm.trans hdelivered
  | _ => cases hdelivered

/-- A claim withholds the task that it returns for the timeout. -/
lemma withheld_of_delivered (h : Transition b call answer next)
    (hdelivered : Exchange.delivered? ⟨call, answer⟩ = some task) :
    next.Withheld task.id (call.reading.after b.limits.visibilityTimeout) := by
  obtain ⟨lease, hget, -, hexpires⟩ := h.lease_of_delivered hdelivered
  exact .inl ⟨lease, hget, hexpires ▸ Instant.le_refl _⟩

end Transition
end Broker
end WorkQueue
