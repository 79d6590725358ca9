import Mathlib.Data.List.Nodup
import WorkQueue.Proofs.Broker.Run

/-!
# The order of the queues

A queue is a list that `QueueEntry.insert` keeps in order: by the time from which a task may be
claimed, and by arrival among equal times.  The numbers of the arrivals make this order total on the
entries of a broker, because none is given twice and the next one is beyond them all.  `Ordered` is
this invariant, and `run_ordered` says that it holds after every run.

A claim looks at the first entries only.  In an ordered queue that is enough: the first entry is due
if any entry is (`hasDue_iff`).
-/

namespace WorkQueue

/-! ## Entries -/

namespace QueueEntry

variable {a b c entry : QueueEntry} {entries : List QueueEntry}

lemma before_iff : a.before b = true ↔ a.eligibleAt.rank < b.eligibleAt.rank ∨
    a.eligibleAt.rank = b.eligibleAt.rank ∧ a.sequence < b.sequence := by
  simp only [before, Bool.or_eq_true, Bool.and_eq_true, decide_eq_true_eq]
  rfl

lemma before_trans (hab : a.before b = true) (hbc : b.before c = true) : a.before c = true := by
  rw [before_iff] at *
  omega

lemma not_before_self (entry : QueueEntry) : ¬ entry.before entry = true := by
  rw [before_iff]
  omega

/-- Of two entries, the one that does not come first comes second, if it arrived earlier. -/
lemma before_of_not_before (h : ¬ a.before b = true) (hsequence : b.sequence < a.sequence) :
    b.before a = true := by
  rw [before_iff] at *
  omega

lemma eligibleAt_le_of_before (h : a.before b = true) {now : Instant} (hb : b.eligibleAt ≤ now) :
    a.eligibleAt ≤ now := by
  rw [before_iff] at h
  change b.eligibleAt.rank ≤ now.rank at hb
  change a.eligibleAt.rank ≤ now.rank
  omega

lemma mem_insert : a ∈ entry.insert entries ↔ a = entry ∨ a ∈ entries := by
  rw [(Broker.insert_perm entry entries).mem_iff, List.mem_cons]

/-- An entry that arrives last is put into its place. -/
lemma insert_pairwise (h : entries.Pairwise fun a b => a.before b = true)
    (hlast : ∀ other ∈ entries, other.sequence < entry.sequence) :
    (entry.insert entries).Pairwise fun a b => a.before b = true := by
  induction entries with
  | nil => exact List.pairwise_singleton _ _
  | cons other rest ih =>
    obtain ⟨hfirst, hrest⟩ := List.pairwise_cons.mp h
    by_cases hbefore : entry.before other = true
    · simp only [insert, hbefore, if_true]
      refine List.pairwise_cons.mpr ⟨?_, h⟩
      intro item hitem
      rcases List.mem_cons.mp hitem with rfl | hitem
      · exact hbefore
      · exact before_trans hbefore (hfirst item hitem)
    · simp only [insert, hbefore]
      refine List.pairwise_cons.mpr ⟨?_, ih hrest fun item hitem => ?_⟩
      · intro item hitem
        rcases mem_insert.mp hitem with rfl | hitem
        · exact before_of_not_before hbefore (hlast other List.mem_cons_self)
        · exact hfirst item hitem
      · exact hlast item (List.mem_cons_of_mem _ hitem)

end QueueEntry

/-! ## Brokers -/

namespace Broker

variable {b next : Broker} {task : Task} {entry : QueueEntry} {rest : List QueueEntry}
  {queue : String} {now eligibleAt : Instant} {call : Call} {answer : Answer}

/-- How the entries of a broker are numbered, and how its queues are ordered. -/
structure Ordered (b : Broker) : Prop where
  sequence_lt : ∀ entry ∈ b.allEntries, entry.sequence < b.sequence
  sequence_nodup : (b.allEntries.map (·.sequence)).Nodup
  sorted : ∀ queue, (b.entries queue).Pairwise fun a b => a.before b = true

lemma ordered_empty (limits : BrokerLimits) : (empty limits).Ordered where
  sequence_lt := by simp [allEntries, empty]
  sequence_nodup := by simp [allEntries, empty]
  sorted := by simp [entries, empty]

namespace Ordered

/-- What leaves the queues and the counter of arrivals alone keeps the order. -/
lemma of_queues_eq (h : b.Ordered) (hqueues : next.queues = b.queues)
    (hsequence : next.sequence = b.sequence) : next.Ordered where
  sequence_lt := by
    rw [allEntries, hqueues, hsequence]
    exact h.sequence_lt
  sequence_nodup := by
    rw [allEntries, hqueues]
    exact h.sequence_nodup
  sorted queue := by
    rw [entries, hqueues]
    exact h.sorted queue

lemma push (h : b.Ordered) (hsorted : b.queues.Sorted) (task : Task) (eligibleAt : Instant) :
    (b.push task eligibleAt).Ordered where
  sequence_lt := by
    intro entry hentry
    change entry.sequence < b.sequence + 1
    rcases (mem_push hsorted).mp hentry with rfl | hentry
    · exact Nat.lt_succ_self _
    · exact Nat.lt_succ_of_lt (h.sequence_lt entry hentry)
  sequence_nodup := by
    refine ((allEntries_push hsorted task eligibleAt).map _).nodup_iff.mpr ?_
    refine List.nodup_cons.mpr ⟨fun hmem => ?_, h.sequence_nodup⟩
    obtain ⟨entry, hentry, hsequence⟩ := List.mem_map.mp hmem
    exact (h.sequence_lt entry hentry).ne hsequence
  sorted queue := by
    rw [entries_push]
    split
    · refine QueueEntry.insert_pairwise (h.sorted queue) fun other hother => ?_
      exact h.sequence_lt other ((mem_allEntries hsorted).mpr ⟨queue, hother⟩)
    · exact h.sorted queue

lemma handOver (h : b.Ordered) (hsorted : b.queues.Sorted)
    (hqueue : b.entries queue = entry :: rest) (now : Instant) :
    (b.handOver queue entry rest now).Ordered where
  sequence_lt other hother :=
    h.sequence_lt other ((mem_handOver hsorted hqueue).mpr (.inr hother))
  sequence_nodup := by
    have hnodup := ((allEntries_handOver hsorted hqueue now).map (·.sequence)).nodup_iff.mp
      h.sequence_nodup
    exact (List.nodup_cons.mp hnodup).2
  sorted other := by
    rw [entries_handOver]
    split
    · have hpairwise := h.sorted queue
      rw [hqueue] at hpairwise
      exact (List.pairwise_cons.mp hpairwise).2
    · exact h.sorted other

lemma requeue (h : b.Ordered) (hb : b.WellFormed) (id : String) (task : Task)
    (eligibleAt : Instant) : ((b.dropLease id).push task eligibleAt).Ordered := by
  have hdrop : (b.dropLease id).Ordered := h.of_queues_eq rfl rfl
  exact hdrop.push hb.queues_sorted task eligibleAt

lemma recover (h : b.Ordered) (hb : b.WellFormed) (order : ReturnOrder) (now : Instant) :
    (b.recover order now).Ordered :=
  (hb.recover_induction order now h fun _ lease hnext ih _ _ =>
    ih.requeue hnext lease.task.id (lease.task.markPending now) now).2

end Ordered

/-- Every call keeps the order. -/
lemma Transition.ordered (h : Transition b call answer next) (hb : b.WellFormed)
    (hordered : b.Ordered) : next.Ordered := by
  cases h with
  | turnedAway => exact hordered
  | enqueued => exact hordered.push hb.queues_sorted _ _
  | unserved => exact hordered.recover hb _ _
  | claimed first =>
    exact (hordered.recover hb _ _).handOver (hb.recover _ _).queues_sorted first _
  | disowned => exact hordered
  | acked => exact hordered.of_queues_eq rfl rfl
  | retried => exact hordered.requeue hb _ _ _
  | crashed | buried => exact hordered.of_queues_eq rfl rfl
  | released => exact hordered.requeue hb _ _ _

theorem Trace.run_ordered (limits : BrokerLimits) (calls : List Call) :
    (run limits calls).broker.Ordered :=
  run_induction (motive := fun trace => trace.broker.Ordered) (ordered_empty limits)
    (fun trace call hb _ h => (trace.transition call).ordered hb h) calls

/-! ## Work that is due -/

/-- A queue has work that is due if any of its entries is due. -/
theorem Ordered.hasDue_iff (h : b.Ordered) :
    b.hasDue now queue = true ↔ ∃ entry ∈ b.entries queue, entry.eligibleAt ≤ now := by
  constructor
  · intro hwork
    obtain ⟨entry, rest, hentries, hdue⟩ := first_of_hasDue hwork
    exact ⟨entry, hentries ▸ List.mem_cons_self, hdue⟩
  · rintro ⟨entry, hentry, hdue⟩
    have hsorted := h.sorted queue
    unfold hasDue
    cases hentries : b.entries queue with
    | nil => simp [hentries] at hentry
    | cons first rest =>
      rw [hentries] at hentry hsorted
      rcases List.mem_cons.mp hentry with rfl | hentry
      · simpa using hdue
      · have hbefore := (List.pairwise_cons.mp hsorted).1 entry hentry
        simpa using QueueEntry.eligibleAt_le_of_before hbefore hdue

end Broker
end WorkQueue
