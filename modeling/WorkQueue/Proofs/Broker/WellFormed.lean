import Mathlib.Data.List.Nodup
import Mathlib.Data.List.Perm.Basic
import WorkQueue.Proofs.Broker.Moves

/-!
# Well-formed brokers

The four parts of a broker that hold its unfinished tasks are kept apart: the queues, the index of
queued ids, the claims, and the counter of claims.  `WellFormed` says how they agree: the index
names exactly the queued tasks, and an id is held once, either in a queue or under one claim, whose
token no other claim has.

Each move keeps this (`WellFormed.push`, `WellFormed.dropLease`, `WellFormed.handOver`), and so does
the return of lapsed claims in any order, for which `WellFormed.giveBack_induction` is the one
induction: it hands out the claims one by one, each while it is still in its place (`InPlace`).

`heldIds` lists the ids of all unfinished tasks.  What the moves do to this list, up to order, is
all that the conservation of tasks needs.
-/

namespace WorkQueue
namespace Broker

variable {b : Broker} {task : Task} {entry : QueueEntry} {rest : List QueueEntry}
  {queue id : String} {now eligibleAt : Instant} {lease : Lease}

/-- The ids of the queued tasks. -/
def queuedIds (b : Broker) : List String :=
  b.allEntries.map (·.task.id)

/-- The ids of all unfinished tasks: the queued ones, then the claimed ones. -/
def heldIds (b : Broker) : List String :=
  b.queuedIds ++ Table.names b.leases

/-- How the parts of a broker agree. -/
structure WellFormed (b : Broker) : Prop where
  queues_sorted : b.queues.Sorted
  index_sorted : b.index.Sorted
  leases_sorted : b.leases.Sorted
  entry_queue : ∀ {queue entry}, entry ∈ b.entries queue → entry.task.queue = queue
  index_iff : ∀ {id queue}, Table.get? id b.index = some queue ↔
    ∃ entry ∈ b.allEntries, entry.task.id = id ∧ entry.task.queue = queue
  heldIds_nodup : b.heldIds.Nodup
  lease_id : ∀ {id lease}, Table.get? id b.leases = some lease → lease.task.id = id
  lease_token : ∀ {id lease}, Table.get? id b.leases = some lease →
    lease.task.lease = some lease.token
  token_le : ∀ {id lease}, Table.get? id b.leases = some lease → lease.token ≤ b.nextLease
  token_inj : ∀ {id other lease lease'}, Table.get? id b.leases = some lease →
    Table.get? other b.leases = some lease' → lease.token = lease'.token → id = other

lemma wellFormed_empty (limits : BrokerLimits) : (empty limits).WellFormed where
  queues_sorted := Table.sorted_nil
  index_sorted := Table.sorted_nil
  leases_sorted := Table.sorted_nil
  entry_queue := by simp [entries, empty]
  index_iff := by simp [allEntries, empty]
  heldIds_nodup := by simp [heldIds, queuedIds, allEntries, empty, Table.names]
  lease_id := by simp [empty]
  lease_token := by simp [empty]
  token_le := by simp [empty]
  token_inj := by simp [empty]

/-! ## The ids that are held -/

lemma mem_queuedIds : id ∈ b.queuedIds ↔ ∃ entry ∈ b.allEntries, entry.task.id = id := by
  simp [queuedIds]

lemma mem_names_leases :
    id ∈ Table.names b.leases ↔ ∃ lease, Table.get? id b.leases = some lease := by
  rw [← Option.ne_none_iff_exists', Ne, Table.get?_eq_none_iff, Table.names]
  simp

namespace WellFormed

lemma index_has_iff (h : b.WellFormed) : Table.has id b.index = true ↔ id ∈ b.queuedIds := by
  rw [Table.has, Option.isSome_iff_exists, mem_queuedIds]
  constructor
  · rintro ⟨queue, hqueue⟩
    obtain ⟨entry, hentry, hid, -⟩ := h.index_iff.mp hqueue
    exact ⟨entry, hentry, hid⟩
  · rintro ⟨entry, hentry, hid⟩
    exact ⟨_, h.index_iff.mpr ⟨entry, hentry, hid, rfl⟩⟩

/-- The broker's own test for a held id is right. -/
lemma holds_iff (h : b.WellFormed) : b.holds id = true ↔ id ∈ b.heldIds := by
  rw [holds, Bool.or_eq_true, h.index_has_iff, Table.has, Option.isSome_iff_exists,
    ← mem_names_leases, heldIds, List.mem_append]

lemma not_mem_queuedIds (h : b.WellFormed) (hlease : Table.get? id b.leases = some lease) :
    id ∉ b.queuedIds := by
  intro hqueued
  have hdisjoint := (List.nodup_append.mp h.heldIds_nodup).2.2
  exact hdisjoint id hqueued id (mem_names_leases.mpr ⟨lease, hlease⟩) rfl

/-- The queued tasks have different ids. -/
lemma queuedIds_nodup (h : b.WellFormed) : (b.allEntries.map (·.task.id)).Nodup :=
  (List.nodup_append.mp h.heldIds_nodup).1

/-- An id belongs to one entry. -/
lemma entry_inj (h : b.WellFormed) {other : QueueEntry} (hentry : entry ∈ b.allEntries)
    (hother : other ∈ b.allEntries) (hid : entry.task.id = other.task.id) : entry = other :=
  List.inj_on_of_nodup_map h.queuedIds_nodup hentry hother hid

/-- An entry lies in the queue that its task names. -/
lemma mem_entries (h : b.WellFormed) (hentry : entry ∈ b.allEntries) :
    entry ∈ b.entries entry.task.queue := by
  obtain ⟨queue, hqueue⟩ := (mem_allEntries h.queues_sorted).mp hentry
  rwa [h.entry_queue hqueue]

lemma lease_none (h : b.WellFormed) (hentry : entry ∈ b.allEntries) :
    Table.get? entry.task.id b.leases = none := by
  cases hget : Table.get? entry.task.id b.leases with
  | none => rfl
  | some lease => exact absurd (mem_queuedIds.mpr ⟨entry, hentry, rfl⟩) (h.not_mem_queuedIds hget)

/-- Every claim is listed under the id of its task. -/
lemma lease_ids (h : b.WellFormed) : b.leases.map (·.2.task.id) = Table.names b.leases := by
  rw [Table.names]
  refine List.map_congr_left fun item hitem => ?_
  exact h.lease_id (h.leases_sorted.mem_iff.mp hitem)

/-! ## Putting a task into its queue -/

lemma heldIds_push (h : b.WellFormed) (task : Task) (eligibleAt : Instant) :
    (b.push task eligibleAt).heldIds.Perm (task.id :: b.heldIds) :=
  ((allEntries_push h.queues_sorted task eligibleAt).map _).append_right _

lemma push (h : b.WellFormed) (hfresh : task.id ∉ b.heldIds) :
    (b.push task eligibleAt).WellFormed where
  queues_sorted := h.queues_sorted.put
  index_sorted := h.index_sorted.put
  leases_sorted := h.leases_sorted
  entry_queue := by
    intro queue entry hentry
    rw [entries_push] at hentry
    split at hentry
    · next hqueue =>
      rcases List.mem_cons.mp ((insert_perm _ _).mem_iff.mp hentry) with rfl | hentry
      · exact hqueue
      · exact h.entry_queue hentry
    · exact h.entry_queue hentry
  index_iff := by
    intro id queue
    have hmem : ∀ entry, entry ∈ (b.push task eligibleAt).allEntries ↔
        entry = ⟨task, eligibleAt, b.sequence⟩ ∨ entry ∈ b.allEntries :=
      fun _ => mem_push h.queues_sorted
    have hget : Table.get? id (b.push task eligibleAt).index =
        if task.id = id then some task.queue else Table.get? id b.index := Table.get?_put _ _ _ _
    rw [hget]
    by_cases hid : task.id = id
    · subst hid
      simp only [if_true, Option.some.injEq, hmem]
      constructor
      · rintro rfl
        exact ⟨_, .inl rfl, rfl, rfl⟩
      · rintro ⟨entry, rfl | hentry, hid, hqueue⟩
        · exact hqueue
        · exact absurd (List.mem_append_left _ (mem_queuedIds.mpr ⟨entry, hentry, hid⟩)) hfresh
    · simp only [hid, if_false, hmem, h.index_iff]
      constructor
      · rintro ⟨entry, hentry, hrest⟩
        exact ⟨entry, .inr hentry, hrest⟩
      · rintro ⟨entry, rfl | hentry, hid', hqueue⟩
        · exact absurd hid' hid
        · exact ⟨entry, hentry, hid', hqueue⟩
  heldIds_nodup :=
    (h.heldIds_push task eligibleAt).nodup_iff.mpr (List.nodup_cons.mpr ⟨hfresh, h.heldIds_nodup⟩)
  lease_id := h.lease_id
  lease_token := h.lease_token
  token_le := h.token_le
  token_inj := h.token_inj

/-! ## Taking a claim off -/

lemma get?_dropLease (b : Broker) (id other : String) :
    Table.get? other (b.dropLease id).leases =
      if id = other then none else Table.get? other b.leases :=
  Table.get?_erase _ _ _

lemma get?_of_dropLease {other : String}
    (h : Table.get? other (b.dropLease id).leases = some lease) :
    id ≠ other ∧ Table.get? other b.leases = some lease := by
  rw [get?_dropLease] at h
  split at h
  · cases h
  · next hne => exact ⟨hne, h⟩

lemma heldIds_dropLease (h : b.WellFormed) (hlease : Table.get? id b.leases = some lease) :
    b.heldIds.Perm (id :: (b.dropLease id).heldIds) := by
  have hnames : (Table.names b.leases).Perm (id :: Table.names (b.dropLease id).leases) :=
    (h.leases_sorted.perm_erase hlease).map _
  exact (hnames.append_left b.queuedIds).trans List.perm_middle

lemma dropLease (h : b.WellFormed) (id : String) : (b.dropLease id).WellFormed where
  queues_sorted := h.queues_sorted
  index_sorted := h.index_sorted
  leases_sorted := h.leases_sorted.erase
  entry_queue := h.entry_queue
  index_iff := h.index_iff
  heldIds_nodup := by
    have hsub : (Table.names (b.dropLease id).leases).Sublist (Table.names b.leases) :=
      (List.filter_sublist).map _
    exact h.heldIds_nodup.sublist (hsub.append_left b.queuedIds)
  lease_id hget := h.lease_id (get?_of_dropLease hget).2
  lease_token hget := h.lease_token (get?_of_dropLease hget).2
  token_le hget := h.token_le (get?_of_dropLease hget).2
  token_inj hget hget' := h.token_inj (get?_of_dropLease hget).2 (get?_of_dropLease hget').2

lemma not_mem_heldIds_dropLease (h : b.WellFormed)
    (hlease : Table.get? id b.leases = some lease) : id ∉ (b.dropLease id).heldIds := by
  have hnodup := (h.heldIds_dropLease hlease).nodup_iff.mp h.heldIds_nodup
  exact (List.nodup_cons.mp hnodup).1

/-! ## Putting a claimed task back into a queue -/

lemma requeue (h : b.WellFormed) (task : Task) (eligibleAt : Instant)
    (hlease : Table.get? id b.leases = some lease) (hid : task.id = id) :
    ((b.dropLease id).push task eligibleAt).WellFormed :=
  (h.dropLease id).push (by rw [hid]; exact h.not_mem_heldIds_dropLease hlease)

lemma heldIds_requeue (h : b.WellFormed) (task : Task) (eligibleAt : Instant)
    (hlease : Table.get? id b.leases = some lease) (hid : task.id = id) :
    ((b.dropLease id).push task eligibleAt).heldIds.Perm b.heldIds := by
  have hpush := (h.dropLease id).heldIds_push task eligibleAt
  rw [hid] at hpush
  exact hpush.trans (h.heldIds_dropLease hlease).symm

/-! ## Keeping what is finished -/

/-- The histories play no part in it. -/
lemma withHistories (h : b.WellFormed) (completed dead : List Task) :
    WellFormed { b with completed := completed, dead := dead } where
  queues_sorted := h.queues_sorted
  index_sorted := h.index_sorted
  leases_sorted := h.leases_sorted
  entry_queue := h.entry_queue
  index_iff := h.index_iff
  heldIds_nodup := h.heldIds_nodup
  lease_id := h.lease_id
  lease_token := h.lease_token
  token_le := h.token_le
  token_inj := h.token_inj

lemma keepCompleted (h : b.WellFormed) (task : Task) : (b.keepCompleted task).WellFormed :=
  h.withHistories _ b.dead

lemma keepDead (h : b.WellFormed) (task : Task) : (b.keepDead task).WellFormed :=
  h.withHistories b.completed _

/-! ## Handing out an entry -/

section HandOver

variable (h : b.WellFormed) (hqueue : b.entries queue = entry :: rest)

include h hqueue

lemma mem_of_entries : entry ∈ b.allEntries :=
  (mem_allEntries h.queues_sorted).mpr ⟨queue, hqueue ▸ List.mem_cons_self⟩

lemma heldIds_handOver (now : Instant) :
    (b.handOver queue entry rest now).heldIds.Perm b.heldIds := by
  have hentries : b.queuedIds.Perm
      (entry.task.id :: (b.handOver queue entry rest now).queuedIds) :=
    (allEntries_handOver h.queues_sorted hqueue now).map _
  have hnames : (Table.names (b.handOver queue entry rest now).leases).Perm
      (entry.task.id :: Table.names b.leases) := by
    have hput := (h.leases_sorted.put_perm entry.task.id (b.leaseOn entry now)).map Prod.fst
    rwa [Table.erase_of_get?_eq_none (h.lease_none (h.mem_of_entries hqueue))] at hput
  calc (b.handOver queue entry rest now).heldIds
      |>.Perm ((b.handOver queue entry rest now).queuedIds ++
        (entry.task.id :: Table.names b.leases)) := hnames.append_left _
    _ |>.Perm (entry.task.id :: (b.handOver queue entry rest now).queuedIds ++
        Table.names b.leases) := List.perm_middle
    _ |>.Perm b.heldIds := hentries.symm.append_right _

omit h hqueue in
lemma get?_handOver (b : Broker) (queue other : String) (entry : QueueEntry)
    (rest : List QueueEntry) (now : Instant) :
    Table.get? other (b.handOver queue entry rest now).leases =
      if entry.task.id = other then some (b.leaseOn entry now) else Table.get? other b.leases :=
  Table.get?_put _ _ _ _

lemma handOver (now : Instant) : (b.handOver queue entry rest now).WellFormed where
  queues_sorted := h.queues_sorted.put
  index_sorted := h.index_sorted.erase
  leases_sorted := h.leases_sorted.put
  entry_queue := by
    intro other item hitem
    rw [entries_handOver] at hitem
    split at hitem
    · next same =>
      subst same
      exact h.entry_queue (hqueue ▸ List.mem_cons_of_mem _ hitem)
    · exact h.entry_queue hitem
  index_iff := by
    intro id name
    have hperm := allEntries_handOver h.queues_sorted hqueue now
    have hmem : ∀ item, item ∈ b.allEntries ↔
        item = entry ∨ item ∈ (b.handOver queue entry rest now).allEntries :=
      fun _ => mem_handOver h.queues_sorted hqueue
    -- No other queued task has the id of the one that is handed out.
    have hother : entry.task.id ∉ (b.handOver queue entry rest now).queuedIds := by
      have hnodup := (List.nodup_append.mp h.heldIds_nodup).1
      exact (List.nodup_cons.mp ((hperm.map _).nodup_iff.mp hnodup)).1
    have hget : Table.get? id (b.handOver queue entry rest now).index =
        if entry.task.id = id then none else Table.get? id b.index := Table.get?_erase _ _ _
    rw [hget]
    by_cases hid : entry.task.id = id
    · subst hid
      simp only [if_true, reduceCtorEq, false_iff]
      rintro ⟨item, hitem, hid, -⟩
      exact hother (mem_queuedIds.mpr ⟨item, hitem, hid⟩)
    · simp only [hid, if_false, h.index_iff, hmem]
      constructor
      · rintro ⟨item, rfl | hitem, hid', hname⟩
        · exact absurd hid' hid
        · exact ⟨item, hitem, hid', hname⟩
      · rintro ⟨item, hitem, hrest⟩
        exact ⟨item, .inr hitem, hrest⟩
  heldIds_nodup := (h.heldIds_handOver hqueue now).nodup_iff.mpr h.heldIds_nodup
  lease_id := by
    intro id lease hget
    rw [get?_handOver] at hget
    split at hget
    · next hid =>
      cases hget
      exact hid
    · exact h.lease_id hget
  lease_token := by
    intro id lease hget
    rw [get?_handOver] at hget
    split at hget
    · cases hget
      rfl
    · exact h.lease_token hget
  token_le := by
    intro id lease hget
    rw [get?_handOver] at hget
    split at hget
    · cases hget
      exact Nat.le_refl _
    · exact Nat.le_succ_of_le (h.token_le hget)
  token_inj := by
    intro id other lease lease' hget hget' htoken
    rw [get?_handOver] at hget hget'
    -- The new claim has the token after all those that were given out.
    have hnew : ∀ {id lease}, Table.get? id b.leases = some lease →
        lease.token ≠ (b.leaseOn entry now).token := fun hget => by
      exact Nat.ne_of_lt (Nat.lt_succ_of_le (h.token_le hget))
    split at hget <;> split at hget'
    · next hid hid' => exact hid.symm.trans hid'
    · cases hget
      exact absurd htoken.symm (hnew hget')
    · cases hget'
      exact absurd htoken (hnew hget)
    · exact h.token_inj hget hget' htoken

end HandOver

/-! ## Taking back what has lapsed -/

lemma mem_lapsed_iff (h : b.WellFormed) :
    lease ∈ b.lapsed now ↔
      Table.get? lease.task.id b.leases = some lease ∧ lease.expiresAt ≤ now := by
  simp only [lapsed, List.mem_filter, List.mem_map, Prod.exists, exists_eq_right,
    decide_eq_true_eq, and_congr_left_iff]
  refine fun _ => ⟨?_, fun hget => ⟨_, Table.mem_of_get? hget⟩⟩
  rintro ⟨id, hmem⟩
  have hget := h.leases_sorted.mem_iff.mp hmem
  rwa [h.lease_id hget]

lemma lapsed_ids_nodup (h : b.WellFormed) : ((b.lapsed now).map (·.task.id)).Nodup := by
  have hsub : ((b.lapsed now).map (·.task.id)).Sublist ((b.leases.map (·.2)).map (·.task.id)) :=
    (List.filter_sublist).map _
  rw [List.map_map] at hsub
  change List.Sublist _ (b.leases.map (·.2.task.id)) at hsub
  rw [h.lease_ids] at hsub
  exact h.leases_sorted.names_nodup.sublist hsub

/-- Whether claims are in their places in a broker, each under an id of its own, and have lapsed. -/
structure InPlace (b : Broker) (now : Instant) (leases : List Lease) : Prop where
  place : ∀ lease ∈ leases,
    Table.get? lease.task.id b.leases = some lease ∧ lease.expiresAt ≤ now
  differ : (leases.map (·.task.id)).Nodup

lemma inPlace_lapsed (h : b.WellFormed) (order : ReturnOrder) (now : Instant) :
    InPlace b now (order.arrange (b.lapsed now)) where
  place _ hlease := h.mem_lapsed_iff.mp ((order.perm (b.lapsed now)).mem_iff.mp hlease)
  differ := ((order.perm (b.lapsed now)).map _).nodup_iff.mpr h.lapsed_ids_nodup

/-- The claims that are still to come stay in their places, because their ids differ. -/
lemma InPlace.giveBack {leases : List Lease} (h : InPlace b now (lease :: leases)) :
    InPlace (Broker.giveBack now b lease) now leases where
  place := by
    intro other hother
    obtain ⟨hget, hlapsed⟩ := h.place other (List.mem_cons_of_mem _ hother)
    have hne : lease.task.id ≠ other.task.id := fun hid =>
      (List.nodup_cons.mp h.differ).1 (List.mem_map.mpr ⟨other, hother, hid.symm⟩)
    refine ⟨?_, hlapsed⟩
    change Table.get? other.task.id (b.dropLease lease.task.id).leases = some other
    rw [get?_dropLease, if_neg hne, hget]
  differ := (List.nodup_cons.mp h.differ).2

/-- What holds of a broker and survives the return of a claim that is in its place and has lapsed
holds after each of several such returns. -/
lemma giveBack_induction {motive : Broker → Prop} {leases rest : List Lease} (h : b.WellFormed)
    (hplace : InPlace b now (leases ++ rest)) (start : motive b)
    (step : ∀ b lease, b.WellFormed → motive b → Table.get? lease.task.id b.leases = some lease →
      lease.expiresAt ≤ now → motive (Broker.giveBack now b lease)) :
    (leases.foldl (Broker.giveBack now) b).WellFormed ∧
      motive (leases.foldl (Broker.giveBack now) b) ∧
        InPlace (leases.foldl (Broker.giveBack now) b) now rest := by
  induction leases generalizing b with
  | nil => exact ⟨h, start, hplace⟩
  | cons lease leases ih =>
    obtain ⟨hget, hlapsed⟩ := hplace.place lease List.mem_cons_self
    exact ih (h.requeue (lease.task.markPending now) now hget rfl) hplace.giveBack
      (step b lease h start hget hlapsed)

/-- What holds of a broker and survives the return of a claim that is in its place and has lapsed
holds when all lapsed claims are back, whatever the order. -/
lemma recover_induction {motive : Broker → Prop} (h : b.WellFormed) (order : ReturnOrder)
    (now : Instant) (start : motive b)
    (step : ∀ b lease, b.WellFormed → motive b → Table.get? lease.task.id b.leases = some lease →
      lease.expiresAt ≤ now → motive (Broker.giveBack now b lease)) :
    (b.recover order now).WellFormed ∧ motive (b.recover order now) := by
  have hplace := h.inPlace_lapsed order now
  rw [← List.append_nil (order.arrange _)] at hplace
  obtain ⟨hrecovered, hmotive, -⟩ := h.giveBack_induction hplace start step
  exact ⟨hrecovered, hmotive⟩

lemma recover (h : b.WellFormed) (order : ReturnOrder) (now : Instant) :
    (b.recover order now).WellFormed :=
  (h.recover_induction (motive := fun _ => True) order now trivial fun _ _ _ _ _ _ => trivial).1

lemma heldIds_recover (h : b.WellFormed) (order : ReturnOrder) (now : Instant) :
    (b.recover order now).heldIds.Perm b.heldIds := by
  refine (h.recover_induction (motive := fun next => next.heldIds.Perm b.heldIds) order now
    (List.Perm.refl _) ?_).2
  intro next lease hnext hperm hget _
  have hgive : (Broker.giveBack now next lease).heldIds.Perm next.heldIds :=
    hnext.heldIds_requeue (lease.task.markPending now) now hget rfl
  exact hgive.trans hperm

/-- The claims that are left are those that have not lapsed. -/
lemma get?_recover (h : b.WellFormed) (order : ReturnOrder) (now : Instant) :
    Table.get? id (b.recover order now).leases = some lease ↔
      Table.get? id b.leases = some lease ∧ ¬ lease.expiresAt ≤ now := by
  rw [← (h.recover order now).leases_sorted.mem_iff, ← h.leases_sorted.mem_iff]
  have hleases : (b.recover order now).leases = b.leases.filter fun item =>
      !decide (item.1 ∈ (order.arrange (b.lapsed now)).map (·.task.id)) :=
    leases_foldl_giveBack _ _ _
  rw [hleases, List.mem_filter, Bool.not_eq_true', decide_eq_false_iff_not,
    ((order.perm (b.lapsed now)).map _).mem_iff, List.mem_map]
  refine and_congr_right fun hmem => not_congr ?_
  have hget := h.leases_sorted.mem_iff.mp hmem
  constructor
  · rintro ⟨other, hother, hid⟩
    obtain ⟨hget', hlapsed⟩ := h.mem_lapsed_iff.mp hother
    rw [hid, hget, Option.some.injEq] at hget'
    rwa [hget']
  · intro hlapsed
    have hid := h.lease_id hget
    exact ⟨lease, h.mem_lapsed_iff.mpr ⟨hid.symm ▸ hget, hlapsed⟩, hid⟩

/-- What waits goes on waiting while lapsed claims go back. -/
lemma mem_recover (h : b.WellFormed) (order : ReturnOrder) (now : Instant)
    (hentry : entry ∈ b.allEntries) : entry ∈ (b.recover order now).allEntries := by
  refine (h.recover_induction (motive := fun next => entry ∈ next.allEntries) order now hentry
    fun next lease hnext ih _ _ => ?_).2
  exact (mem_push (hnext.dropLease lease.task.id).queues_sorted).mpr (.inr ih)

/-- The task of a lapsed claim waits in its queue when lapsed claims are back. -/
lemma entry_of_lapsed (h : b.WellFormed) (order : ReturnOrder)
    (hget : Table.get? id b.leases = some lease) (hlapsed : lease.expiresAt ≤ now) :
    ∃ entry ∈ (b.recover order now).allEntries,
      entry.task = lease.task.markPending now ∧ entry.eligibleAt = now := by
  -- Until its turn comes, the claim is in its place; after that, the task is in its queue.
  have hplace := (h.recover_induction (motive := fun next =>
    Table.get? id next.leases = some lease ∨ ∃ entry ∈ next.allEntries,
      entry.task = lease.task.markPending now ∧ entry.eligibleAt = now) order now (.inl hget) ?_).2
  · rcases hplace with hleft | hback
    · exact absurd hlapsed ((h.get?_recover order now).mp hleft).2
    · exact hback
  · intro next other hnext ih hother _
    have hpush : ∀ entry, entry ∈ (giveBack now next other).allEntries ↔
        entry = ⟨other.task.markPending now, now, next.sequence⟩ ∨ entry ∈ next.allEntries :=
      fun _ => mem_push (hnext.dropLease other.task.id).queues_sorted
    rcases ih with hleft | ⟨entry, hentry, hmark⟩
    · by_cases hid : other.task.id = id
      · rw [hid, hleft, Option.some.injEq] at hother
        subst hother
        exact .inr ⟨_, (hpush _).mpr (.inl rfl), rfl, rfl⟩
      · left
        change Table.get? id (next.dropLease other.task.id).leases = some lease
        rw [get?_dropLease, if_neg hid, hleft]
    · exact .inr ⟨entry, (hpush entry).mpr (.inr hentry), hmark⟩

end WellFormed
end Broker
end WorkQueue
