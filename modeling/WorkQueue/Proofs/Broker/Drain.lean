import WorkQueue.Proofs.Broker.Due

/-!
# Claims drain what is due

The main statement is `claims_drain_due`: claims that follow each other at one time return the tasks
that were due in the served queues, each once, and after that nothing.  One claim takes one task out
of what is due, or finds nothing because there is nothing (`Transition.claimable_cases`), and the
claim that it makes is not over at the same time.  From this the answers of any number of claims
follow by induction (`answers_claims`); what they do not return stays where it is
(`claims_induction`).

Neither chance nor the order in which lapsed claims go back has a part in this: both are arguments
of every single claim.
-/

namespace WorkQueue
namespace Broker

variable {b : Broker} {weights : QueueWeights} {entry : QueueEntry} {rest : List QueueEntry}
  {queue id : String} {now : Instant} {lease : Lease} {order : ReturnOrder} {words : List UInt32}

/-! ## One claim -/

namespace Transition

variable {answer : Answer} {next : Broker}

/-- A claim finds nothing, and then there is nothing, or it takes one task out of what is due and
gives it the next token. -/
lemma claimable_cases (h : Transition b (.claim order weights words now) answer next)
    (hb : b.WellFormed) (hordered : b.Ordered)
    (hfresh : ¬ now.after b.limits.visibilityTimeout ≤ now) :
    (answer = .error .queueEmpty ∧ b.claimable weights now = [] ∧
      next.claimable weights now = []) ∨
    ∃ task : Task,
      answer = .ok (some { task.markRunning now with lease := some (b.nextLease + 1) }) ∧
      next.nextLease = b.nextLease + 1 ∧
        (marked now (b.claimable weights now)).Perm
          (task.markPending now :: marked now (next.claimable weights now)) := by
  have hrecovered := hb.recover order now
  have hback := claimable_recover hb weights order now
  cases h with
  | unserved idle =>
    have hnone := (claimable_eq_nil_iff hrecovered (hordered.recover hb order now)
      (lapsed_recover hb order now)).mpr idle
    rw [hnone] at hback
    exact .inl ⟨rfl, List.map_eq_nil_iff.mp hback.symm.eq_nil, hnone⟩
  | @claimed _ _ _ _ _ entry _ first served due =>
    have htake := marked_perm now (claimable_handOver hrecovered first served due
      (by rwa [recover_limits]))
    refine .inr ⟨entry.task, ?_, ?_, hback.symm.trans htake⟩
    · rw [delivery, recover_nextLease]
    · rw [handOver, recover_nextLease]
  | disowned isReport => cases isReport

end Transition

/-! ## Claims one after the other -/

/-- What chance brings to a claim: the order in which lapsed claims go back, and random words. -/
abbrev Chance := ReturnOrder × List UInt32

/-- Claims on the same queues at the same time. -/
def claims (weights : QueueWeights) (now : Instant) (chances : List Chance) : List Call :=
  chances.map fun chance => .claim chance.1 weights chance.2 now

/-- The answer to the `n`-th claim at a time, if claims return these tasks in turn and the first of
them has a token. -/
def turn (tasks : List Task) (token : Nat) (now : Instant) (n : Nat) : Answer :=
  match tasks[n]? with
  | some task => .ok (some { task.markRunning now with lease := some (token + n) })
  | none => .error .queueEmpty

lemma turn_marked (tasks : List Task) (token : Nat) (now : Instant) :
    turn (marked now tasks) token now = turn tasks token now := by
  funext n
  simp only [turn, marked, List.getElem?_map]
  cases tasks[n]? <;> rfl

lemma turn_cons_succ (task : Task) (tasks : List Task) (token : Nat) (now : Instant) (n : Nat) :
    turn (task :: tasks) token now (n + 1) = turn tasks (token + 1) now n := by
  simp only [turn, List.getElem?_cons_succ, Nat.add_assoc, Nat.add_comm 1 n]

/-- Claims return what is due, one task after the other, and then nothing. -/
lemma answers_claims (weights : QueueWeights) (hb : b.WellFormed) (hordered : b.Ordered)
    (hfresh : ¬ now.after b.limits.visibilityTimeout ≤ now) (chances : List Chance) :
    ∃ tasks, tasks.Perm (marked now (b.claimable weights now)) ∧
      (Trace.onward b (claims weights now chances)).history.map (·.answer) =
        (List.range chances.length).map (turn tasks (b.nextLease + 1) now) := by
  induction chances generalizing b with
  | nil => exact ⟨_, List.Perm.refl _, rfl⟩
  | cons chance rest ih =>
    have htransition := claim_transition b chance.1 weights chance.2 now
    have hlimits := htransition.limits_eq
    obtain ⟨tasks, hperm, hanswers⟩ := ih (htransition.wellFormed hb)
      (htransition.ordered hb hordered) (by rwa [hlimits])
    simp only [claims, List.map_cons, Trace.onward_cons, List.length_cons,
      List.range_succ_eq_map, List.map_map] at hanswers ⊢
    rw [hanswers]
    rcases htransition.claimable_cases hb hordered hfresh with
      ⟨hanswer, hnone, hrest⟩ | ⟨task, hanswer, htoken, htake⟩
    · -- Nothing is due, so nothing is returned, now or later.
      rw [hrest] at hperm
      have htasks : tasks = [] := hperm.eq_nil
      refine ⟨[], by rw [hnone]; exact List.Perm.refl _, ?_⟩
      rw [hanswer, htasks]
      rfl
    · refine ⟨task.markPending now :: tasks, (hperm.cons _).trans htake.symm, ?_⟩
      rw [hanswer, htoken]
      refine congrArg _ (List.map_congr_left fun n _ => ?_)
      exact (turn_cons_succ _ tasks (b.nextLease + 1) now n).symm

/-! ## What claims leave alone -/

/-- What one claim keeps, claims one after the other keep. -/
lemma claims_induction {motive : Broker → Prop} (hb : b.WellFormed) (start : motive b)
    (step : ∀ {b : Broker} {order words answer next}, b.WellFormed →
      Transition b (.claim order weights words now) answer next → motive b → motive next)
    (chances : List Chance) :
    motive (Trace.onward b (claims weights now chances)).broker := by
  induction chances generalizing b with
  | nil => exact start
  | cons chance rest ih =>
    have htransition := claim_transition b chance.1 weights chance.2 now
    rw [claims, List.map_cons, Trace.onward_cons]
    exact ih (htransition.wellFormed hb) (step hb htransition start)

lemma spared_of_handOver {other : QueueEntry} (hb : b.WellFormed)
    (hqueue : b.entries queue = entry :: rest) (hserved : queue ∈ weights.names)
    (hdue : entry.eligibleAt ≤ now) (hother : other ∈ b.allEntries)
    (hspared : ¬ (other.task.queue ∈ weights.names ∧ other.eligibleAt ≤ now)) :
    other ∈ (b.handOver queue entry rest now).allEntries := by
  rcases (mem_handOver hb.queues_sorted hqueue).mp hother with rfl | hmem
  · have hname : other.task.queue = queue := hb.entry_queue (hqueue ▸ List.mem_cons_self)
    exact absurd ⟨hname ▸ hserved, hdue⟩ hspared
  · exact hmem

namespace Transition

variable {answer : Answer} {next : Broker}

/-- What waits after the return of lapsed claims, and is not due in a served queue, waits after the
claim. -/
lemma mem_of_recover (h : Transition b (.claim order weights words now) answer next)
    (hb : b.WellFormed) (hentry : entry ∈ (b.recover order now).allEntries)
    (hspared : ¬ (entry.task.queue ∈ weights.names ∧ entry.eligibleAt ≤ now)) :
    entry ∈ next.allEntries := by
  cases h with
  | unserved => exact hentry
  | claimed first served due =>
    exact spared_of_handOver (hb.recover order now) first served due hentry hspared
  | disowned isReport => cases isReport

lemma keeps_entry (h : Transition b (.claim order weights words now) answer next)
    (hb : b.WellFormed) (hentry : entry ∈ b.allEntries)
    (hspared : ¬ (entry.task.queue ∈ weights.names ∧ entry.eligibleAt ≤ now)) :
    entry ∈ next.allEntries :=
  h.mem_of_recover hb (hb.mem_recover order now hentry) hspared

lemma keeps_lease (h : Transition b (.claim order weights words now) answer next)
    (hb : b.WellFormed) (hget : Table.get? id b.leases = some lease)
    (hstands : ¬ lease.expiresAt ≤ now) : Table.get? id next.leases = some lease :=
  (h.get?_leases hb).mpr (.inl ⟨hget, fun hends => hstands (Exchange.ends_claim_iff.mp hends)⟩)

end Transition

/-! ## The drain -/

/-- Whether no claim of a history returned a task with an id. -/
def Spares (history : History) (id : String) : Prop :=
  ∀ exchange ∈ history, ∀ task, exchange.answer = .ok (some task) → task.id ≠ id

/-- What claims on some queues, one after the other at one time, do to a broker. -/
structure Drains (b : Broker) (weights : QueueWeights) (now : Instant) (chances : List Chance) :
    Prop where
  /-- They return what is due in these queues, in some order, one task after the other under the
  tokens that come next, and after that they find nothing. -/
  answers : ∃ tasks, tasks.Perm (b.claimable weights now) ∧
    (Trace.onward b (claims weights now chances)).history.map (·.answer) =
      (List.range chances.length).map (turn tasks (b.nextLease + 1) now)
  /-- No id is due twice. -/
  once : ((b.claimable weights now).map (·.id)).Nodup
  /-- What waits in another queue or for a later time waits on. -/
  waiting : ∀ entry ∈ b.allEntries,
    ¬ (entry.task.queue ∈ weights.names ∧ entry.eligibleAt ≤ now) →
      entry ∈ (Trace.onward b (claims weights now chances)).broker.allEntries ∧
        Spares (Trace.onward b (claims weights now chances)).history entry.task.id
  /-- A claim that has not lapsed stands on. -/
  standing : ∀ id lease, Table.get? id b.leases = some lease → ¬ lease.expiresAt ≤ now →
    Table.get? id (Trace.onward b (claims weights now chances)).broker.leases = some lease ∧
      Spares (Trace.onward b (claims weights now chances)).history id
  /-- The task of a lapsed claim that belongs to another queue goes back there. -/
  returned : ∀ id lease, Table.get? id b.leases = some lease → lease.expiresAt ≤ now →
    lease.task.queue ∉ weights.names → chances ≠ [] →
      (∃ entry ∈ (Trace.onward b (claims weights now chances)).broker.allEntries,
        entry.task = lease.task.markPending now ∧ entry.eligibleAt = now) ∧
      Spares (Trace.onward b (claims weights now chances)).history id
  /-- The broker holds what it held. -/
  held : (Trace.onward b (claims weights now chances)).broker.heldIds.Perm b.heldIds
  /-- A claim finds nothing exactly if no served queue has an entry that is due or a task under a
  lapsed claim. -/
  idle : ∀ order words, (b.serve (.claim order weights words now)).1 = .error .queueEmpty ↔
    (∀ entry ∈ b.allEntries, entry.task.queue ∈ weights.names → ¬ entry.eligibleAt ≤ now) ∧
      ∀ id lease, Table.get? id b.leases = some lease → lease.task.queue ∈ weights.names →
        ¬ lease.expiresAt ≤ now

/-- What cannot be claimed is not returned. -/
lemma spares_of_not_claimable {tasks : List Task} {token : Nat} {history : History}
    (hperm : tasks.Perm (b.claimable weights now)) {count : Nat}
    (hanswers : history.map (·.answer) = (List.range count).map (turn tasks token now))
    (hid : ∀ task ∈ b.claimable weights now, task.id ≠ id) : Spares history id := by
  intro exchange hexchange task htask
  have hmem : exchange.answer ∈ history.map (·.answer) := List.mem_map_of_mem hexchange
  rw [hanswers, htask] at hmem
  obtain ⟨n, -, hturn⟩ := List.mem_map.mp hmem
  unfold turn at hturn
  split at hturn
  · next due hdue =>
    cases hturn
    exact hid due (hperm.mem_iff.mp (List.mem_of_getElem? hdue))
  · cases hturn

lemma heldIds_claims (hb : b.WellFormed) (chances : List Chance) :
    (Trace.onward b (claims weights now chances)).broker.heldIds.Perm b.heldIds := by
  refine claims_induction (motive := fun next => next.heldIds.Perm b.heldIds) hb
    (List.Perm.refl _) (fun {next order words answer after} hnext htransition ih => ?_) chances
  cases htransition with
  | unserved => exact (hnext.heldIds_recover _ _).trans ih
  | claimed first =>
    exact ((hnext.recover _ _).heldIds_handOver first _).trans
      ((hnext.heldIds_recover _ _).trans ih)
  | disowned isReport => cases isReport

lemma entry_after_claims (hb : b.WellFormed) (hentry : entry ∈ b.allEntries)
    (hspared : ¬ (entry.task.queue ∈ weights.names ∧ entry.eligibleAt ≤ now))
    (chances : List Chance) :
    entry ∈ (Trace.onward b (claims weights now chances)).broker.allEntries :=
  claims_induction (motive := fun next => entry ∈ next.allEntries) hb hentry
    (fun hnext htransition ih => htransition.keeps_entry hnext ih hspared) chances

lemma lease_after_claims (hb : b.WellFormed) (hget : Table.get? id b.leases = some lease)
    (hstands : ¬ lease.expiresAt ≤ now) (chances : List Chance) :
    Table.get? id (Trace.onward b (claims weights now chances)).broker.leases = some lease :=
  claims_induction (motive := fun next => Table.get? id next.leases = some lease) hb hget
    (fun hnext htransition ih => htransition.keeps_lease hnext ih hstands) chances

/-- The first of several claims puts the task of a lapsed claim back into its queue, and if that
queue is not served, the task stays there. -/
lemma lapsed_after_claims (hb : b.WellFormed) (hget : Table.get? id b.leases = some lease)
    (hlapsed : lease.expiresAt ≤ now) (hunserved : lease.task.queue ∉ weights.names)
    {chances : List Chance} (hsome : chances ≠ []) :
    ∃ entry ∈ (Trace.onward b (claims weights now chances)).broker.allEntries,
      entry.task = lease.task.markPending now ∧ entry.eligibleAt = now := by
  obtain ⟨chance, rest, rfl⟩ := List.exists_cons_of_ne_nil hsome
  obtain ⟨entry, hentry, htask, hdue⟩ := hb.entry_of_lapsed chance.1 hget hlapsed
  have hspared : ¬ (entry.task.queue ∈ weights.names ∧ entry.eligibleAt ≤ now) := by
    rw [htask]
    exact fun h => hunserved h.1
  have htransition := claim_transition b chance.1 weights chance.2 now
  have hfirst := htransition.mem_of_recover hb hentry hspared
  rw [claims, List.map_cons, Trace.onward_cons]
  exact ⟨entry, entry_after_claims (htransition.wellFormed hb) hfirst hspared rest, htask, hdue⟩

/-- A claim finds nothing exactly if nothing is due in the served queues. -/
lemma claim_empty_iff (hb : b.WellFormed) (hordered : b.Ordered)
    (hfresh : ¬ now.after b.limits.visibilityTimeout ≤ now) (order : ReturnOrder)
    (words : List UInt32) :
    (b.serve (.claim order weights words now)).1 = .error .queueEmpty ↔
      b.claimable weights now = [] := by
  rcases (claim_transition b order weights words now).claimable_cases hb hordered hfresh with
    ⟨hanswer, hnone, -⟩ | ⟨task, hanswer, -, htake⟩
  · exact ⟨fun _ => hnone, fun _ => hanswer⟩
  · rw [hanswer]
    constructor
    · intro hempty
      cases hempty
    · intro hnone
      rw [hnone] at htake
      cases htake.nil_eq

/-- **Claims drain exactly what is due.**  After every run, claims at one time before the end of
time, with no other call in between, return the tasks that are due in the served queues at that
time, each once and under a token of its own, and then nothing; what is not due, or not served,
stays.  This is so whatever the weights are, and whatever chance brings to each of the claims. -/
theorem claims_drain_due (limits : BrokerLimits) (calls : List Call) (weights : QueueWeights)
    (now : Instant) (chances : List Chance) (hnow : now < Instant.latest)
    (htimeout : limits.visibilityTimeout ≠ Duration.zero) :
    Drains (Trace.run limits calls).broker weights now chances := by
  have hb := Trace.run_wellFormed limits calls
  have hordered := Trace.run_ordered limits calls
  have hlimits := Trace.run_limits limits calls
  have hpositive : 0 < limits.visibilityTimeout.nanos := by
    refine Nat.pos_of_ne_zero fun hzero => htimeout ?_
    cases hlength : limits.visibilityTimeout
    simp only [hlength] at hzero
    simp only [hzero, Duration.zero]
  have hfresh : ¬ now.after (Trace.run limits calls).broker.limits.visibilityTimeout ≤ now := by
    rw [hlimits]
    exact Instant.not_after_le hnow hpositive
  obtain ⟨marks, hmarks, hanswers⟩ := answers_claims weights hb hordered hfresh chances
  -- The marked tasks in another order are the tasks in another order, marked.
  rw [marked, ← congrFun₂ (List.eq_map_comp_perm _)] at hmarks
  obtain ⟨tasks, rfl, hperm⟩ := hmarks
  change _ = (List.range chances.length).map (turn (marked now tasks) _ now) at hanswers
  rw [turn_marked] at hanswers
  exact {
    answers := ⟨tasks, hperm, hanswers⟩
    once := claimable_ids_nodup hb
    waiting := fun entry hentry hspared =>
      ⟨entry_after_claims hb hentry hspared chances,
        spares_of_not_claimable hperm hanswers (not_claimable_of_entry hb hentry hspared)⟩
    standing := fun id lease hget hstands =>
      ⟨lease_after_claims hb hget hstands chances,
        spares_of_not_claimable hperm hanswers
          (not_claimable_of_lease hb hget fun h => hstands h.2)⟩
    returned := fun id lease hget hlapsed hunserved hsome =>
      ⟨lapsed_after_claims hb hget hlapsed hunserved hsome,
        spares_of_not_claimable hperm hanswers
          (not_claimable_of_lease hb hget fun h => hunserved h.1)⟩
    held := heldIds_claims hb chances
    idle := fun order words =>
      (claim_empty_iff hb hordered hfresh order words).trans (claimable_eq_nil hb) }

/-! ### A letter that was claimed, one that waits, one for later and one elsewhere -/

/-- A letter that is in a queue from the start of 1970. -/
def letterFor (queue id : String) : Task :=
  { Task.create id "letter" [] 0 .epoch with queue := queue }

/-- Room for five letters in a queue, and two seconds for each claim. -/
def mailLimits : BrokerLimits := ⟨5, Duration.ofSeconds 2, 1, 1, .crashes⟩

/-- Four letters are submitted and the first one is claimed. -/
def mailCalls : List Call :=
  [.enqueue (letterFor "mail" "a") .epoch,
   .claim .listed (.single "mail") [] .epoch,
   .enqueue (letterFor "mail" "b") .epoch,
   .enqueue { letterFor "mail" "c" with processAt := some (Instant.ofMillis 9000) } .epoch,
   .enqueue (letterFor "parcels" "d") .epoch]

theorem mail_drained :
    Instant.ofMillis 5000 < Instant.latest ∧ mailLimits.visibilityTimeout ≠ Duration.zero ∧
      Drains (Trace.run mailLimits mailCalls).broker (.single "mail") (Instant.ofMillis 5000)
        [(.listed, []), (.listed, []), (.listed, [])] ∧
      ((Trace.run mailLimits mailCalls).broker.claimable (.single "mail")
        (Instant.ofMillis 5000)).map (·.id) = ["b", "a"] :=
  ⟨by decide +kernel, by decide +kernel,
    claims_drain_due mailLimits mailCalls (.single "mail") (Instant.ofMillis 5000) _
      (by decide +kernel) (by decide +kernel), by decide +kernel⟩

end Broker
end WorkQueue
