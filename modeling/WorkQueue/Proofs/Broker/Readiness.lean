import WorkQueue.Proofs.Broker.Withheld

/-!
# No delivery before its time

An entry of a queue has a time of its own, `eligibleAt`, and four operations set it: a submission to
the time that the task names, or to that of its making; a report that a task is to be tried again to
the end of the delay; a release, and the return of a lapsed claim, to the present.  Claims look at
this time alone.  `Ready` ties it to the task: a queued task is ready at the time of its entry, and
a claimed one is ready now.  The last part is what makes it sound to give a task back under the
present time, and it needs a clock that never goes back (`Steady`).

A task that is to be tried again is deferred to the end of the delay.  The first claim on it reads a
time that is late enough, and then the clock does not go back (`Trace.le_of_deferred`).

The main statement, `no_early_delivery`, says both of whole runs.
-/

namespace WorkQueue

/-! ## Times and tasks -/

namespace Task

variable {task : Task} {now later : Instant}

lemma isReadyAt_iff :
    task.isReadyAt now = true ↔ ∀ time, task.processAt = some time → time ≤ now := by
  unfold isReadyAt
  cases task.processAt <;> simp

lemma isReadyAt_mono (h : task.isReadyAt now = true) (hle : now ≤ later) :
    task.isReadyAt later = true := by
  rw [isReadyAt_iff] at h ⊢
  exact fun time htime => Instant.le_trans (h time htime) hle

/-- A task is ready at the time by which it is ordered. -/
lemma isReadyAt_eligibleAt (task : Task) : task.isReadyAt task.eligibleAt = true := by
  rw [isReadyAt_iff]
  intro time htime
  rw [eligibleAt, htime]
  exact Instant.le_refl time

end Task

namespace Broker

variable {b next : Broker} {task : Task} {entry : QueueEntry} {rest : List QueueEntry}
  {queue id : String} {now later bound eligibleAt : Instant} {lease : Lease} {call : Call}
  {answer : Answer}

/-- Whether the clock never goes back during some calls. -/
def Steady (calls : List Call) : Prop :=
  calls.Pairwise fun earlier later => earlier.reading ≤ later.reading

instance (calls : List Call) : Decidable (Steady calls) :=
  inferInstanceAs (Decidable (calls.Pairwise fun earlier later => earlier.reading ≤ later.reading))

/-! ## Tasks that are ready -/

/-- Whether the times in a broker fit the tasks: a queued task is ready at the time of its entry,
and a claimed one is ready now. -/
structure Ready (b : Broker) (now : Instant) : Prop where
  queued : ∀ entry ∈ b.allEntries, entry.task.isReadyAt entry.eligibleAt = true
  claimed : ∀ {id lease}, Table.get? id b.leases = some lease → lease.task.isReadyAt now = true

lemma ready_empty (limits : BrokerLimits) (now : Instant) : (empty limits).Ready now where
  queued := by simp [allEntries, empty]
  claimed := by simp [empty]

namespace Ready

lemma mono (h : b.Ready now) (hle : now ≤ later) : b.Ready later where
  queued := h.queued
  claimed hget := Task.isReadyAt_mono (h.claimed hget) hle

lemma push (h : b.Ready now) (hb : b.WellFormed) (hready : task.isReadyAt eligibleAt = true) :
    (b.push task eligibleAt).Ready now where
  queued := by
    intro entry hentry
    rcases (mem_push hb.queues_sorted).mp hentry with rfl | hentry
    · exact hready
    · exact h.queued entry hentry
  claimed := h.claimed

lemma dropLease (h : b.Ready now) (id : String) : (b.dropLease id).Ready now where
  queued := h.queued
  claimed hget := h.claimed (WellFormed.get?_of_dropLease hget).2

/-- A claimed task goes back to its queue under the present time, at which it is ready. -/
lemma giveBack (h : b.Ready now) (hb : b.WellFormed) (hget : Table.get? id b.leases = some lease) :
    ((b.dropLease id).push (lease.task.markPending now) now).Ready now :=
  (h.dropLease id).push (hb.dropLease id) (h.claimed hget)

lemma recover (h : b.Ready now) (hb : b.WellFormed) (order : ReturnOrder) :
    (b.recover order now).Ready now :=
  (hb.recover_induction (motive := fun next => next.Ready now) order now h
    fun _ _ hnext ih hget _ => ih.giveBack hnext hget).2

lemma handOver (h : b.Ready now) (hb : b.WellFormed) (hqueue : b.entries queue = entry :: rest)
    (hdue : entry.eligibleAt ≤ now) : (b.handOver queue entry rest now).Ready now where
  queued other hother := h.queued other ((mem_handOver hb.queues_sorted hqueue).mpr (.inr hother))
  claimed := by
    intro id lease hget
    rw [WellFormed.get?_handOver] at hget
    split at hget
    · cases hget
      exact Task.isReadyAt_mono (h.queued entry (hb.mem_of_entries hqueue)) hdue
    · exact h.claimed hget

end Ready

namespace Transition

/-- A call keeps the times and the tasks in accord, at the time that it reads. -/
lemma ready (h : Transition b call answer next) (hb : b.WellFormed)
    (hready : b.Ready call.reading) : next.Ready call.reading := by
  cases h with
  | turnedAway => exact hready
  | enqueued => exact hready.push hb (Task.isReadyAt_eligibleAt _)
  | unserved => exact hready.recover hb _
  | claimed first _ due => exact (hready.recover hb _).handOver (hb.recover _ _) first due
  | disowned => exact hready
  | acked => exact ⟨hready.queued, (hready.dropLease _).claimed⟩
  | retried =>
    refine (hready.dropLease _).push (hb.dropLease _) ?_
    exact Task.isReadyAt_iff.mpr fun time htime => by
      cases htime
      exact Instant.le_refl _
  | crashed => exact hready.dropLease _
  | buried => exact ⟨hready.queued, (hready.dropLease _).claimed⟩
  | released owns => exact hready.giveBack hb owns.1

end Transition

/-! ## Runs -/

lemma Steady.of_concat {calls : List Call} (h : Steady (calls ++ [call])) :
    Steady calls ∧ ∀ earlier ∈ calls, earlier.reading ≤ call.reading := by
  obtain ⟨hcalls, -, hlast⟩ := List.pairwise_append.mp h
  exact ⟨hcalls, fun earlier hearlier => hlast earlier hearlier call (List.mem_singleton_self call)⟩

namespace Trace

theorem run_ready (limits : BrokerLimits) {calls : List Call} (hclock : Steady calls)
    (hnow : ∀ call ∈ calls, call.reading ≤ now) : (run limits calls).broker.Ready now := by
  induction calls using List.reverseRecOn generalizing now with
  | nil => exact ready_empty limits now
  | append_singleton calls call ih =>
    obtain ⟨hsteady, hlast⟩ := hclock.of_concat
    have hready := ((run limits calls).transition call).ready (run_wellFormed limits calls)
      (ih hsteady hlast)
    rw [run_concat]
    exact hready.mono (hnow call (List.mem_append_right _ (List.mem_singleton_self call)))

/-- What a claim returns is ready. -/
lemma ready_of_delivered (limits : BrokerLimits) {calls : List Call} (hclock : Steady calls)
    {exchange : Exchange} (hexchange : exchange ∈ (run limits calls).history)
    (htask : exchange.delivered? = some task) :
    task.isReadyAt exchange.call.reading = true := by
  induction calls using List.reverseRecOn with
  | nil => cases hexchange
  | append_singleton calls call ih =>
    obtain ⟨hsteady, hlast⟩ := hclock.of_concat
    rw [run_concat, extend, List.mem_append, List.mem_singleton] at hexchange
    rcases hexchange with hearlier | rfl
    · exact ih hsteady hearlier
    · have htransition := (run limits calls).transition call
      have hready := htransition.ready (run_wellFormed limits calls)
        (run_ready limits hsteady hlast)
      obtain ⟨lease, hget, rfl, -⟩ := htransition.lease_of_delivered htask
      exact hready.claimed hget

/-- As long as the clock never goes back, no claim returns a deferred task too early. -/
lemma le_of_deferred {calls : List Call} (hb : b.WellFormed) (hdeferred : b.Deferred id bound)
    (hclock : Steady calls) {exchange : Exchange} (hexchange : exchange ∈ (onward b calls).history)
    (htask : exchange.delivered? = some task) (hid : task.id = id) :
    bound ≤ exchange.call.reading := by
  induction calls generalizing b with
  | nil => cases hexchange
  | cons call rest ih =>
    obtain ⟨hlater, hrest⟩ := List.pairwise_cons.mp hclock
    have htransition := serve_transition b call
    rw [onward_cons, List.mem_cons] at hexchange
    rcases hexchange with rfl | hexchange
    · exact htransition.le_of_withheld hb (.inr hdeferred) htask hid
    · by_cases hfirst : ∃ first, Exchange.delivered? ⟨call, (b.serve call).1⟩ = some first ∧
        first.id = id
      · -- It is late enough at the first claim on the task, and does not become earlier.
        obtain ⟨first, hdelivered, hsame⟩ := hfirst
        have hbound := htransition.le_of_withheld hb (.inr hdeferred) hdelivered hsame
        have hmem : exchange.call ∈ rest :=
          onward_calls (b.serve call).2 rest ▸ List.mem_map_of_mem hexchange
        exact Instant.le_trans hbound (hlater exchange.call hmem)
      · have hnext := htransition.deferred hb hdeferred fun other hdelivered hsame =>
          hfirst ⟨other, hdelivered, hsame⟩
        exact ih (htransition.wellFormed hb) hnext hrest hexchange

end Trace

/-- What it means that no claim of a history returned a task before its time. -/
structure History.NeverEarly (history : History) : Prop where
  /-- Every task that a claim returned was ready at that time. -/
  ready : ∀ exchange ∈ history, ∀ task, exchange.delivered? = some task →
    task.isReadyAt exchange.call.reading = true
  /-- Once a report that a task is to be tried again after a delay was accepted, no claim returned
  the task before the end of the delay. -/
  deferred : ∀ before report delay error time result after,
    history = before ++ ⟨.retry report delay error time, .ok result⟩ :: after →
      ∀ exchange ∈ after, ∀ task, exchange.delivered? = some task → task.id = report.id →
        time.after delay ≤ exchange.call.reading

/-- **No task is delivered before its time.**  This holds of every run whose clock never goes back,
whatever was released, lapsed and was tried again in it. -/
theorem no_early_delivery (limits : BrokerLimits) (calls : List Call) (hclock : Steady calls) :
    (Trace.run limits calls).history.NeverEarly where
  ready _ hexchange _ htask := Trace.ready_of_delivered limits hclock hexchange htask
  deferred := by
    intro before report delay error time result after hhistory exchange hexchange task htask hid
    obtain ⟨first, next, rest, rfl, -, hserve, honward⟩ := Trace.run_cut hhistory
    have htransition := Transition.of_serve hserve
    have hb := Trace.run_wellFormed limits first
    have hrest : Steady rest := (List.pairwise_cons.mp (List.pairwise_append.mp hclock).2.1).2
    refine Trace.le_of_deferred (htransition.wellFormed hb) (htransition.deferred_of_retried hb)
      hrest ?_ htask hid
    rwa [honward]

/-! ### A letter for later that is tried twice -/

/-- A letter that is to be sent nine seconds after it is written. -/
def lateLetter : Task :=
  { Task.create "late" "letter" [] 1 .epoch with processAt := some (Instant.ofMillis 9000) }

/-- The letter is asked for too early, then in time; it is to be tried again after five seconds,
and is again asked for too early and then in time. -/
def lateCalls : List Call :=
  [.enqueue lateLetter .epoch,
   .claim .listed (.single "default") [] (Instant.ofMillis 5000),
   .claim .listed (.single "default") [] (Instant.ofMillis 9000),
   .retry { lateLetter with lease := some 1 } (Duration.ofSeconds 5) "busy"
     (Instant.ofMillis 10000),
   .claim .listed (.single "default") [] (Instant.ofMillis 12000),
   .claim .listed (.single "default") [] (Instant.ofMillis 15000)]

theorem late_letter_in_time :
    Steady lateCalls ∧
      (Trace.run ⟨1, Duration.ofSeconds 30, 1, 1, .crashes⟩ lateCalls).history.NeverEarly ∧
      ((Trace.run ⟨1, Duration.ofSeconds 30, 1, 1, .crashes⟩ lateCalls).history.filter
        (·.delivered?.isSome)).map (·.call.reading) =
          [Instant.ofMillis 9000, Instant.ofMillis 15000] :=
  ⟨by decide +kernel, no_early_delivery _ lateCalls (by decide +kernel), by decide +kernel⟩

end Broker
end WorkQueue
