import WorkQueue.Proofs.Fleet.Basic
import WorkQueue.Proofs.Time.Instant

/-!
# Shifts

A shift is a fleet with timers.  Its clock shows `origin` at the start and runs with the timers, up
to the latest instant, where it would stand still.  A worker that claims a task has the time of the
pool for it: the clock does not go on beyond that before the worker has reported.  Everything else
is open, so that a shift is whatever handlers, clients, chance, and stops and starts of the pool can
make of it.

The main statement is `Shift.Safe.exclusive`: no two workers have the same task in hand, and none of
their reports is refused.  The argument is that the claim under which a worker has a task in hand
outlives the time of the worker (`Shift.Guarded`).  That is so when it is made, because `Pool.make`
has compared the two lengths (`taskTimeout_lt_of_make`), and nothing but the worker's own report can
end it before.
-/

namespace WorkQueue

open Broker

/-! ## The comparison of a pool -/

section Make

variable {config : Config} {broker : Broker} {registry : Registry} {hook : ErrorHook} {pool : Pool}

/-- A pool that is accepted is that of its configuration. -/
lemma Pool.make_eq (h : Pool.make config broker registry hook = .ok pool) :
    config.validate = .ok () ∧ config.taskTimeout.nanos < broker.limits.visibilityTimeout.nanos ∧
      pool = {
        workerCount := config.workerCount
        weights := config.queueWeights
        policy := config.retryPolicy
        taskTimeout := config.taskTimeout
        pollInterval := config.pollInterval
        registry := registry
        hook := hook } := by
  unfold Pool.make at h
  cases hvalid : config.validate with
  | error problem =>
    rw [hvalid] at h
    cases h
  | ok valid =>
    rw [hvalid] at h
    by_cases hle : broker.limits.visibilityTimeout ≤ config.taskTimeout
    · simp only [hle, if_true] at h
      cases h
    · simp only [hle, if_false] at h
      cases h
      exact ⟨rfl, Nat.lt_of_not_le hle, rfl⟩

lemma Pool.taskTimeout_lt_of_make (h : Pool.make config broker registry hook = .ok pool) :
    pool.taskTimeout.nanos < broker.limits.visibilityTimeout.nanos := by
  obtain ⟨-, hlt, rfl⟩ := Pool.make_eq h
  exact hlt

lemma Pool.registry_of_make (h : Pool.make config broker registry hook = .ok pool) :
    pool.registry = registry := by
  obtain ⟨-, -, rfl⟩ := Pool.make_eq h
  rfl

end Make

/-! ## Exclusion -/

/-- Whether no two workers have tasks of the same id in hand, and every report of a worker on the
task that it has in hand is accepted, however the execution of the task ended. -/
structure Exclusive (pool : Pool) (hands : Nat → Option Task) (b : Broker) (now : Instant) :
    Prop where
  sole : ∀ worker other task task', hands worker = some task → hands other = some task' →
    task.id = task'.id → worker = other
  accepted : ∀ worker task, hands worker = some task → ∀ draw ending,
    ∃ record next, (pool.reportOn draw task ending).perform b task now = (.ok record, next)

/-! ## Shifts -/

/-- A fleet with timers. -/
structure Shift where
  fleet : Fleet
  /-- The nanoseconds since the start. -/
  elapsed : Nat
  /-- The time by which each worker that has a task in hand is to report on it. -/
  due : Nat → Nat

namespace Shift

/-- What the clock shows some time after it showed `origin`. -/
def clock (origin : Int) (elapsed : Nat) : Instant :=
  Instant.ofNanos (origin + elapsed)

/-- A step of a shift. -/
inductive Step (pool : Pool) (origin : Int) (shift : Shift) : Shift → Prop
  /-- A client submits a task. -/
  | enqueue (task : Task) :
      Step pool origin shift { shift with
        fleet := shift.fleet.apply (.enqueue task (clock origin shift.elapsed)) }
  /-- A worker with empty hands claims a task. -/
  | claim (worker : Nat) (order : ReturnOrder) (words : List UInt32)
      (idle : shift.fleet.hands worker = none) :
      Step pool origin shift { shift with
        fleet := shift.fleet.apply
          (.claim worker order pool.weights words (clock origin shift.elapsed))
        due := Function.update shift.due worker (shift.elapsed + pool.taskTimeout.nanos) }
  /-- The execution of the task that a worker has in hand ends, and the worker reports. -/
  | finish (worker : Nat) (draw : Nat) (ending : Ending) :
      Step pool origin shift { shift with
        fleet := shift.fleet.apply
          (.finish worker pool draw ending (clock origin shift.elapsed)) }
  /-- A worker is stopped where it is. -/
  | abandon (worker : Nat) :
      Step pool origin shift { shift with fleet := shift.fleet.apply (.abandon worker) }
  /-- Time passes, but not beyond the time of a worker. -/
  | wait (later : Nat) (forward : shift.elapsed ≤ later)
      (timely : ∀ worker task, shift.fleet.hands worker = some task → later ≤ shift.due worker)
      (runs : clock origin later < Instant.latest) :
      Step pool origin shift { shift with elapsed := later }

/-- The shifts of a pool on a new broker. -/
inductive Reachable (pool : Pool) (limits : BrokerLimits) (origin : Int) : Shift → Prop
  | start (runs : clock origin 0 < Instant.latest) :
      Reachable pool limits origin ⟨Fleet.start limits, 0, fun _ => 0⟩
  | step {shift next : Shift} (reached : Reachable pool limits origin shift)
      (step : Step pool origin shift next) : Reachable pool limits origin next

variable {pool : Pool} {limits : BrokerLimits} {origin : Int} {shift next : Shift}
  {worker : Nat} {task : Task}

/-- A step of a shift is an event of its fleet, or none. -/
lemma Step.run (h : Step pool origin shift next)
    (hrun : ∃ events, shift.fleet = Fleet.run limits events) :
    ∃ events, next.fleet = Fleet.run limits events := by
  obtain ⟨events, hevents⟩ := hrun
  cases h with
  | enqueue | claim | finish | abandon =>
    rw [hevents, ← Fleet.run_concat]
    exact ⟨_, rfl⟩
  | wait => exact ⟨events, hevents⟩

/-- The fleet of a shift is a run of a fleet. -/
lemma Reachable.run (h : Reachable pool limits origin shift) :
    ∃ events, shift.fleet = Fleet.run limits events := by
  induction h with
  | start => exact ⟨[], rfl⟩
  | step _ step ih => exact step.run ih

/-! ## Claims that outlive their workers -/

/-- Whether the claim under which a worker has a task in hand is in its place and will not lapse
before the worker's time is over, and no other worker has the task in hand. -/
structure Guarded (origin : Int) (shift : Shift) (worker : Nat) (task : Task) : Prop where
  timely : shift.elapsed ≤ shift.due worker
  claimed : ∃ lease, Table.get? task.id shift.fleet.trace.broker.leases = some lease ∧
    lease.task = task ∧ ∀ time, shift.elapsed ≤ time → time ≤ shift.due worker →
      clock origin time < Instant.latest → ¬ lease.expiresAt ≤ clock origin time
  sole : ∀ other, shift.fleet.hands other = some task → other = worker

/-- What holds of a shift at every moment. -/
structure Safe (origin : Int) (shift : Shift) : Prop where
  runs : clock origin shift.elapsed < Instant.latest
  guarded : ∀ worker task, shift.fleet.hands worker = some task →
    shift.Guarded origin worker task

lemma Reachable.wellFormed (h : Reachable pool limits origin shift) :
    shift.fleet.trace.broker.WellFormed ∧ shift.fleet.trace.broker.limits = limits := by
  obtain ⟨events, hevents⟩ := h.run
  obtain ⟨calls, hcalls⟩ := Fleet.run_trace limits events
  rw [hevents, hcalls]
  exact ⟨Trace.run_wellFormed limits calls, Trace.run_limits limits calls⟩

/-- A claim that a call does not end stays in its place. -/
lemma lease_stays {trace : Trace} (hb : trace.broker.WellFormed) {call : Call} {id : String}
    {lease : Lease} (hget : Table.get? id trace.broker.leases = some lease)
    (hends : ¬ Exchange.Ends ⟨call, (trace.broker.serve call).1⟩ (some lease.token)
      lease.expiresAt) : Table.get? id (trace.extend call).broker.leases = some lease :=
  ((trace.transition call).get?_leases hb).mpr (.inl ⟨hget, hends⟩)

lemma Guarded.owns (h : shift.Guarded origin worker task)
    (hb : shift.fleet.trace.broker.WellFormed) :
    ∃ lease, shift.fleet.trace.broker.Owns task lease ∧ lease.task = task := by
  obtain ⟨lease, hget, hlease, -⟩ := h.claimed
  refine ⟨lease, ⟨hget, ?_⟩, hlease⟩
  rw [← hlease]
  exact hb.lease_token hget

/-! ### The steps -/

/-- A call that reports on no task in a worker's hand does the workers no harm, whoever makes it. -/
lemma safe_call (hb : shift.fleet.trace.broker.WellFormed) (h : shift.Safe origin) {call : Call}
    (htime : call.reading = clock origin shift.elapsed)
    (hforeign : ∀ report, call.report? = some report → ∀ worker task,
      shift.fleet.hands worker = some task → report.lease ≠ task.lease) :
    Safe origin { shift with
      fleet := { shift.fleet with trace := shift.fleet.trace.extend call } } where
  runs := h.runs
  guarded worker task hhands := by
    obtain ⟨htimely, ⟨lease, hget, hlease, hlasts⟩, hsole⟩ := h.guarded worker task hhands
    refine ⟨htimely, ⟨lease, lease_stays hb hget ?_, hlease, hlasts⟩, hsole⟩
    have htoken := hb.lease_token hget
    rw [hlease] at htoken
    rintro (⟨report, hreported, hreport⟩ | ⟨order, weights, words, now, hcall, hle⟩)
    · have hmade := ((shift.fleet.trace.transition call).owns_of_spent hreported).1
      exact hforeign report hmade worker task hhands (hreport.trans htoken.symm)
    · have hcall' : call = .claim order weights words now := hcall
      subst hcall'
      have hnow : now = clock origin shift.elapsed := htime
      rw [hnow] at hle
      exact hlasts shift.elapsed (Nat.le_refl _) htimely h.runs hle

/-- An envelope that a claim returns is in no hand yet, because its token is new. -/
lemma not_in_hand {call : Call} (hb : shift.fleet.trace.broker.WellFormed) (h : shift.Safe origin)
    (hdelivered : Exchange.delivered? ⟨call, (shift.fleet.trace.broker.serve call).1⟩ = some task)
    (other : Nat) : shift.fleet.hands other ≠ some task := by
  intro hhands
  obtain ⟨lease, hget, hlease, -⟩ := (h.guarded other task hhands).claimed
  have hnext := (shift.fleet.trace.transition call).nextLease_eq
  rw [hdelivered] at hnext
  have htoken := hb.lease_token hget
  rw [hlease, hnext.1, Option.some.injEq] at htoken
  have hle := hb.token_le hget
  omega

lemma safe_claim (hb : shift.fleet.trace.broker.WellFormed) (h : shift.Safe origin)
    (hlength : pool.taskTimeout.nanos <
      shift.fleet.trace.broker.limits.visibilityTimeout.nanos)
    (claimer : Nat) (order : ReturnOrder) (words : List UInt32) :
    Safe origin { shift with
      fleet := shift.fleet.apply
        (.claim claimer order pool.weights words (clock origin shift.elapsed))
      due := Function.update shift.due claimer (shift.elapsed + pool.taskTimeout.nanos) } where
  runs := h.runs
  guarded worker task hhands := by
    have hreturned : ∀ task, (shift.fleet.trace.broker.serve
        (.claim order pool.weights words (clock origin shift.elapsed))).1 = .ok (some task) →
        Exchange.delivered? ⟨.claim order pool.weights words (clock origin shift.elapsed),
          (shift.fleet.trace.broker.serve
            (.claim order pool.weights words (clock origin shift.elapsed))).1⟩ = some task :=
      fun task hanswer => by
        rw [hanswer]
        rfl
    simp only [Fleet.apply, Function.update_apply] at hhands
    by_cases hworker : worker = claimer
    · -- The claim is new.
      subst hworker
      rw [if_pos rfl] at hhands
      have hanswer := Fleet.taken_eq_some.mp hhands
      have htransition := shift.fleet.trace.transition
        (.claim order pool.weights words (clock origin shift.elapsed))
      have hnext := htransition.nextLease_eq
      rw [hreturned task hanswer] at hnext
      refine ⟨?_, ⟨⟨task, shift.fleet.trace.broker.nextLease + 1,
        (clock origin shift.elapsed).after
          shift.fleet.trace.broker.limits.visibilityTimeout⟩, ?_, rfl, ?_⟩, ?_⟩
      · simp
      · refine (htransition.get?_leases hb).mpr (.inr ⟨rfl, ?_⟩)
        rw [hanswer]
        exact ⟨order, pool.weights, words, _, rfl, hnext.1, rfl⟩
      · intro time hfrom hto hclock
        simp only [Function.update_self] at hto hfrom
        obtain ⟨waited, rfl⟩ := Nat.exists_eq_add_of_le hfrom
        have hwaited : waited <
            shift.fleet.trace.broker.limits.visibilityTimeout.nanos := by omega
        unfold clock at hclock ⊢
        rw [Int.natCast_add, ← Int.add_assoc] at hclock ⊢
        exact Instant.not_after_le_ofNanos hwaited hclock
      · intro other hother
        simp only [Fleet.apply, Function.update_apply] at hother
        by_contra hne
        rw [if_neg hne] at hother
        exact not_in_hand hb h (hreturned task hanswer) other hother
    · -- An earlier claim has not lapsed.
      rw [if_neg hworker] at hhands
      obtain ⟨htimely, ⟨lease, hget, hlease, hlasts⟩, hsole⟩ := h.guarded worker task hhands
      refine ⟨?_, ⟨lease, lease_stays hb hget ?_, hlease, ?_⟩, ?_⟩
      · simpa [Function.update_of_ne hworker] using htimely
      · rw [Exchange.ends_claim_iff]
        exact hlasts shift.elapsed (Nat.le_refl _) htimely h.runs
      · simpa [Function.update_of_ne hworker] using hlasts
      · intro other hother
        simp only [Fleet.apply, Function.update_apply] at hother
        split at hother
        · have hanswer := Fleet.taken_eq_some.mp hother
          exact absurd hhands (not_in_hand hb h (hreturned task hanswer) worker)
        · exact hsole other hother

lemma safe_finish (hb : shift.fleet.trace.broker.WellFormed) (h : shift.Safe origin)
    (reporter : Nat) (draw : Nat) (ending : Ending) :
    Safe origin { shift with
      fleet := shift.fleet.apply
        (.finish reporter pool draw ending (clock origin shift.elapsed)) } where
  runs := h.runs
  guarded worker task hhands := by
    cases hbusy : shift.fleet.hands reporter with
    | none =>
      simp only [Fleet.apply, hbusy] at hhands ⊢
      exact h.guarded worker task hhands
    | some reported =>
      simp only [Fleet.apply, hbusy, Function.update_apply] at hhands ⊢
      split at hhands
      · cases hhands
      · next hother =>
        obtain ⟨htimely, ⟨lease, hget, hlease, hlasts⟩, hsole⟩ := h.guarded worker task hhands
        refine ⟨htimely, ⟨lease, lease_stays hb hget ?_, hlease, hlasts⟩, ?_⟩
        · -- The report is on another task, so it ends another claim.
          intro hends
          have htoken := Exchange.lease_of_ends (Report.call_report? _ reported _) hends
          obtain ⟨owned, hget', hlease', -⟩ := (h.guarded reporter reported hbusy).claimed
          have hsame := hb.lease_token hget'
          rw [hlease', htoken, Option.some.injEq] at hsame
          have hid := hb.token_inj hget hget' hsame
          rw [hid, hget', Option.some.injEq] at hget
          have htask : reported = task := by rw [← hlease', hget, hlease]
          exact hother (hsole reporter (htask ▸ hbusy)).symm
        · intro other hhands'
          simp only [Function.update_apply] at hhands'
          split at hhands'
          · cases hhands'
          · exact hsole other hhands'

lemma safe_abandon (h : shift.Safe origin) (stopped : Nat) :
    Safe origin { shift with fleet := shift.fleet.apply (.abandon stopped) } where
  runs := h.runs
  guarded worker task hhands := by
    simp only [Fleet.apply, Function.update_apply] at hhands
    split at hhands
    · cases hhands
    · obtain ⟨htimely, hclaimed, hsole⟩ := h.guarded worker task hhands
      refine ⟨htimely, hclaimed, fun other hother => ?_⟩
      simp only [Fleet.apply, Function.update_apply] at hother
      split at hother
      · cases hother
      · exact hsole other hother

lemma safe_wait (h : shift.Safe origin) {later : Nat} (forward : shift.elapsed ≤ later)
    (timely : ∀ worker task, shift.fleet.hands worker = some task → later ≤ shift.due worker)
    (runs : clock origin later < Instant.latest) :
    Safe origin { shift with elapsed := later } where
  runs := runs
  guarded worker task hhands := by
    obtain ⟨-, ⟨lease, hget, hlease, hlasts⟩, hsole⟩ := h.guarded worker task hhands
    exact ⟨timely worker task hhands,
      ⟨lease, hget, hlease, fun time hfrom => hlasts time (forward.trans hfrom)⟩, hsole⟩

lemma Step.safe (h : Step pool origin shift next) (hb : shift.fleet.trace.broker.WellFormed)
    (hlength : pool.taskTimeout.nanos <
      shift.fleet.trace.broker.limits.visibilityTimeout.nanos)
    (hsafe : shift.Safe origin) : next.Safe origin := by
  cases h with
  | enqueue submitted =>
    exact safe_call hb hsafe rfl fun report hreport => by cases hreport
  | claim claimer order words _ => exact safe_claim hb hsafe hlength claimer order words
  | finish reporter draw ending => exact safe_finish hb hsafe reporter draw ending
  | abandon stopped => exact safe_abandon hsafe stopped
  | wait later forward timely runs => exact safe_wait hsafe forward timely runs

theorem reachable_safe
    (hlength : pool.taskTimeout.nanos < limits.visibilityTimeout.nanos)
    (h : Reachable pool limits origin shift) : shift.Safe origin := by
  induction h with
  | start runs =>
    refine ⟨runs, fun worker task hhands => ?_⟩
    cases hhands
  | step reached step ih =>
    obtain ⟨hb, hlimits⟩ := reached.wellFormed
    exact step.safe hb (by rw [hlimits]; exact hlength) ih

/-! ## Safe shifts -/

/-- Safe shifts are exclusive. -/
lemma Safe.exclusive (hb : shift.fleet.trace.broker.WellFormed) (h : shift.Safe origin) :
    Exclusive pool shift.fleet.hands shift.fleet.trace.broker (clock origin shift.elapsed) where
  sole worker other task task' hhands hhands' hid := by
    obtain ⟨lease, hget, hlease, -⟩ := (h.guarded worker task hhands).claimed
    obtain ⟨lease', hget', hlease', -⟩ := (h.guarded other task' hhands').claimed
    rw [hid, hget', Option.some.injEq] at hget
    have htask : task' = task := by rw [← hlease', hget, hlease]
    exact ((h.guarded worker task hhands).sole other (htask ▸ hhands')).symm
  accepted worker task hhands draw ending := by
    obtain ⟨lease, howns, hcopy⟩ := (h.guarded worker task hhands).owns hb
    have hcounts := pool.counts_reportOn draw task ending
    exact ⟨_, _, Report.perform_of_owns howns hcopy hcounts (clock origin shift.elapsed)⟩

end Shift
end WorkQueue
