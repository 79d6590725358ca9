import WorkQueue.Proofs.Fleet.Alert
import WorkQueue.Proofs.Fleet.Simulation

/-!
# Who holds the claims

The broker of a deployment can have other clients than the workers of its pool.  They submit and
claim tasks as they like and report on what they have claimed; all that they do not do is to report
on a task that a worker has in hand.  `Move` is what can happen next in such a deployment.

Then every claim is in somebody's custody: the envelope of each claim that the broker holds was
returned to another client, or a worker has it in hand (`Shift.Kept`, and `Sound` for deployments).
A step of a worker keeps that, because a worker empties its hand by a report that is accepted, and
an accepted report ends the claim.
-/

namespace WorkQueue

open Broker Relation

/-- The claims after a call are claims from before that it has not ended, or the one that it has
made. -/
lemma Broker.Transition.lease_cases {b next : Broker} {call : Call} {answer : Answer} {id : String}
    {lease : Lease} (h : Transition b call answer next) (hb : b.WellFormed)
    (hget : Table.get? id next.leases = some lease) :
    (Table.get? id b.leases = some lease ∧
        ¬ Exchange.Ends ⟨call, answer⟩ (some lease.token) lease.expiresAt) ∨
      Exchange.delivered? ⟨call, answer⟩ = some lease.task := by
  rcases (h.get?_leases hb).mp hget with hold | ⟨-, order, weights, words, now, hexchange, -⟩
  · exact .inl hold
  · rw [hexchange]
    exact .inr rfl

lemma Fleet.apply_wellFormed (fleet : Fleet) (event : Fleet.Event)
    (hb : fleet.trace.broker.WellFormed) :
    (fleet.apply event).trace.broker.WellFormed ∧
      (fleet.apply event).trace.broker.limits = fleet.trace.broker.limits := by
  rcases fleet.apply_cases event with ⟨-, hsame⟩ | ⟨call, -, hcall⟩
  · rw [hsame]
    exact ⟨hb, rfl⟩
  · rw [hcall]
    exact ⟨(fleet.trace.transition call).wellFormed hb, (fleet.trace.transition call).limits_eq⟩

/-! ## Shifts -/

namespace Shift

/-- Whether a shift is safe, and every claim that its broker holds is in the custody of a worker or
of another client. -/
structure Kept (limits : BrokerLimits) (origin : Int) (claimed : List Task) (shift : Shift) :
    Prop where
  wellFormed : shift.fleet.trace.broker.WellFormed
  limits_eq : shift.fleet.trace.broker.limits = limits
  safe : shift.Safe origin
  custody : ∀ id lease, Table.get? id shift.fleet.trace.broker.leases = some lease →
    lease.task ∈ claimed ∨ ∃ worker, shift.fleet.hands worker = some lease.task

variable {pool : Pool} {limits : BrokerLimits} {origin : Int} {claimed : List Task}
  {shift next : Shift} {worker : Nat} {task : Task} {w : World}
  {told told' : List (TaskEvent × Nat)}

/-- What a worker reports on the task that it has in hand is accepted, and ends the claim. -/
lemma Kept.reported (h : shift.Kept limits origin claimed)
    (hhands : shift.fleet.hands worker = some task) {report : Report}
    (hcounts : report.Counts task) (now : Instant) :
    Exchange.reported? ⟨report.call task now,
      (shift.fleet.trace.broker.serve (report.call task now)).1⟩ = some task := by
  obtain ⟨lease, howns, hcopy⟩ := (h.safe.guarded worker task hhands).owns h.wellFormed
  have hcounted : ¬ (report.call task now).Uncounted lease.task
      shift.fleet.trace.broker.limits := hcopy ▸ hcounts.not_uncounted now _
  obtain ⟨answer, hanswer⟩ :=
    (accepts_iff_owns (report.call_report? task now)).mpr ⟨lease, howns, hcounted⟩
  rw [hanswer]
  exact report.call_report? task now

/-- What a worker with free hands claims is in its custody. -/
lemma Kept.claim (h : shift.Kept limits origin claimed) {order : ReturnOrder}
    {weights : QueueWeights} {words : List UInt32} {now : Instant} {id : String} {lease : Lease}
    (hfree : shift.fleet.hands worker = none)
    (hget : Table.get? id
      (shift.fleet.apply (.claim worker order weights words now)).trace.broker.leases =
        some lease) :
    lease.task ∈ claimed ∨ ∃ holder,
      (shift.fleet.apply (.claim worker order weights words now)).hands holder =
        some lease.task := by
  have htransition := shift.fleet.trace.transition (.claim order weights words now)
  rcases htransition.lease_cases h.wellFormed hget with ⟨hold, -⟩ | hnew
  · rcases h.custody id lease hold with hclaimed | ⟨holder, hholder⟩
    · exact .inl hclaimed
    · have hother : holder ≠ worker := by
        rintro rfl
        rw [hfree] at hholder
        cases hholder
      refine .inr ⟨holder, ?_⟩
      simpa [Fleet.apply, Function.update_of_ne hother] using hholder
  · refine .inr ⟨worker, ?_⟩
    simp only [Fleet.apply, Function.update_self]
    generalize (shift.fleet.trace.broker.serve (.claim order weights words now)).1 = answer
      at hnew
    cases answer with
    | ok delivered => exact hnew
    | error | crashed => cases hnew

/-- What a worker reports on leaves its custody, and there is no claim on it any more. -/
lemma Kept.finish (h : shift.Kept limits origin claimed) {owner : Pool} {draw : Nat}
    {ending : Ending} {now : Instant} {id : String} {lease : Lease}
    (hget : Table.get? id
      (shift.fleet.apply (.finish worker owner draw ending now)).trace.broker.leases =
        some lease) :
    lease.task ∈ claimed ∨ ∃ holder,
      (shift.fleet.apply (.finish worker owner draw ending now)).hands holder =
        some lease.task := by
  cases hhands : shift.fleet.hands worker with
  | none =>
    simp only [Fleet.apply, hhands] at hget ⊢
    exact h.custody id lease hget
  | some reported =>
    have hreported := h.reported hhands (owner.counts_reportOn draw reported ending) now
    simp only [Fleet.apply, hhands] at hget ⊢
    obtain ⟨hold, hstands⟩ := ((shift.fleet.trace.transition
      ((owner.reportOn draw reported ending).call reported now)).lease_cases h.wellFormed
        hget).resolve_right fun hnew => by
          rw [Exchange.delivered?_of_report (Report.call_report? _ reported now)] at hnew
          cases hnew
    rcases h.custody id lease hold with hclaimed | ⟨holder, hholder⟩
    · exact .inl hclaimed
    · have hother : holder ≠ worker := by
        rintro rfl
        rw [hhands, Option.some.injEq] at hholder
        refine hstands (.inl ⟨reported, Exchange.spent?_of_reported hreported, ?_⟩)
        rw [hholder]
        exact h.wellFormed.lease_token hold
      exact .inr ⟨holder, by rwa [Function.update_of_ne hother]⟩

/-- Every claim stays in somebody's custody whatever a worker may do. -/
lemma Kept.act (hlength : pool.taskTimeout.nanos < limits.visibilityTimeout.nanos)
    (hact : World.Act pool False w (shift, told) (next, told'))
    (h : shift.Kept limits w.origin claimed) : next.Kept limits w.origin claimed := by
  cases hact with
  | act event step happens permitted =>
    have hbroker := shift.fleet.apply_wellFormed event h.wellFormed
    rw [← happens] at hbroker
    have hsafe := step.safe h.wellFormed (h.limits_eq ▸ hlength) h.safe
    refine ⟨hbroker.1, hbroker.2.trans h.limits_eq, hsafe, fun id lease hget => ?_⟩
    rw [happens] at hget ⊢
    cases event with
    | enqueue submitted now =>
      have hcall := (shift.fleet.trace.transition (.enqueue submitted now)).lease_cases
        h.wellFormed hget
      exact h.custody id lease (hcall.resolve_right fun hnone => by cases hnone).1
    | claim => exact h.claim permitted.2.2.1 hget
    | finish => exact h.finish hget
    | abandon => exact permitted.elim

lemma Kept.acts (hlength : pool.taskTimeout.nanos < limits.visibilityTimeout.nanos)
    {before after : Shift × List (TaskEvent × Nat)}
    (hacts : ReflTransGen (World.Act pool False w) before after)
    (h : before.1.Kept limits w.origin claimed) : after.1.Kept limits w.origin claimed := by
  induction hacts with
  | refl => exact h
  | tail _ hact ih => exact ih.act hlength hact

/-- What another client has claimed is in its custody. -/
lemma Kept.call (h : shift.Kept limits origin claimed) {call : Call}
    (htime : call.reading = clock origin shift.elapsed)
    (hforeign : ∀ report, call.report? = some report → ∀ worker task,
      shift.fleet.hands worker = some task → report.lease ≠ task.lease) :
    Kept limits origin
      ((Exchange.delivered? ⟨call, (shift.fleet.trace.broker.serve call).1⟩).toList ++ claimed)
      { shift with fleet := { shift.fleet with trace := shift.fleet.trace.extend call } } where
  wellFormed := (shift.fleet.trace.transition call).wellFormed h.wellFormed
  limits_eq := (shift.fleet.trace.transition call).limits_eq.trans h.limits_eq
  safe := safe_call h.wellFormed h.safe htime hforeign
  custody id lease hget := by
    rcases (shift.fleet.trace.transition call).lease_cases h.wellFormed hget with ⟨hold, -⟩ | hnew
    · exact (h.custody id lease hold).imp_left (List.mem_append_right _)
    · rw [hnew]
      exact .inl (List.mem_append_left _ (List.mem_singleton_self _))

end Shift

/-! ## Deployments -/

/-- A deployment whose broker has other clients as well, with the envelopes that these have claimed,
newest first. -/
structure Shared where
  world : World
  claimed : List Task

namespace World

/-- What can happen next in a deployment.  Threads that can go on do so in any order and take no
time, and time passes only when nothing can go on. -/
inductive Move (pool : Pool) (s : Shared) : Shared → Prop
  /-- A thread that can go on does. -/
  | step (thread : Thread) (ready : thread ∈ s.world.runnable) :
      Move pool s { s with
        world := { s.world with runnable := s.world.runnable.erase thread }.step pool thread }
  /-- The code around the pool does something. -/
  | outside {w' : World} (handled : Handled s.world w') (quiet : w'.notices = s.world.notices) :
      Move pool s { s with world := w' }
  /-- Another client calls the broker, but not to report on a task that a worker has in hand. -/
  | call (call : Call) (now : call.reading = s.world.now)
      (foreign : ∀ report, call.report? = some report → ∀ number task,
        s.world.hand number = some task → report.lease ≠ task.lease) :
      Move pool s
        ⟨s.world.called call,
          (Exchange.delivered? ⟨call, (s.world.broker.serve call).1⟩).toList ++ s.claimed⟩
  /-- Nothing can go on, and time passes until something is to happen. -/
  | wait (timeMs : Nat) (idle : s.world.runnable = []) (forward : s.world.elapsedMs ≤ timeMs)
      (timely : ∀ timer ∈ s.world.timers, timeMs ≤ timer.dueMs)
      (runs : (s.world.moveTo timeMs).now < .latest) :
      Move pool s { s with world := s.world.moveTo timeMs }

/-- What holds of a deployment at every moment. -/
structure Sound (pool : Pool) (limits : BrokerLimits) (s : Shared) : Prop where
  shown : ∃ shift, Deployed pool False s.world shift ∧
    shift.Kept limits s.world.origin s.claimed
  timely : Timely s.world
  alert : Alert s.world

variable {pool : Pool} {limits : BrokerLimits} {s s' : Shared} {w w' : World} {shift : Shift}
  {number : Nat} {task : Task}

lemma Sound.unmoved (h : Sound pool limits s) (hsame : Unmoved s.world w')
    (hgrows : Grows s.world w') (halert : Alert w') :
    Sound pool limits { s with world := w' } := by
  obtain ⟨shift, hdeployed, hkept⟩ := h.shown
  exact ⟨⟨shift, hdeployed.unmoved hsame, (origin_eq hsame.time).symm ▸ hkept⟩,
    hgrows.timely h.timely, halert⟩

/-- What happens next keeps that. -/
theorem Sound.move (hlength : pool.taskTimeout.nanos < limits.visibilityTimeout.nanos)
    (h : Sound pool limits s) (hmove : Move pool s s') : Sound pool limits s' := by
  obtain ⟨shift, hdeployed, hkept⟩ := h.shown
  cases hmove with
  | step thread ready =>
    have hpopped : Unmoved s.world { s.world with runnable := s.world.runnable.erase thread } :=
      ⟨rfl, rfl, rfl, fun _ => .inl⟩
    obtain ⟨htime, -, next, hacts, hnext⟩ := (hdeployed.unmoved hpopped).step thread
    refine ⟨⟨next, hnext, ?_⟩, h.timely.step thread, h.alert.step thread⟩
    rw [origin_eq htime]
    exact hkept.acts hlength hacts
  | @outside w' handled quiet =>
    obtain ⟨htime, -, next, hacts, hnext⟩ := hdeployed.quiet handled quiet
    refine ⟨⟨next, hnext, ?_⟩, handled.grows.timely h.timely,
      handled.grows.alert (congrArg Prod.fst quiet) h.alert⟩
    rw [origin_eq htime]
    exact hkept.acts hlength hacts
  | call call now foreign =>
    have hreading : call.reading = Shift.clock s.world.origin shift.elapsed :=
      now.trans hdeployed.clock.symm
    have hkept' := hkept.call hreading
      (by rw [hdeployed.hands]; exact foreign)
    rw [hdeployed.broker] at hkept'
    refine ⟨⟨{ shift with fleet := { shift.fleet with trace := shift.fleet.trace.extend call } },
      ⟨hdeployed.elapsed, ?_, hdeployed.hands, hdeployed.honest, hdeployed.faults⟩, hkept'⟩,
      ⟨h.timely.awaited, h.timely.later⟩, h.alert⟩
    rw [Trace.ledger_extend, hdeployed.ledger]
    rfl
  | wait timeMs idle forward timely runs =>
    have hmoved := hdeployed.moveTo timeMs
    have horigin : (s.world.moveTo timeMs).origin = s.world.origin :=
      congrArg (fun time : Int × Nat => time.1 * nanosPerMilli) (time_moveTo s.world timeMs)
    have hclock := hmoved.clock
    refine ⟨⟨_, hmoved, ?_⟩, h.timely.moveTo idle timeMs, h.alert.moveTo timeMs⟩
    rw [horigin] at hclock ⊢
    refine ⟨hkept.wellFormed, hkept.limits_eq, Shift.safe_wait hkept.safe ?_ ?_ ?_, hkept.custody⟩
    · rw [hdeployed.elapsed]
      exact Nat.mul_le_mul_right _ forward
    · exact fun worker task hhands => hdeployed.le_due h.timely idle timely hhands
    · exact hclock ▸ runs

/-- No two workers have the same task in hand. -/
lemma Sound.sole (h : Sound pool limits s) (number other : Nat) (task task' : Task)
    (hhand : s.world.hand number = some task) (hother : s.world.hand other = some task')
    (hid : task.id = task'.id) : number = other := by
  obtain ⟨shift, hdeployed, hkept⟩ := h.shown
  have hexclusive : Exclusive pool shift.fleet.hands _ _ := hkept.safe.exclusive hkept.wellFormed
  rw [hdeployed.hands] at hexclusive
  exact hexclusive.sole number other task task' hhand hother hid

/-! ### Orders, starts and stops -/

lemma Sound.orderStop (h : Sound pool limits s) :
    Sound pool limits { s with world := s.world.orderStop } := by
  obtain ⟨w', hflag, hwakes⟩ := orderStop_wakes s.world
  exact h.unmoved (unmoved_orderStop s.world) (hflag.grows.trans hwakes.grows) h.alert.orderStop

lemma Sound.orderCancel (h : Sound pool limits s) :
    Sound pool limits { s with world := s.world.orderCancel } := by
  obtain ⟨w', hflag, hwakes⟩ := orderCancel_wakes s.world
  exact h.unmoved (unmoved_orderCancel s.world) (hflag.grows.trans hwakes.grows)
    h.alert.orderCancel

/-- New workers, or none, take the place of workers that have nothing in hand. -/
lemma Sound.replace (h : Sound pool limits s) (hnone : ∀ number, s.world.hand number = none)
    (htime : w'.time = s.world.time) (hledger : w'.ledger = s.world.ledger)
    (hfaults : w'.faults = s.world.faults) (hworkers : ∀ phase ∈ w'.workers, phase = .ready)
    (htimers : w'.timers = []) (halert : Alert w') :
    Sound pool limits { s with world := w' } := by
  obtain ⟨shift, hdeployed, hkept⟩ := h.shown
  refine ⟨⟨shift, ⟨?_, hdeployed.ledger.trans hledger.symm, ?_, ?_, hfaults ▸ hdeployed.faults⟩,
    (origin_eq htime).symm ▸ hkept⟩, timely_of_idle hworkers htimers, halert⟩
  · rw [hdeployed.elapsed, elapsedMs_eq htime]
  · funext number
    rw [hdeployed.hands, hnone, hand]
    cases hphase : w'.workers[number]? with
    | none => rfl
    | some phase =>
      rw [hworkers phase (List.mem_of_getElem? hphase)]
      rfl
  · intro number phase hphase
    rw [hworkers phase (List.mem_of_getElem? hphase)]
    trivial

lemma Sound.halt (h : Sound pool limits s) (hstopped : s.world.allStopped = true) :
    Sound pool limits { s with world := s.world.halt } :=
  h.replace (hand_of_allStopped hstopped) rfl rfl rfl
    (fun _ hphase => absurd hphase List.not_mem_nil) rfl (alert_of_none rfl)

lemma Sound.startPool (h : Sound pool limits s) (hnone : s.world.workers = [])
    (hstart : s.world.startPool pool = .ok w') : Sound pool limits { s with world := w' } := by
  obtain ⟨-, rfl⟩ := startPool_eq hstart
  refine h.replace (fun number => ?_) rfl rfl rfl
    (fun phase hphase => (List.mem_replicate.mp hphase).2) rfl (alert_of_started rfl rfl)
  rw [hand, hnone]
  rfl

lemma sound_start (startMs : Int) (store : Store) (mailer : Mailer)
    (hruns : (World.start startMs (.empty limits) store mailer).now < .latest) :
    Sound pool limits ⟨World.start startMs (.empty limits) store mailer, []⟩ where
  shown := by
    refine ⟨_, deployed_start startMs store mailer, wellFormed_empty limits, rfl, ⟨?_, ?_⟩, ?_⟩
    · have hdeployed : Deployed pool False (World.start startMs (.empty limits) store mailer) _ :=
        deployed_start startMs store mailer
      exact hdeployed.clock ▸ hruns
    · intro worker task hhands
      cases hhands
    · intro id lease hget
      cases hget
  timely := timely_of_idle (by simp [World.start]) (by simp [World.start])
  alert := alert_of_none rfl

/-! ### What happens next -/

lemma time_step (w : World) (pool : Pool) (thread : Thread) :
    (w.step pool thread).time = w.time := by
  cases thread with
  | worker number => exact (touches_stepWorker w pool number).time
  | handler number => exact (touches_stepHandler w number).time

/-- Nothing that can happen next gives the workers an order or turns the time back. -/
lemma Move.frame (h : Move pool s s') : s'.world.notices.1 = s.world.notices.1 ∧
    s'.world.startMs = s.world.startMs ∧ s.world.elapsedMs ≤ s'.world.elapsedMs := by
  have htime : ∀ w' : World, w'.time = s.world.time →
      w'.startMs = s.world.startMs ∧ s.world.elapsedMs ≤ w'.elapsedMs :=
    fun w' htime => ⟨congrArg Prod.fst htime, (elapsedMs_eq htime).ge⟩
  cases h with
  | step thread => exact ⟨signals_step _ pool thread, htime _ (time_step _ pool thread)⟩
  | outside handled quiet => exact ⟨congrArg Prod.fst quiet, htime _ handled.frame.1⟩
  | call => exact ⟨rfl, rfl, Nat.le_refl _⟩
  | wait timeMs idle forward =>
    have hmoved := time_moveTo s.world timeMs
    refine ⟨congrArg Prod.fst (moveTo_wakes s.world timeMs).notices, congrArg Prod.fst hmoved, ?_⟩
    exact forward.trans (congrArg Prod.snd hmoved).ge

/-- Time passes only when nothing can go on. -/
lemma Move.elapsed_or_idle (h : Move pool s s') :
    s'.world.elapsedMs = s.world.elapsedMs ∨ s.world.runnable = [] := by
  cases h with
  | step thread => exact .inl (elapsedMs_eq (time_step _ pool thread))
  | outside handled => exact .inl (elapsedMs_eq handled.frame.1)
  | call => exact .inl rfl
  | wait _ idle => exact .inr idle

/-- Workers that have stopped stay so. -/
lemma Move.workers_of_allStopped (h : Move pool s s') (hstopped : s.world.allStopped = true) :
    s'.world.workers = s.world.workers := by
  cases h with
  | step thread =>
    rw [step_of_allStopped (w := { s.world with runnable := s.world.runnable.erase thread })
      hstopped]
  | outside handled => exact handled.frame.2.1
  | call => rfl
  | wait timeMs => exact (moveTo_wakes s.world timeMs).unmoved.workers

lemma Move.allStopped (h : Move pool s s') (hstopped : s.world.allStopped = true) :
    s'.world.allStopped = true := by
  rwa [World.allStopped, h.workers_of_allStopped hstopped]

end World
end WorkQueue
