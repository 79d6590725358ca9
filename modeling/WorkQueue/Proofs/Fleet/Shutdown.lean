import WorkQueue.Proofs.Fleet.Countdown
import WorkQueue.Proofs.Fleet.Course
import WorkQueue.Proofs.Fleet.OneWorker

/-!
# Shutting a pool down

A shutdown tells the workers to stop and lets them finish what they have in hand, up to a deadline.
Those that are late are told to stop at once, and have a short time to give their tasks back.
`Winding` lists the moments of a shutdown, with threads in any order and other clients at work, and
`Stops` says how it returns.  `World.shutdown` is the shutdown with one order of the threads, and
nobody else at work (`stops_shutdown`).

The main statement is `shutdown_gives_claims_back`.  It rests on the course of the deliveries, which
every moment of a shutdown keeps (`Winding.progress`), and on two facts about its end: workers that
were told to stop at once do so at once (`Winding.stopped_of_late`), and a worker that has stopped
holds no claim.

The exception is a deadline that the clock cannot hold.  Settings that are accepted can ask for one,
and then the shutdown crashes (`patient_shutdown_crashes`).
-/

namespace WorkQueue

open Broker Relation

namespace World

/-! ## Shutdowns -/

/-- How long the workers are waited for, before and after they are told to stop at once. -/
def waitsUntil (deadlineMs : Nat) (late : Bool) : Nat :=
  if late then deadlineMs + Pool.cancelGraceMs else deadlineMs

@[simp] lemma waitsUntil_false (deadlineMs : Nat) : waitsUntil deadlineMs false = deadlineMs := rfl

@[simp] lemma waitsUntil_true (deadlineMs : Nat) :
    waitsUntil deadlineMs true = deadlineMs + Pool.cancelGraceMs := rfl

/-- The moments of a shutdown with a deadline; `late` says whether the workers were told to stop at
once, which happens at the deadline if some of them have not stopped. -/
inductive Winding (pool : Pool) (deadlineMs : Nat) (s : Shared) : Bool → Shared → Prop
  | ordered : Winding pool deadlineMs s false { s with world := s.world.orderStop }
  | move {late : Bool} {m m' : Shared} (winding : Winding pool deadlineMs s late m)
      (next : Move pool m m') (early : m'.world.elapsedMs ≤ waitsUntil deadlineMs late) :
      Winding pool deadlineMs s late m'
  | cancel {m : Shared} (winding : Winding pool deadlineMs s false m)
      (expired : m.world.elapsedMs = deadlineMs) (busy : m.world.allStopped = false) :
      Winding pool deadlineMs s true { m with world := m.world.orderCancel }

/-- How a shutdown returns: when all workers have stopped by the deadline, or else when all have
stopped or the time for giving tasks back is over. -/
inductive Stops (pool : Pool) (graceMs : Nat) (s : Shared) : Except QueueError Unit → Shared → Prop
  | inTime {m : Shared} (winding : Winding pool (s.world.elapsedMs + graceMs) s false m)
      (stopped : m.world.allStopped = true) :
      Stops pool graceMs s (.ok ()) { m with world := m.world.halt }
  | late {m : Shared} (winding : Winding pool (s.world.elapsedMs + graceMs) s true m)
      (ended : m.world.allStopped = true ∨
        m.world.elapsedMs = waitsUntil (s.world.elapsedMs + graceMs) true) :
      Stops pool graceMs s (.error (.workerPool .shutdownTimeout))
        { m with world := m.world.halt }

/-- The deployments of a pool on a new broker with other clients, in which no fault strikes a worker
and the clock has not come to the latest instant. -/
inductive Operated (pool : Pool) (limits : BrokerLimits) : Shared → Prop
  | start (startMs : Int) (store : Store) (mailer : Mailer)
      (runs : (World.start startMs (.empty limits) store mailer).now < .latest) :
      Operated pool limits ⟨World.start startMs (.empty limits) store mailer, []⟩
  | move {s s' : Shared} (operated : Operated pool limits s) (next : Move pool s s') :
      Operated pool limits s'
  | startPool {s : Shared} {w' : World} (operated : Operated pool limits s)
      (start : s.world.startPool pool = .ok w') : Operated pool limits { s with world := w' }
  | stop {s s' : Shared} {graceMs : Nat} {result : Except QueueError Unit}
      (operated : Operated pool limits s) (stops : Stops pool graceMs s result s') :
      Operated pool limits s'
  /-- Whoever shuts the pool down crashes when the workers were told to stop. -/
  | crash {s : Shared} (operated : Operated pool limits s) :
      Operated pool limits { s with world := s.world.orderStop }

variable {pool : Pool} {limits : BrokerLimits} {deadlineMs graceMs : Nat} {s m s' : Shared}
  {late : Bool} {result : Except QueueError Unit}

/-! ### What holds at every moment -/

lemma Winding.sound (hlength : pool.taskTimeout.nanos < limits.visibilityTimeout.nanos)
    (h : Winding pool deadlineMs s late m) (hs : Sound pool limits s) : Sound pool limits m := by
  induction h with
  | ordered => exact hs.orderStop
  | move _ next _ ih => exact ih.move hlength next
  | cancel _ _ _ ih => exact ih.orderCancel

/-- What the workers were told at a moment of a shutdown. -/
lemma Winding.signals (h : Winding pool deadlineMs s late m) :
    m.world.notices.1 = (true, late || s.world.cancelled, s.world.running) := by
  induction h with
  | ordered => rw [notices_orderStop]; rfl
  | move _ next _ ih => exact next.frame.1.trans ih
  | @cancel m _ _ _ ih =>
    have hstopping : m.world.stopping = true := congrArg Prod.fst ih
    have hrunning : m.world.running = s.world.running := congrArg (·.2.2) ih
    rw [notices_orderCancel, hstopping, hrunning]
    rfl

/-- When the moments of a shutdown are. -/
lemma Winding.elapsed (h : Winding pool deadlineMs s late m) (hs : s.world.elapsedMs ≤ deadlineMs) :
    m.world.startMs = s.world.startMs ∧ (late = true → deadlineMs ≤ m.world.elapsedMs) ∧
      m.world.elapsedMs ≤ waitsUntil deadlineMs late := by
  induction h with
  | ordered =>
    have htime := (unmoved_orderStop s.world).time
    exact ⟨congrArg Prod.fst htime, Bool.noConfusion, (elapsedMs_eq htime).trans_le hs⟩
  | move _ next early ih =>
    obtain ⟨-, hstart, hforward⟩ := next.frame
    exact ⟨hstart.trans ih.1, fun hlate => (ih.2.1 hlate).trans hforward, early⟩
  | @cancel m _ expired _ ih =>
    have htime := (unmoved_orderCancel m.world).time
    have helapsed := (elapsedMs_eq htime).trans expired
    exact ⟨(congrArg Prod.fst htime).trans ih.1, fun _ => helapsed.ge,
      helapsed.trans_le (Nat.le_add_right _ _)⟩

/-- Workers that were told to stop at once do so before time passes. -/
lemma Winding.stopped_of_late (hlength : pool.taskTimeout.nanos < limits.visibilityTimeout.nanos)
    (h : Winding pool deadlineMs s late m) (hs : Sound pool limits s) (hlate : late = true) :
    m.world.elapsedMs = deadlineMs ∨ m.world.allStopped = true := by
  induction h with
  | ordered => cases hlate
  | @move _ m m' winding next _ ih =>
    rcases ih hlate with hnow | hstopped
    · rcases next.elapsed_or_idle with hsame | hidle
      · exact .inl (hsame.trans hnow)
      · -- Nothing can go on, so all have stopped.
        have hsound := winding.sound hlength hs
        obtain ⟨shift, hdeployed, -⟩ := hsound.shown
        have hsignals := winding.signals
        rw [hlate] at hsignals
        exact .inr (next.allStopped (hsound.alert.allStopped hdeployed (congrArg Prod.fst hsignals)
          (congrArg (·.2.1) hsignals) hidle))
    · exact .inr (next.allStopped hstopped)
  | @cancel m _ expired =>
    exact .inl ((elapsedMs_eq (unmoved_orderCancel m.world).time).trans expired)

/-- Whatever way a shutdown returns, all workers have stopped by themselves. -/
lemma Stops.allStopped (hlength : pool.taskTimeout.nanos < limits.visibilityTimeout.nanos)
    (h : Stops pool graceMs s result s') (hs : Sound pool limits s) :
    ∃ late m, Winding pool (s.world.elapsedMs + graceMs) s late m ∧ m.world.allStopped = true ∧
      s' = { m with world := m.world.halt } := by
  cases h with
  | @inTime m winding stopped => exact ⟨false, m, winding, stopped, rfl⟩
  | @late m winding ended =>
    refine ⟨true, m, winding, ended.elim id fun hover => ?_, rfl⟩
    refine (winding.stopped_of_late hlength hs rfl).resolve_left fun hnow => ?_
    have hgrace : 0 < Pool.cancelGraceMs := by decide
    rw [waitsUntil_true] at hover
    omega

/-- Whatever happens next, workers execute registered handlers only. -/
lemma Move.engaged (h : Move pool s s') (hs : Engaged pool s.world) : Engaged pool s'.world := by
  cases h with
  | step thread =>
    have hpopped : Engaged pool { s.world with runnable := s.world.runnable.erase thread } :=
      hs.congr rfl
    exact hpopped.step thread
  | outside handled => exact hs.congr handled.frame.2.1
  | call => exact hs.congr rfl
  | wait timeMs => exact hs.congr (moveTo_wakes s.world timeMs).unmoved.workers

/-- What holds of a deployment between its shutdowns. -/
structure Orderly (pool : Pool) (limits : BrokerLimits) (s : Shared) : Prop where
  sound : Sound pool limits s
  /-- A pool that is not running has no workers. -/
  idle : s.world.running = false → s.world.workers = []
  /-- Workers that were told to stop at once are gone. -/
  gone : s.world.cancelled = true → s.world.workers = []
  /-- What workers execute are handlers that are registered. -/
  engaged : Engaged pool s.world

/-- A deployment is in order after every run. -/
theorem Operated.orderly (hlength : pool.taskTimeout.nanos < limits.visibilityTimeout.nanos)
    (h : Operated pool limits s) : Orderly pool limits s := by
  induction h with
  | start startMs store mailer runs =>
    exact ⟨sound_start startMs store mailer runs, fun _ => rfl, fun _ => rfl,
      engaged_of_none rfl⟩
  | @move s s' _ next ih =>
    obtain ⟨hsignals, -⟩ := next.frame
    have hnone : s.world.workers = [] → s'.world.workers = [] := fun hnone => by
      rw [next.workers_of_allStopped (by rw [World.allStopped, hnone]; rfl), hnone]
    have hrunning : s'.world.running = s.world.running := congrArg (·.2.2) hsignals
    have hcancelled : s'.world.cancelled = s.world.cancelled := congrArg (·.2.1) hsignals
    exact ⟨ih.sound.move hlength next, fun h => hnone (ih.idle (hrunning ▸ h)),
      fun h => hnone (ih.gone (hcancelled ▸ h)), next.engaged ih.engaged⟩
  | @startPool s w' _ start ih =>
    obtain ⟨hrunning, hworld⟩ := startPool_eq start
    refine ⟨ih.sound.startPool (ih.idle hrunning) start, fun h => ?_, fun h => ?_, ?_⟩
    · subst hworld
      have hzero : pool.workerCount = 0 := by simpa using h
      simp [hzero]
    · subst hworld
      cases h
    · subst hworld
      exact engaged_of_idle fun phase hphase => (List.mem_replicate.mp hphase).2
  | stop _ stops ih =>
    obtain ⟨late, m, winding, stopped, rfl⟩ := stops.allStopped hlength ih.sound
    exact ⟨(winding.sound hlength ih.sound).halt stopped, fun _ => rfl, fun _ => rfl,
      engaged_of_none rfl⟩
  | @crash s _ ih =>
    have hsame := unmoved_orderStop s.world
    have hsignals := congrArg Prod.fst (notices_orderStop s.world)
    have hcancelled : s.world.orderStop.cancelled = s.world.cancelled := congrArg (·.2.1) hsignals
    have hrunning : s.world.orderStop.running = s.world.running := congrArg (·.2.2) hsignals
    exact ⟨ih.sound.orderStop, fun h => hsame.workers.trans (ih.idle (hrunning ▸ h)),
      fun h => hsame.workers.trans (ih.gone (hcancelled ▸ h)), ih.engaged.congr hsame.workers⟩

/-- At every moment of a shutdown the workers execute registered handlers only. -/
lemma Winding.engaged (h : Winding pool deadlineMs s late m) (hs : Engaged pool s.world) :
    Engaged pool m.world := by
  induction h with
  | ordered => exact hs.congr (unmoved_orderStop s.world).workers
  | move _ next _ ih => exact next.engaged ih
  | @cancel m _ _ _ ih => exact ih.congr (unmoved_orderCancel m.world).workers

/-! ## The course of the deliveries -/

/-- How the delivery of a task to a worker may end in a shutdown: by the report on how the procedure
of its handler had ended by itself, or by the end of its time, at a moment up to the deadline; or by
the release of the task, at the deadline. -/
inductive Concludes (pool : Pool) (deadlineMs : Nat) (s : Shared) (number : Nat) (task : Task) :
    Report → Nat → Prop
  | own {m : Shared} {dueMs : Nat} {execution : Execution} {ending : Ending} (draw : Nat)
      (winding : Winding pool deadlineMs s false m) (inTime : m.world.elapsedMs ≤ deadlineMs)
      (busy : m.world.workers[number]? = some (.executing task dueMs execution))
      (engages : pool.Engages task execution)
      (outcome : execution.outcome? dueMs m.world.elapsedMs = some ending)
      (own : ending ≠ .interrupted) :
      Concludes pool deadlineMs s number task (pool.reportOn draw task ending) m.world.elapsedMs
  | interrupted : Concludes pool deadlineMs s number task .release deadlineMs

/-- How far the workers are at a moment of a shutdown, by what was told and what other clients have
claimed since it was ordered. -/
structure Progress (pool : Pool) (deadlineMs : Nat) (s m : Shared) (told : List (TaskEvent × Nat))
    (claimed : List Task) : Prop where
  events : m.world.events = told ++ s.world.events
  claims : m.claimed = claimed ++ s.claimed
  course : Course (Concludes pool deadlineMs s) s.world.startMs s.world.hand
    s.world.broker.nextLease m.world.hand m.world.broker told claimed

lemma Progress.congr {w : World} {told : List (TaskEvent × Nat)} {claimed : List Task}
    (h : Progress pool deadlineMs s m told claimed) (hworkers : w.workers = m.world.workers)
    (hbroker : w.broker = m.world.broker) (hevents : w.events = m.world.events) :
    Progress pool deadlineMs s { m with world := w } told claimed where
  events := hevents.trans h.events
  claims := h.claims
  course := by
    have hhand : w.hand = m.world.hand := funext fun number => by rw [hand, hand, hworkers]
    rw [hhand, hbroker]
    exact h.course

/-- How far a deployment is by what its shift has done after the order to stop. -/
lemma Progress.acts {w w' : World} {shift next : Shift} {told : List (TaskEvent × Nat)}
    {claimed : List Task}
    (hprogress : Progress pool deadlineMs s { m with world := w } told claimed)
    (hlength : pool.taskTimeout.nanos < limits.visibilityTimeout.nanos)
    (hdeployed : Deployed pool False w shift) (hkept : shift.Kept limits w.origin m.claimed)
    (hstopping : w.stopping = true) (hstart : w.startMs = s.world.startMs)
    (hsole : ∀ number other task task', s.world.hand number = some task →
      s.world.hand other = some task' → task.id = task'.id → number = other)
    (hends : ∀ number task draw ending, s.world.hand number = some task →
      w.Finishes number ending →
        Concludes pool deadlineMs s number task (pool.reportOn draw task ending) w.elapsedMs)
    (hacts : ReflTransGen (Act pool False w) (shift, w.events) (next, w'.events))
    (hnext : Deployed pool False w' next) :
    ∃ told, Progress pool deadlineMs s { m with world := w' } told claimed := by
  have hcourses : ∀ log, ReflTransGen (Act pool False w) (shift, w.events) log →
      log.1.Kept limits w.origin m.claimed ∧ ∃ told, log.2 = told ++ s.world.events ∧
        Course (Concludes pool deadlineMs s) w.startMs s.world.hand s.world.broker.nextLease
          log.1.fleet.hands log.1.fleet.trace.broker told claimed := by
    intro log hacts
    induction hacts with
    | refl =>
      refine ⟨hkept, told, hprogress.events, ?_⟩
      rw [hstart, hdeployed.hands, hdeployed.broker]
      exact hprogress.course
    | tail _ hact ih =>
      obtain ⟨hkept, told, htold, hcourse⟩ := ih
      obtain ⟨new, hnew, hcourse'⟩ := hkept.course hstopping hsole hends hact hcourse
      exact ⟨hkept.act hlength hact, new ++ told, by rw [hnew, htold, List.append_assoc], hcourse'⟩
  obtain ⟨-, told, htold, hcourse⟩ := hcourses _ hacts
  rw [hstart, hnext.hands, hnext.broker] at hcourse
  exact ⟨told, htold, hprogress.claims, hcourse⟩

/-- How a delivery may end at a moment of a shutdown. -/
lemma Winding.concludes (hlength : pool.taskTimeout.nanos < limits.visibilityTimeout.nanos)
    (h : Winding pool deadlineMs s late m) (hs : Orderly pool limits s)
    (hdeadline : s.world.elapsedMs ≤ deadlineMs) {told : List (TaskEvent × Nat)}
    {claimed : List Task} (hprogress : Progress pool deadlineMs s m told claimed)
    {number draw : Nat} {task : Task} {ending : Ending} (hhand : s.world.hand number = some task)
    (hfinishes : m.world.Finishes number ending) :
    Concludes pool deadlineMs s number task (pool.reportOn draw task ending) m.world.elapsedMs := by
  have hsignals := h.signals
  have hstopping : m.world.stopping = true := congrArg Prod.fst hsignals
  have hcancelled : m.world.cancelled = (late || s.world.cancelled) := congrArg (·.2.1) hsignals
  obtain ⟨task', dueMs, execution, hphase, houtcome⟩ :=
    hfinishes.resolve_left fun hgoing => Bool.noConfusion (hstopping.symm.trans hgoing)
  have hholds : m.world.hand number = some task' := by rw [hand, hphase]; rfl
  obtain rfl : task' = task :=
    Option.some.inj ((hprogress.course.held number task' hholds).symm.trans hhand)
  obtain ⟨shift, hdeployed, -⟩ := (h.sound hlength hs.sound).shown
  obtain ⟨hresolves, -, hown⟩ := hdeployed.honest number _ hphase
  cases late with
  | true =>
    have hlate : m.world.cancelled = true := hcancelled
    rw [if_pos hlate] at houtcome
    have hnow : m.world.elapsedMs = deadlineMs :=
      (h.stopped_of_late hlength hs.sound rfl).resolve_right fun hstopped => by
        rw [hand_of_allStopped hstopped] at hholds
        cases hholds
    rw [houtcome, reportOn_of_handled hresolves, hnow]
    exact .interrupted
  | false =>
    -- The workers of an earlier run are gone, so nobody was told to stop at once.
    have hgoing : ¬ m.world.cancelled = true := by
      intro hearlier
      rw [hand, hs.gone (hcancelled.symm.trans hearlier)] at hhand
      cases hhand
    rw [if_neg hgoing] at houtcome
    have hengages := h.engaged hs.engaged number task' dueMs execution hphase
    refine .own draw h (h.elapsed hdeadline).2.2 hphase hengages houtcome ?_
    rintro rfl
    cases execution with
    | ended ending => exact hown (congrArg Execution.ended (Option.some.inj houtcome))
    | suspended =>
      rw [Execution.outcome?] at houtcome
      split at houtcome <;> cases houtcome

/-- Whatever happens next in a shutdown, the deliveries go on to their end. -/
lemma Winding.progress_move {m' : Shared}
    (hlength : pool.taskTimeout.nanos < limits.visibilityTimeout.nanos)
    (h : Winding pool deadlineMs s late m) (hs : Orderly pool limits s)
    (hdeadline : s.world.elapsedMs ≤ deadlineMs) {told : List (TaskEvent × Nat)}
    {claimed : List Task} (hprogress : Progress pool deadlineMs s m told claimed)
    (hmove : Move pool m m') : ∃ told claimed, Progress pool deadlineMs s m' told claimed := by
  obtain ⟨shift, hdeployed, hkept⟩ := (h.sound hlength hs.sound).shown
  have hstopping : m.world.stopping = true := congrArg Prod.fst h.signals
  have hstart := (h.elapsed hdeadline).1
  have hends : ∀ number task draw ending, s.world.hand number = some task →
      m.world.Finishes number ending → Concludes pool deadlineMs s number task
        (pool.reportOn draw task ending) m.world.elapsedMs :=
    fun _ _ _ _ => h.concludes hlength hs hdeadline hprogress
  cases hmove with
  | step thread =>
    have hpopped : Unmoved m.world { m.world with runnable := m.world.runnable.erase thread } :=
      ⟨rfl, rfl, rfl, fun _ => .inl⟩
    obtain ⟨-, -, shift', hacts, hnext⟩ := (hdeployed.unmoved hpopped).step thread
    obtain ⟨told', hprogress'⟩ := (hprogress.congr hpopped.workers rfl rfl).acts hlength
      (hdeployed.unmoved hpopped) hkept hstopping hstart hs.sound.sole hends hacts hnext
    exact ⟨told', claimed, hprogress'⟩
  | outside handled quiet =>
    obtain ⟨-, -, shift', hacts, hnext⟩ := hdeployed.quiet handled quiet
    obtain ⟨told', hprogress'⟩ := hprogress.acts hlength hdeployed hkept hstopping hstart
      hs.sound.sole hends hacts hnext
    exact ⟨told', claimed, hprogress'⟩
  | call call =>
    have hb := hdeployed.broker ▸ hkept.wellFormed
    refine ⟨told, _, hprogress.events, ?_,
      hprogress.course.called hb (serve_transition m.world.broker call)⟩
    rw [hprogress.claims, List.append_assoc]
  | wait timeMs =>
    have hwakes := moveTo_wakes m.world timeMs
    exact ⟨told, claimed, hprogress.congr hwakes.unmoved.workers hwakes.unmoved.broker
      (congrArg Prod.snd hwakes.notices)⟩

/-- **The course of a shutdown.**  At every moment of it, each delivery that was in progress is so
still, or has ended properly. -/
theorem Winding.progress (hlength : pool.taskTimeout.nanos < limits.visibilityTimeout.nanos)
    (h : Winding pool deadlineMs s late m) (hs : Orderly pool limits s)
    (hdeadline : s.world.elapsedMs ≤ deadlineMs) :
    ∃ told claimed, Progress pool deadlineMs s m told claimed := by
  induction h with
  | ordered =>
    have hstart : Progress pool deadlineMs s s [] [] := ⟨rfl, rfl, course_start _ _⟩
    have hsame := unmoved_orderStop s.world
    exact ⟨[], [], hstart.congr hsame.workers hsame.broker
      (congrArg Prod.snd (notices_orderStop s.world))⟩
  | move winding next _ ih =>
    obtain ⟨told, claimed, hprogress⟩ := ih
    exact winding.progress_move hlength hs hdeadline hprogress next
  | @cancel m _ _ _ ih =>
    obtain ⟨told, claimed, hprogress⟩ := ih
    have hsame := unmoved_orderCancel m.world
    exact ⟨told, claimed, hprogress.congr hsame.workers hsame.broker
      (congrArg Prod.snd (notices_orderCancel m.world))⟩

/-! ## The return of a shutdown -/

/-- What is so when a shutdown has returned. -/
structure Returned (pool : Pool) (limits : BrokerLimits) (deadlineMs : Nat) (s s' : Shared) :
    Prop where
  /-- Every delivery that was in progress has ended, and nothing else was told. -/
  ended : ∃ told claimed, Progress pool deadlineMs s s' told claimed ∧
    ∀ number task, s.world.hand number = some task →
      Ended (Concludes pool deadlineMs s number task) s.world.startMs task s'.world.broker told
        claimed
  /-- Every claim that is left is that of another client. -/
  custody : ∀ id lease, Table.get? id s'.world.broker.leases = some lease → lease.task ∈ s'.claimed
  running : s'.world.running = false
  /-- The pool can be started again, with all its workers about to claim a task. -/
  restart : ∃ next, s'.world.startPool pool = .ok next ∧ next.running = true ∧
    Operated pool limits { s' with world := next } ∧ ∀ number < pool.workerCount,
      next.workers[number]? = some .ready ∧ .worker number ∈ next.runnable

lemma hand_halt (w : World) (number : Nat) : w.halt.hand number = none := rfl

lemma Stops.returned (hlength : pool.taskTimeout.nanos < limits.visibilityTimeout.nanos)
    (hworkers : 0 < pool.workerCount) (hs : Operated pool limits s)
    (h : Stops pool graceMs s result s') :
    Returned pool limits (s.world.elapsedMs + graceMs) s s' := by
  have horderly := hs.orderly hlength
  have hoperated := hs.stop h
  obtain ⟨late, m, winding, stopped, rfl⟩ := h.allStopped hlength horderly.sound
  obtain ⟨told, claimed, hprogress⟩ :=
    winding.progress hlength horderly (Nat.le_add_right _ graceMs)
  have hhand : m.world.hand = m.world.halt.hand :=
    funext fun number => (hand_of_allStopped stopped number).trans (hand_halt m.world number).symm
  refine ⟨⟨told, claimed, ⟨hprogress.events, hprogress.claims, hhand ▸ hprogress.course⟩,
    fun number task hbefore => ?_⟩, fun id lease hget => ?_, rfl, ?_⟩
  · exact hprogress.course.ended number task hbefore (hand_of_allStopped stopped number)
  · obtain ⟨shift, hdeployed, hkept⟩ := (winding.sound hlength horderly.sound).shown
    refine (hkept.custody id lease (hdeployed.broker ▸ hget)).resolve_right ?_
    rintro ⟨number, hholds⟩
    rw [hdeployed.hands, hand_of_allStopped stopped] at hholds
    cases hholds
  · refine ⟨_, rfl, by simpa using hworkers, hoperated.startPool rfl, fun number hnumber => ?_⟩
    refine ⟨?_, ?_⟩
    · simp [hnumber]
    · exact List.mem_map_of_mem (List.mem_range.mpr hnumber)

/-! ### Letting time pass -/

/-- Some things happen one after the other, up to a time. -/
def Moves (pool : Pool) (untilMs : Nat) : Shared → Shared → Prop :=
  ReflTransGen fun before after => Move pool before after ∧ after.world.elapsedMs ≤ untilMs

lemma Operated.moves {untilMs : Nat} (h : Operated pool limits s)
    (hmoves : Moves pool untilMs s s') : Operated pool limits s' := by
  induction hmoves with
  | refl => exact h
  | tail _ next ih => exact ih.move next.1

lemma Winding.moves {m' : Shared} (h : Winding pool deadlineMs s late m)
    (hmoves : Moves pool (waitsUntil deadlineMs late) m m') :
    Winding pool deadlineMs s late m' := by
  induction hmoves with
  | refl => exact h
  | tail _ next ih => exact ih.move next.1 next.2

/-- Letting time pass is one move after the other. -/
lemma Sound.runUntil (hlength : pool.taskTimeout.nanos < limits.visibilityTimeout.nanos)
    (hs : Sound pool limits s) {untilMs : Nat}
    (hruns : Instant.ofMillis (s.world.startMs + untilMs) < .latest) (goal : World → Bool)
    (fuel : Nat) :
    Moves pool untilMs s { s with world := World.runUntil pool untilMs goal fuel s.world } := by
  refine (runUntil_induction (motive := fun w => Moves pool untilMs s { s with world := w } ∧
    Sound pool limits { s with world := w } ∧ w.startMs = s.world.startMs)
    (fun w thread rest ih hearly hrunnable => ?_) (fun w ih hearly hidle _ => ?_)
    fuel ⟨.refl, hs, rfl⟩).1
  · obtain ⟨hmoves, hsound, hstart⟩ := ih
    have hnext : Move pool { s with world := w } _ := .step thread (hrunnable ▸ List.mem_cons_self)
    simp only [hrunnable, List.erase_cons_head] at hnext
    have htime := time_step { w with runnable := rest } pool thread
    exact ⟨hmoves.tail ⟨hnext, (elapsedMs_eq htime).trans_le hearly.le⟩, hsound.move hlength hnext,
      (congrArg Prod.fst htime).trans hstart⟩
  · obtain ⟨hmoves, hsound, hstart⟩ := ih
    have hforward := le_nextDue hsound.timely.later (Nat.le_of_lt hearly)
    have hbound := Nat.min_le_left untilMs (w.nextDue.getD untilMs)
    have hfirst : ∀ timer ∈ w.timers, min untilMs (w.nextDue.getD untilMs) ≤ timer.dueMs :=
      fun _ htimer => nextDue_le htimer untilMs
    generalize min untilMs (w.nextDue.getD untilMs) = timeMs at hforward hbound hfirst ⊢
    have htime := time_moveTo w timeMs
    have hstart' : (w.moveTo timeMs).startMs = s.world.startMs :=
      (congrArg Prod.fst htime).trans hstart
    have helapsed : (w.moveTo timeMs).elapsedMs = timeMs := congrArg Prod.snd htime
    have hclock : (w.moveTo timeMs).now < .latest := by
      rw [now, hstart', helapsed]
      exact Instant.ofMillis_lt_latest (by omega) hruns
    have hmoved : Move pool { s with world := w } { s with world := w.moveTo timeMs } :=
      .wait timeMs hidle hforward hfirst hclock
    -- The handlers that were given up go on at once.
    have hhandled := handled_resumeStragglers (w.moveTo timeMs)
    have hresumed : Move pool { s with world := w.moveTo timeMs }
        { s with world := (w.moveTo timeMs).resumeStragglers } :=
      .outside hhandled (notices_resumeStragglers _)
    have hsame := hhandled.frame.1
    exact ⟨(hmoves.tail ⟨hmoved, helapsed.trans_le hbound⟩).tail
        ⟨hresumed, ((elapsedMs_eq hsame).trans helapsed).trans_le hbound⟩,
      (hsound.move hlength hmoved).move hlength hresumed, (congrArg Prod.fst hsame).trans hstart'⟩

/-- Letting time pass is a part of a shutdown, up to the time that it waits for. -/
lemma Winding.runUntil (hlength : pool.taskTimeout.nanos < limits.visibilityTimeout.nanos)
    (h : Winding pool deadlineMs s late m) (hs : Sound pool limits s)
    (hdeadline : s.world.elapsedMs ≤ deadlineMs)
    (hruns : Instant.ofMillis (s.world.startMs + waitsUntil deadlineMs late) < .latest)
    (goal : World → Bool) (fuel : Nat) : Winding pool deadlineMs s late
      { m with world := World.runUntil pool (waitsUntil deadlineMs late) goal fuel m.world } := by
  rw [← (h.elapsed hdeadline).1] at hruns
  exact h.moves ((h.sound hlength hs).runUntil hlength hruns goal fuel)

/-- **The simulation of a shutdown is one**, and what it returns says whether all workers have
stopped when time passes until the deadline. -/
theorem stops_shutdown (hlength : pool.taskTimeout.nanos < limits.visibilityTimeout.nanos)
    (hs : Orderly pool limits s) {graceMs : Nat}
    (hruns : Instant.ofMillis (s.world.startMs +
      (s.world.elapsedMs + graceMs + Pool.cancelGraceMs : Nat)) < .latest) :
    Stops pool graceMs s (s.world.shutdown pool graceMs).1
      { s with world := (s.world.shutdown pool graceMs).2 } ∧
    ((s.world.shutdown pool graceMs).1 = .ok () ↔
      (s.world.orderStop.awaitStop pool (s.world.elapsedMs + graceMs)).allStopped = true) := by
  have hdeadline := Nat.le_add_right s.world.elapsedMs graceMs
  have hordered : Winding pool (s.world.elapsedMs + graceMs) s false _ := .ordered
  have hwaited : Winding pool (s.world.elapsedMs + graceMs) s false { s with
      world := s.world.orderStop.awaitStop pool (s.world.elapsedMs + graceMs) } :=
    hordered.runUntil hlength hs.sound hdeadline
      (Instant.ofMillis_lt_latest (by simp only [waitsUntil_false]; omega) hruns) _ _
  have hends := awaitStop_ends pool (s.world.elapsedMs + graceMs)
    hs.sound.orderStop.timely (congrArg (·.1.1) (notices_orderStop s.world))
  unfold World.shutdown
  simp only
  generalize s.world.orderStop.awaitStop pool (s.world.elapsedMs + graceMs) = w at hwaited hends ⊢
  cases hstopped : w.allStopped with
  | true => exact ⟨.inTime hwaited hstopped, by simp⟩
  | false =>
    refine ⟨?_, by simp [cancelRest]⟩
    simp only [Bool.false_eq_true, if_false]
    have hover : w.elapsedMs = s.world.elapsedMs + graceMs := by
      refine Nat.le_antisymm (hwaited.elapsed hdeadline).2.2 ?_
      exact hends.resolve_right fun h => Bool.noConfusion (hstopped.symm.trans h)
    have hcancelled := hwaited.cancel hover hstopped
    have hlater : w.elapsedMs + Pool.cancelGraceMs =
        waitsUntil (s.world.elapsedMs + graceMs) true := by rw [hover, waitsUntil_true]
    simp only [cancelRest]
    rw [hlater]
    have hended := hcancelled.runUntil hlength hs.sound hdeadline hruns allStopped
      (w.orderCancel.stepsUntil (waitsUntil (s.world.elapsedMs + graceMs) true) + 1)
    refine .late hended ?_
    have htimely := (hcancelled.sound hlength hs.sound).timely
    rcases awaitStop_ends pool (waitsUntil (s.world.elapsedMs + graceMs) true) htimely
      (congrArg Prod.fst hcancelled.signals) with hlate | hall
    · exact .inr (Nat.le_antisymm (hended.elapsed hdeadline).2.2 hlate)
    · exact .inl hall

end World

/-! ## Claims -/

lemma Pool.workerCount_pos_of_make {config : Config} {broker : Broker} {registry : Registry}
    {hook : ErrorHook} {pool : Pool} (h : Pool.make config broker registry hook = .ok pool) :
    0 < pool.workerCount := by
  obtain ⟨hvalid, -, rfl⟩ := Pool.make_eq h
  refine Nat.pos_of_ne_zero fun hzero => ?_
  have hworkers : config.workerCount = 0 := hzero
  simp [Config.validate, Config.firstProblem, hworkers] at hvalid

namespace World

variable {w : World} {pool : Pool} {reading grace : Duration}

/-- Where the clock can hold the deadlines that there are, a shutdown is the same for all graces of
as many milliseconds. -/
lemma shutdownWithin_eq (hholds : holdsDeadline reading grace = true)
    (hcancel : holdsDeadline (.ofNanos (reading.nanos + grace.nanos))
      (.ofMillis Pool.cancelGraceMs) = true ∨ (w.shutdown pool grace.millis).1 = .ok ()) :
    w.shutdownWithin pool reading grace =
      (.ofExcept (w.shutdown pool grace.millis).1, (w.shutdown pool grace.millis).2) := by
  unfold shutdown at hcancel
  unfold shutdownWithin shutdown
  rw [if_pos hholds]
  simp only
  split
  · rfl
  · next hbusy =>
    rw [if_neg hbusy] at hcancel
    rcases hcancel with hcancel | hok
    · rw [if_pos hcancel]
    · cases hok

/-- If the clock cannot hold the deadline of the workers that were told to stop at once, the
shutdown crashes. -/
lemma shutdownWithin_late (hholds : holdsDeadline reading grace = true)
    (hcancel : holdsDeadline (.ofNanos (reading.nanos + grace.nanos))
      (.ofMillis Pool.cancelGraceMs) = false)
    (hbusy : (w.shutdown pool grace.millis).1 ≠ .ok ()) :
    (w.shutdownWithin pool reading grace).1 = .crashed := by
  unfold shutdown at hbusy
  unfold shutdownWithin
  rw [if_pos hholds]
  simp only
  split
  · next hstopped =>
    rw [if_pos hstopped] at hbusy
    exact absurd rfl hbusy
  · rw [hcancel]
    rfl

/-- A pool whose shutdown has crashed counts as running, and cannot be started. -/
lemma shutdownWithin_crash (hholds : holdsDeadline reading grace = false) :
    w.shutdownWithin pool reading grace = (.crashed, w.orderStop) ∧
      w.orderStop.running = w.running ∧
      (w.running = true →
        w.orderStop.startPool pool = .error (.workerPool .alreadyRunning)) := by
  have hrunning : w.orderStop.running = w.running :=
    congrArg (·.1.2.2) (notices_orderStop w)
  refine ⟨?_, hrunning, fun hruns => ?_⟩
  · unfold shutdownWithin
    rw [hholds]
    rfl
  · unfold startPool
    rw [if_pos (hrunning.trans hruns)]

end World

/-- **A shutdown gives every claim back.**  A pool that was accepted can be told to stop at any
moment of a run, with other clients at work on its broker.  From that moment on no worker claims a
task, and each delivery in progress ends once: with its own outcome, as the procedure of its handler
has ended by the deadline, or by its release at the deadline.  When the shutdown has returned, no
claim of the pool is left and the pool can be started again.  The simulation of a shutdown is one of
these, and it returns without an error exactly if all workers have stopped when time passes until
the deadline.

All this is so only if the clock can hold the deadline.  Otherwise whoever shuts the pool down
crashes when the workers were told to stop, and the pool counts as running for good.  The deadline
of those that are told to stop at once has to be held as well, if there are such workers. -/
theorem shutdown_gives_claims_back {config : Config} {broker : Broker} {registry : Registry}
    {hook : ErrorHook} {pool : Pool} (hmake : Pool.make config broker registry hook = .ok pool)
    {s : Shared} (hoperated : World.Operated pool broker.limits s) (graceMs : Nat) :
    (∀ late m, World.Winding pool (s.world.elapsedMs + graceMs) s late m →
      ∃ told claimed, World.Progress pool (s.world.elapsedMs + graceMs) s m told claimed) ∧
    (∀ result s', World.Stops pool graceMs s result s' →
      World.Returned pool broker.limits (s.world.elapsedMs + graceMs) s s') ∧
    (Instant.ofMillis (s.world.startMs +
        (s.world.elapsedMs + graceMs + Pool.cancelGraceMs : Nat)) < .latest →
      World.Stops pool graceMs s (s.world.shutdown pool graceMs).1
        { s with world := (s.world.shutdown pool graceMs).2 } ∧
      ∀ fuel, s.world.orderStop.stepsUntil (s.world.elapsedMs + graceMs) < fuel →
        ((s.world.shutdown pool graceMs).1 = .ok () ↔
          (World.runUntil pool (s.world.elapsedMs + graceMs) (fun _ => false) fuel
            s.world.orderStop).allStopped = true)) ∧
    ∀ reading grace : Duration, grace.millis = graceMs →
      (World.holdsDeadline reading grace = true →
        World.holdsDeadline (.ofNanos (reading.nanos + grace.nanos))
          (.ofMillis Pool.cancelGraceMs) = true ∨ (s.world.shutdown pool graceMs).1 = .ok () →
        s.world.shutdownWithin pool reading grace =
          (.ofExcept (s.world.shutdown pool graceMs).1, (s.world.shutdown pool graceMs).2)) ∧
      (World.holdsDeadline reading grace = true →
        World.holdsDeadline (.ofNanos (reading.nanos + grace.nanos))
          (.ofMillis Pool.cancelGraceMs) = false →
        (s.world.shutdown pool graceMs).1 ≠ .ok () →
        (s.world.shutdownWithin pool reading grace).1 = .crashed) ∧
      (World.holdsDeadline reading grace = false →
        s.world.shutdownWithin pool reading grace = (.crashed, s.world.orderStop) ∧
          World.Operated pool broker.limits { s with world := s.world.orderStop } ∧
          s.world.orderStop.running = s.world.running ∧
          (s.world.running = true →
            s.world.orderStop.startPool pool = .error (.workerPool .alreadyRunning))) := by
  have hlength := Pool.taskTimeout_lt_of_make hmake
  have horderly := hoperated.orderly hlength
  refine ⟨fun late m hwinding => ?_, fun result s' hstops => ?_, fun hruns => ?_,
    fun reading grace hgrace =>
      ⟨fun hholds hcancel => ?_, fun hholds hcancel hbusy => ?_, fun hholds => ?_⟩⟩
  · exact hwinding.progress hlength horderly (Nat.le_add_right _ graceMs)
  · exact hstops.returned hlength (Pool.workerCount_pos_of_make hmake) hoperated
  · obtain ⟨hstops, hok⟩ := World.stops_shutdown hlength horderly hruns
    refine ⟨hstops, fun fuel hfuel => hok.trans ?_⟩
    exact World.allStopped_awaitStop_iff horderly.sound.orderStop.timely
      (congrArg (·.1.1) (World.notices_orderStop s.world)) hfuel
  · rw [← hgrace] at hcancel ⊢
    exact World.shutdownWithin_eq hholds hcancel
  · rw [← hgrace] at hbusy
    exact World.shutdownWithin_late hholds hcancel hbusy
  · obtain ⟨hcrash, hrunning, hstart⟩ := World.shutdownWithin_crash hholds
    exact ⟨hcrash, hoperated.crash, hrunning, hstart⟩

/-! ### Two workers that are told to stop -/

/-- The deployment of two workers a second after two letters were submitted. -/
def pairBusy : World :=
  .runUntil pairPool 1000 (fun _ => false) 8
    ((pairStart.enqueue (.create "a" "letter" [] 0 .epoch)).2.enqueue
      (.create "b" "letter" [] 0 .epoch)).2

lemma operated_pairBusy : World.Operated pairPool pairBroker.limits ⟨pairBusy, []⟩ := by
  have start : World.Operated pairPool pairBroker.limits ⟨World.start 0 (.empty pairBroker.limits)
      (.empty 0) ⟨"", "", fun _ => false, []⟩, []⟩ := .start 0 _ _ (by decide +kernel)
  have started : World.Operated pairPool pairBroker.limits ⟨pairStart, []⟩ := start.startPool rfl
  have submitted := (started.move (.outside (.enqueue .refl (.create "a" "letter" [] 0 .epoch))
    (by rw [World.enqueue_eq]; rfl))).move (.outside (.enqueue .refl
      (.create "b" "letter" [] 0 .epoch)) (by rw [World.enqueue_eq]; rfl))
  have hlength := Pool.taskTimeout_lt_of_make make_pairPool
  have hmoves : World.Moves pairPool 1000 _ ⟨pairBusy, []⟩ :=
    (submitted.orderly hlength).sound.runUntil hlength (by decide +kernel) (fun _ => false) 8
  exact submitted.moves hmoves

theorem pair_gives_claims_back :
    Pool.make pairConfig pairBroker pairRegistry .log = .ok pairPool ∧
      World.Operated pairPool pairBroker.limits ⟨pairBusy, []⟩ ∧
      [0, 1].map (fun worker => (pairBusy.hand worker).map (·.id)) = [some "a", some "b"] ∧
      (pairBusy.shutdown pairPool 500).1 = .error (.workerPool .shutdownTimeout) ∧
      ((pairBusy.shutdown pairPool 500).2.events.take 2).map
        (fun entry => (entry.1.taskId, entry.1.state, entry.2)) =
          [("b", .pending, 1500), ("a", .pending, 1500)] ∧
      World.Returned pairPool pairBroker.limits (pairBusy.elapsedMs + 500) ⟨pairBusy, []⟩
        ⟨(pairBusy.shutdown pairPool 500).2, []⟩ ∧
      pairBusy.shutdownWithin pairPool (.ofSeconds 60) (.ofMillis 500) =
        (.error (.workerPool .shutdownTimeout), (pairBusy.shutdown pairPool 500).2) := by
  have hreturns := shutdown_gives_claims_back make_pairPool operated_pairBusy 500
  have hclock : Instant.ofMillis (pairBusy.startMs +
      (pairBusy.elapsedMs + 500 + Pool.cancelGraceMs : Nat)) < .latest := by decide +kernel
  have hlate : (pairBusy.shutdown pairPool 500).1 = .error (.workerPool .shutdownTimeout) := by
    decide +kernel
  have hwithin := (hreturns.2.2.2 (.ofSeconds 60) (.ofMillis 500) (by decide +kernel)).1
    (by decide +kernel) (.inl (by decide +kernel))
  rw [hlate] at hwithin
  exact ⟨make_pairPool, operated_pairBusy, by decide +kernel, hlate, by decide +kernel,
    hreturns.2.1 _ _ (hreturns.2.2.1 hclock).1, hwithin⟩

/-! ### A grace that no clock can hold -/

/-- The settings of two workers, with the longest grace that can be configured. -/
def patientConfig : Config := { pairConfig with shutdownTimeoutSecs := Nat.pow 2 64 - 1 }

lemma make_patient : Pool.make patientConfig pairBroker pairRegistry .log = .ok pairPool := by
  have hvalid : patientConfig.validate = .ok () := by decide +kernel
  have hlength : ¬ pairBroker.limits.visibilityTimeout ≤ patientConfig.taskTimeout := by
    decide +kernel
  unfold Pool.make
  rw [hvalid]
  simp only [hlength, if_false]
  rfl

/-- **A shutdown crashes.**  The settings are accepted, and their pool is the one of two workers.
Its shutdown crashes on every clock that has been running for a second, and the pool counts as
running and cannot be started. -/
theorem patient_shutdown_crashes :
    Pool.make patientConfig pairBroker pairRegistry .log = .ok pairPool ∧
      World.Operated pairPool pairBroker.limits ⟨pairBusy, []⟩ ∧
      pairBusy.shutdownWithin pairPool (.ofSeconds 1) patientConfig.shutdownTimeout =
        (.crashed, pairBusy.orderStop) ∧
      pairBusy.orderStop.running = true ∧
      pairBusy.orderStop.startPool pairPool = .error (.workerPool .alreadyRunning) := by
  have hruns : pairBusy.running = true := by decide +kernel
  have hholds : World.holdsDeadline (.ofSeconds 1) patientConfig.shutdownTimeout = false := by
    decide +kernel
  obtain ⟨hcrash, hrunning, hstart⟩ :
      pairBusy.shutdownWithin pairPool (.ofSeconds 1) patientConfig.shutdownTimeout =
        (.crashed, pairBusy.orderStop) ∧ _ ∧ _ :=
    World.shutdownWithin_crash hholds
  exact ⟨make_patient, operated_pairBusy, hcrash, hrunning.trans hruns, hstart hruns⟩

end WorkQueue
