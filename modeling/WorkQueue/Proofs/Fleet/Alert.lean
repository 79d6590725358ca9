import WorkQueue.Proofs.Fleet.Punctual

/-!
# Workers that heed their orders

A worker that was told to stop must be woken if it waits for something that may never come, and so
must a worker that was told to stop at once.  A deployment is alert when no worker is left waiting
for what its orders do not let it wait for (`Alert`): each of them either may wait, or can go on.

Every step of a deployment sees to that, and so do the orders themselves, which wake the workers
that have to heed them.  Hence, when workers were told to stop at once and none of them can go on,
all have stopped (`Alert.allStopped`): none is stuck.
-/

namespace WorkQueue
namespace World

variable {pool : Pool} {crashes : Prop} {w w' : World} {shift : Shift} {number : Nat}
  {phase : Phase}

/-! ## Waiting in spite of an order -/

/-- Whether a worker may go on waiting for what it waits for, by what it was told. -/
def MayWait (w : World) : Phase → Prop
  | .ready => False
  | .polling _ => w.stopping = false
  | .executing _ _ (.suspended _ _) => w.cancelled = false
  | .executing _ _ (.ended _) => False
  | _ => True

/-- Whether a worker can go on, or may wait. -/
def Heeds (w : World) (number : Nat) : Prop :=
  ∀ phase, w.workers[number]? = some phase → w.MayWait phase ∨ .worker number ∈ w.runnable

/-- Whether no worker is left waiting for what it may not wait for. -/
def Alert (w : World) : Prop := ∀ number, w.Heeds number

lemma MayWait.congr (h : w.MayWait phase) (hsignals : w'.notices.1 = w.notices.1) :
    w'.MayWait phase := by
  have hstopping : w'.stopping = w.stopping := congrArg Prod.fst hsignals
  have hcancelled : w'.cancelled = w.cancelled := congrArg (·.2.1) hsignals
  cases phase with
  | polling => exact hstopping.trans h
  | executing _ _ execution =>
    cases execution with
    | suspended => exact hcancelled.trans h
    | ended => exact h
  | _ => exact h

lemma Waits.mayWait (h : w.Waits phase) : w.MayWait phase := by
  cases phase with
  | polling => exact h.1
  | executing _ _ execution =>
    cases execution with
    | suspended => exact h.1
    | ended => exact h
  | stopped => trivial
  | ready | claiming | reporting => exact h.elim

lemma Grows.heeds (h : Grows w w') (hsignals : w'.notices.1 = w.notices.1)
    (hheeds : w.Heeds number) : w'.Heeds number := by
  intro phase hphase
  rw [h.workers] at hphase
  exact (hheeds phase hphase).imp (·.congr hsignals) fun hrunnable => h.runnable hrunnable

lemma Grows.alert (h : Grows w w') (hsignals : w'.notices.1 = w.notices.1) (hw : Alert w) :
    Alert w' :=
  fun number => h.heeds hsignals (hw number)

lemma Touches.heeds (h : Touches number w w') (hsignals : w'.notices.1 = w.notices.1)
    {other : Nat} (hother : other ≠ number) (hheeds : w.Heeds other) : w'.Heeds other := by
  intro phase hphase
  rw [h.workers other hother] at hphase
  exact (hheeds phase hphase).imp (·.congr hsignals) (h.runnable (.worker other) hother)

/-! ## Steps -/

lemma phase_setPhase {phase' : Phase}
    (h : (w.setPhase number phase).workers[number]? = some phase') : phase' = phase := by
  rw [setPhase, List.getElem?_set_self'] at h
  cases hold : w.workers[number]? with
  | none => simp [hold] at h
  | some old =>
    rw [hold] at h
    exact (Option.some.inj h).symm

lemma heeds_setPhase (h : (w.setPhase number phase).MayWait phase) :
    (w.setPhase number phase).Heeds number := by
  intro phase' hphase
  exact .inl (phase_setPhase hphase ▸ h)

/-- A worker comes to rest only where it may wait, or goes on. -/
lemma Rests.heeds (h : Rests pool w number phase w') : w'.Heeds number := by
  cases h with
  | stopped same => exact same.grows.heeds same.signals (heeds_setPhase trivial)
  | ready same =>
    exact same.grows.heeds same.signals fun _ _ => .inr List.mem_cons_self
  | polling going millis same =>
    exact same.grows.heeds same.signals
      ((grows_startTimer _ _ _).heeds rfl (heeds_setPhase going))
  | claiming _ _ same | reporting _ _ _ _ same =>
    exact same.grows.heeds same.signals
      ((grows_startTimer _ _ _).heeds rfl (heeds_setPhase trivial))
  | executing going task begins millis same =>
    refine same.grows.heeds same.signals ((grows_startTimer _ _ _).heeds rfl ?_)
    obtain ⟨-⟩ := begins
    exact (grows_wake _ _).heeds (congrArg Prod.fst (notices_wake _ _)) (heeds_setPhase going)

lemma heeds_stepWorker (w : World) (pool : Pool) (number : Nat) :
    (w.stepWorker pool number).Heeds number := by
  rcases w.stepWorker_turn pool number with ⟨hsame, hwaits⟩ | ⟨_, _, -, ⟨base, _, -, -, h⟩, -⟩
  · rw [hsame]
    exact fun phase hphase => .inl (hwaits phase hphase).mayWait
  · exact h.heeds

lemma touches_stepWorker (w : World) (pool : Pool) (number : Nat) :
    Touches number w (w.stepWorker pool number) := by
  rcases w.stepWorker_turn pool number with ⟨hsame, -⟩ | ⟨_, _, -, ⟨base, _, hbase, -, h⟩, -⟩
  · rw [hsame]
    exact (Grows.refl w).touches number
  · exact hbase.touches.trans h.settles.toTouches

lemma heeds_stepHandler (h : w.Heeds number) : (w.stepHandler number).Heeds number := by
  rcases w.stepHandler_turn number with
    ⟨hsame, -⟩ | ⟨task, dueMs, rest, waiting, execution, hphase, -, hrests⟩
  · rwa [hsame]
  · -- The handler waits as it may, or its worker can go on already.
    have hsuspended : ∀ rest waiting, (w.setPhase number (.executing task dueMs
        (.suspended rest waiting))).Heeds number := by
      intro rest' waiting' phase hphase'
      rw [phase_setPhase hphase']
      exact h _ hphase
    cases hrests with
    | ended ending same =>
      exact same.grows.heeds same.signals fun _ _ => .inr (mem_runnable_wake _ _)
    | sleeping _ rest waiting same =>
      exact same.grows.heeds same.signals
        ((grows_startTimer _ _ _).heeds rfl (hsuspended rest waiting))
    | awaiting _ rest same => exact same.grows.heeds same.signals (hsuspended rest .cancel)

lemma touches_stepHandler (w : World) (number : Nat) :
    Touches number w (w.stepHandler number) := by
  rcases w.stepHandler_turn number with
    ⟨hsame, -⟩ | ⟨task, dueMs, rest, waiting, execution, -, -, h⟩
  · rw [hsame]
    exact (Grows.refl w).touches number
  · exact (touches_setPhase w number _).trans (h.grown.touches number)

/-- A deployment is alert when one of the threads that can go on has done so. -/
theorem Alert.step (h : Alert w) (thread : Thread) :
    Alert ({ w with runnable := w.runnable.erase thread }.step pool thread) := by
  have hsignals := signals_step { w with runnable := w.runnable.erase thread } pool thread
  have hpopped : ∀ other, .worker other ≠ thread →
      Heeds { w with runnable := w.runnable.erase thread } other :=
    fun other hother phase hphase => (h other phase hphase).imp id
      (List.mem_erase_of_ne hother).mpr
  intro other
  cases thread with
  | worker number =>
    by_cases hother : other = number
    · exact hother ▸ heeds_stepWorker _ pool other
    · have hne : Thread.worker other ≠ .worker number := fun heq => hother (Thread.worker.inj heq)
      exact (touches_stepWorker _ pool number).heeds hsignals hother (hpopped other hne)
  | handler number =>
    have hheeds := hpopped other Thread.noConfusion
    by_cases hother : other = number
    · subst hother
      exact heeds_stepHandler hheeds
    · exact (touches_stepHandler _ number).heeds hsignals hother hheeds

/-! ## Time and orders -/

lemma Alert.moveTo (h : Alert w) (timeMs : Nat) : Alert (w.moveTo timeMs) := by
  have hmoved : Alert (w.clockAt timeMs) := fun number phase hphase =>
    (h number phase hphase).imp (·.congr rfl) id
  have hwakes := moveTo_wakes w timeMs
  exact hwakes.grows.alert (congrArg Prod.fst hwakes.notices) hmoved

lemma mem_runnable_wakeWorkers {which : Phase → Bool} (hphase : w.workers[number]? = some phase)
    (hwhich : which phase = true) : .worker number ∈ (w.wakeWorkers which).runnable := by
  unfold wakeWorkers
  refine mem_runnable_foldl (fun w number => ?_)
    (List.mem_range.mpr (List.getElem?_eq_some_iff.mp hphase).1) fun w' hwoken => ?_
  · split
    · split
      · exact .wake .refl _
      · exact .refl
    · exact .refl
  · rw [hwoken.unmoved.workers, hphase]
    simp only [hwhich, if_true]
    exact mem_runnable_wake w' _

/-- The order to stop wakes the workers that wait for a task. -/
theorem Alert.orderStop (h : Alert w) : Alert w.orderStop := by
  obtain ⟨w', hflag, hwakes⟩ := orderStop_wakes w
  intro number phase hphase
  rw [hwakes.unmoved.workers, hflag.workers] at hphase
  have hcancelled : w.orderStop.cancelled = w.cancelled := congrArg (·.1.2.1) (notices_orderStop w)
  have hstays : .worker number ∈ w.runnable → .worker number ∈ w.orderStop.runnable :=
    fun hrunnable => hwakes.grows.runnable (hflag.runnable ▸ hrunnable)
  cases phase with
  | polling =>
    have hphase' : ({ w with stopping := true } : World).workers[number]? = _ := hphase
    exact .inr (mem_runnable_wakeWorkers hphase' rfl)
  | executing task dueMs execution =>
    refine (h number _ hphase).imp (fun hwait => ?_) hstays
    cases execution with
    | suspended => exact hcancelled.trans hwait
    | ended => exact hwait
  | _ => exact (h number _ hphase).imp id hstays

/-- The order to stop at once wakes the workers that wait for a handler. -/
theorem Alert.orderCancel (h : Alert w) : Alert w.orderCancel := by
  have hhandlers := wakes_wakeHandlers { w with cancelled := true }
  have hworkers := wakes_wakeWorkers (World.wakeHandlers { w with cancelled := true }) isExecuting
  intro number phase hphase
  rw [World.orderCancel, hworkers.unmoved.workers] at hphase
  have hphase' : w.workers[number]? = some phase := by rwa [hhandlers.unmoved.workers] at hphase
  have hstopping : w.orderCancel.stopping = w.stopping := congrArg (·.1.1) (notices_orderCancel w)
  have hstays : .worker number ∈ w.runnable → .worker number ∈ w.orderCancel.runnable :=
    fun hrunnable => hworkers.grows.runnable (hhandlers.grows.runnable hrunnable)
  cases phase with
  | executing => exact .inr (mem_runnable_wakeWorkers hphase rfl)
  | polling => exact (h number _ hphase').imp hstopping.trans hstays
  | _ => exact (h number _ hphase').imp id hstays

lemma alert_of_started (hworkers : w.workers = List.replicate pool.workerCount .ready)
    (hrunnable : w.runnable = (List.range pool.workerCount).map .worker) : Alert w := by
  intro number phase hphase
  have hnumber := (List.getElem?_eq_some_iff.mp hphase).1
  rw [hworkers, List.length_replicate] at hnumber
  rw [hrunnable]
  exact .inr (List.mem_map_of_mem (List.mem_range.mpr hnumber))

lemma alert_of_none (hworkers : w.workers = []) : Alert w := by
  intro number phase hphase
  rw [hworkers] at hphase
  cases hphase

/-! ## Stopped workers -/

lemma hasStopped_iff : hasStopped phase = true ↔ phase = .stopped := by
  cases phase <;> simp [hasStopped]

lemma allStopped_iff : w.allStopped = true ↔ ∀ phase ∈ w.workers, phase = .stopped := by
  simp only [allStopped, List.all_eq_true, hasStopped_iff]

/-- A worker that has stopped has nothing in hand. -/
lemma hand_of_allStopped (h : w.allStopped = true) (number : Nat) : w.hand number = none := by
  rw [hand]
  cases hphase : w.workers[number]? with
  | none => rfl
  | some phase =>
    rw [allStopped_iff.mp h phase (List.mem_of_getElem? hphase)]
    rfl

/-- Workers that have stopped do nothing more. -/
lemma step_of_allStopped (h : w.allStopped = true) (thread : Thread) : w.step pool thread = w := by
  cases thread with
  | worker number =>
    change w.stepWorker pool number = w
    unfold stepWorker
    cases hphase : w.workers[number]? with
    | none => rfl
    | some phase =>
      rw [allStopped_iff.mp h phase (List.mem_of_getElem? hphase)]
  | handler number =>
    change w.stepHandler number = w
    unfold stepHandler
    cases hphase : w.workers[number]? with
    | none => rfl
    | some phase =>
      rw [allStopped_iff.mp h phase (List.mem_of_getElem? hphase)]

/-- **Workers that were told to stop at once do**: when none of them can go on, all have stopped. -/
theorem Alert.allStopped (h : Alert w) (hdeployed : Deployed pool False w shift)
    (hstopping : w.stopping = true) (hcancelled : w.cancelled = true) (hidle : w.runnable = []) :
    w.allStopped = true := by
  rw [allStopped_iff]
  intro phase hmem
  obtain ⟨number, hphase⟩ := List.mem_iff_getElem?.mp hmem
  have hhonest := hdeployed.honest number phase hphase
  have hwait : w.MayWait phase := (h number phase hphase).resolve_right fun hrunnable => by
    rw [hidle] at hrunnable
    cases hrunnable
  cases phase with
  | stopped => rfl
  | ready => exact hwait.elim
  | polling => exact absurd (hstopping.symm.trans hwait) Bool.noConfusion
  | executing _ _ execution =>
    cases execution with
    | suspended => exact absurd (hcancelled.symm.trans hwait) Bool.noConfusion
    | ended => exact hwait.elim
  | claiming => exact hhonest.elim
  | reporting => exact hhonest.1.elim

end World
end WorkQueue
