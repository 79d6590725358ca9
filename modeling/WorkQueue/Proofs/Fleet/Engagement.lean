import WorkQueue.Proofs.Fleet.Alert

/-!
# Handlers at work

Whatever a worker executes is a handler that is registered for the type of its task, and what is
left of it, or how it has ended, is what its procedure has come to (`Engaged`).  Every step of a
deployment keeps that.

A handler that was given up goes on only if it was computing at that moment.  A pool whose handlers
never compute for a while leaves none behind (`stragglers_step`), and those that a deployment
registers never do (`Registry.yields_of_ofDeployment`).
-/

namespace WorkQueue

/-- Whether no handler of a registry ever computes for a while. -/
def Registry.Yields (registry : Registry) : Prop :=
  ∀ kind handler, (kind, handler) ∈ registry.handlers →
    ∀ delivery task, (handler delivery task).Yields

/-- The handler of verification tasks asks for no time of any kind. -/
lemma Verification.yields_handler (baseUrl : String) (delivery : Delivery) (task : Task) :
    (handler baseUrl delivery task).Yields := by
  unfold handler
  cases decodePayload task with
  | error error => exact Procedure.yields_done _
  | ok payload =>
    refine Procedure.yields_ask (fun _ => Request.noConfusion) fun found => ?_
    cases found with
    | error error => exact Procedure.yields_done _
    | ok user =>
      refine Procedure.yields_ask (fun _ => Request.noConfusion) fun secretCode =>
        Procedure.yields_ask (fun _ => Request.noConfusion) fun made => ?_
      cases made with
      | error error => exact Procedure.yields_done _
      | ok record =>
        refine Procedure.yields_ask (fun _ => Request.noConfusion) fun (stop : Bool) => ?_
        cases stop with
        | true => exact Procedure.yields_done _
        | false =>
          refine Procedure.yields_ask (fun _ => Request.noConfusion) fun sent => ?_
          cases sent <;> exact Procedure.yields_done _

/-- The handlers that a deployment registers never compute for a while. -/
lemma Registry.yields_of_ofDeployment {baseUrl : String} {registry : Registry}
    (h : Registry.ofDeployment baseUrl = .ok registry) : registry.Yields := by
  intro kind handler hregistered delivery task
  cases h
  obtain ⟨-, rfl⟩ := Prod.mk.inj (List.mem_singleton.mp hregistered)
  exact Verification.yields_handler baseUrl delivery task

/-- The task whose handler a worker executes in a phase. -/
def Phase.executed? : Phase → Option Task
  | .executing task _ _ => some task
  | _ => none

namespace World

variable {pool : Pool} {w w' : World} {number : Nat} {phase : Phase}

/-- The tasks that handlers are at work on: those that workers wait for, and those that were given
up and go on. -/
def atWork (w : World) : List Task :=
  w.workers.filterMap Phase.executed? ++ w.stragglers.map (·.task)

/-- Whether every worker executes a handler that its pool has for the type of its task. -/
def Engaged (pool : Pool) (w : World) : Prop :=
  ∀ (number : Nat) (task : Task) (dueMs : Nat) (execution : Execution),
    w.workers[number]? = some (.executing task dueMs execution) → pool.Engages task execution

lemma Engaged.congr (h : Engaged pool w) (hworkers : w'.workers = w.workers) : Engaged pool w' := by
  intro number task dueMs execution hphase
  rw [hworkers] at hphase
  exact h number task dueMs execution hphase

lemma Engaged.setPhase (h : Engaged pool w) (number : Nat) (hphase : ∀ task dueMs execution,
    phase = .executing task dueMs execution → pool.Engages task execution) :
    Engaged pool (w.setPhase number phase) := by
  intro other task dueMs execution hother
  by_cases heq : number = other
  · subst heq
    exact hphase task dueMs execution (phase_setPhase hother).symm
  · rw [World.setPhase, List.getElem?_set_ne heq] at hother
    exact h other task dueMs execution hother

/-- Workers that have not begun execute nothing. -/
lemma engaged_of_idle (hworkers : ∀ phase ∈ w.workers, phase = .ready) : Engaged pool w := by
  intro number task dueMs execution hphase
  cases hworkers _ (List.mem_of_getElem? hphase)

lemma engaged_of_none (hworkers : w.workers = []) : Engaged pool w :=
  engaged_of_idle fun _ hphase => absurd (hworkers ▸ hphase) List.not_mem_nil

/-! ## Steps -/

/-- A worker that comes to rest leaves the others as they were. -/
lemma Rests.workers (h : Rests pool w number phase w') :
    w'.workers = (w.setPhase number phase).workers := by
  cases h with
  | stopped same | ready same | polling _ _ same | claiming _ _ same | reporting _ _ _ _ same =>
    exact same.workers
  | executing _ _ _ _ same => exact same.workers.trans (unmoved_wake _ _).workers

lemma Rests.stragglers (h : Rests pool w number phase w') : w'.stragglers = w.stragglers := by
  cases h with
  | stopped same | ready same | polling _ _ same | claiming _ _ same | reporting _ _ _ _ same =>
    exact same.stragglers
  | executing _ _ _ _ same =>
    exact same.stragglers.trans (congrArg Prod.snd (aside_wake _ _))

/-- A worker that comes to rest at work has begun with a handler that is registered. -/
lemma Rests.engaged (h : Rests pool w number phase w') (hw : Engaged pool w) : Engaged pool w' := by
  refine (hw.setPhase number fun task dueMs execution hphase => ?_).congr h.workers
  cases h with
  | executing going held begins millis same =>
    cases hphase
    exact begins.engages
  | _ => cases hphase

lemma Forgets.workers {base : World} (h : Forgets w number base) : base.workers = w.workers := by
  cases h with
  | nothing | worker => rfl
  | both => exact (apart_giveUp w number).workers

/-- **Workers execute registered handlers only**, whatever thread goes on. -/
theorem Engaged.step (h : Engaged pool w) (thread : Thread) :
    Engaged pool (w.step pool thread) := by
  cases thread with
  | worker number =>
    show Engaged pool (w.stepWorker pool number)
    rcases w.stepWorker_turn pool number with
      ⟨hsame, -⟩ | ⟨phase, rank, -, ⟨base, phase', hbase, -, hrests⟩, -⟩
    · rwa [hsame]
    · exact hrests.engaged (h.congr hbase.workers)
  | handler number =>
    show Engaged pool (w.stepHandler number)
    rcases w.stepHandler_turn number with
      ⟨hsame, -⟩ | ⟨task, dueMs, rest, waiting, execution, hphase, honward, hrests⟩
    · rwa [hsame]
    · have hengages := h number task dueMs _ hphase
      refine (h.setPhase number fun task' dueMs' execution' heq => ?_).congr
        hrests.grown.workers
      cases heq
      exact hengages.onward honward

/-! ## Handlers that were given up -/

/-- A handler that is not computing is gone when it is given up. -/
lemma giveUp_of_yields (hengaged : Engaged pool w) (hyields : pool.registry.Yields)
    (number : Nat) : w.giveUp number = w := by
  unfold giveUp
  split
  · next task dueMs rest untilMs hphase =>
    obtain ⟨handler, hregistered, hof⟩ := hengaged number task dueMs _ hphase
    exact absurd hof (hyields _ handler hregistered _ _).not_computing
  · rfl

/-- **Handlers that never compute for a while are not left behind.** -/
theorem stragglers_step (hengaged : Engaged pool w) (hyields : pool.registry.Yields)
    (thread : Thread) : (w.step pool thread).stragglers = w.stragglers := by
  cases thread with
  | worker number =>
    show (w.stepWorker pool number).stragglers = w.stragglers
    rcases w.stepWorker_turn pool number with
      ⟨hsame, -⟩ | ⟨phase, rank, -, ⟨base, phase', hbase, -, hrests⟩, -⟩
    · rw [hsame]
    · rw [hrests.stragglers]
      cases hbase with
      | nothing | worker => rfl
      | both =>
        rw [giveUp_of_yields hengaged hyields number]
        rfl
  | handler number =>
    show (w.stepHandler number).stragglers = w.stragglers
    rcases w.stepHandler_turn number with
      ⟨hsame, -⟩ | ⟨task, dueMs, rest, waiting, execution, -, -, hrests⟩
    · rw [hsame]
    · cases hrests with
      | ended ending same => exact same.stragglers.trans (congrArg Prod.snd (aside_wake _ _))
      | sleeping _ _ _ same | awaiting _ _ same => exact same.stragglers

/-- Nothing goes on where nothing was left behind. -/
lemma resumeStragglers_of_none (h : w.stragglers = []) : w.resumeStragglers = w := by
  unfold resumeStragglers
  simp only [h, List.filter_nil, List.foldl_nil]
  rw [← h]

/-- If no two workers have tasks with the same id in hand and nothing was left behind, no two
handlers are at work on tasks with the same id. -/
lemma nodup_atWork (hsole : ∀ number other task task', w.hand number = some task →
      w.hand other = some task' → task.id = task'.id → number = other)
    (hnone : w.stragglers = []) : (w.atWork.map (·.id)).Nodup := by
  unfold atWork
  rw [hnone, List.map_nil, List.append_nil, List.Nodup, List.pairwise_map, List.pairwise_filterMap,
    List.pairwise_iff_getElem]
  intro number other hnumber hother hlt task htask task' htask' hid
  -- What a worker executes it has in hand.
  have hhand : ∀ index (hindex : index < w.workers.length) task,
      w.workers[index].executed? = some task → w.hand index = some task := by
    intro index hindex task hexecuted
    rw [hand, List.getElem?_eq_getElem hindex]
    show w.workers[index].task? = some task
    cases hphase : w.workers[index] with
    | executing held =>
      rw [hphase] at hexecuted
      exact hexecuted
    | _ =>
      rw [hphase] at hexecuted
      cases hexecuted
  exact absurd (hsole number other task task' (hhand number hnumber task htask)
    (hhand other hother task' htask') hid) (Nat.ne_of_lt hlt)

end World
end WorkQueue
