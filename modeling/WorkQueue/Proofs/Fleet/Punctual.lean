import WorkQueue.Proofs.Fleet.Turns

/-!
# Deployments that keep time

A deployment keeps time when every worker that executes a task will be woken when the time of the
task is over (`Timely`).  Every step of the deployment sees to that: it changes only what its own
worker waits for (`Touches`), and leaves that worker waiting (`Settles`).  The clock moves only to
times that nothing was to happen before, so that it never goes beyond the time of a task.
-/

namespace WorkQueue

/-- The worker of a thread. -/
def Thread.number : Thread → Nat
  | .worker number => number
  | .handler number => number

namespace World

variable {pool : Pool} {w w' : World} {shift : Shift} {number : Nat} {task : Task}

/-! ## What a step changes -/

/-- Whether a worker that executes a task is woken when the time of the task is over. -/
def Awaited (w : World) (number : Nat) : Prop :=
  ∀ task dueMs execution, w.workers[number]? = some (.executing task dueMs execution) →
    ⟨dueMs, .worker number⟩ ∈ w.timers ∨ .worker number ∈ w.runnable ∧ dueMs ≤ w.elapsedMs

/-- Whether all workers do what they did, and none of their threads is forgotten. -/
structure Grows (w w' : World) : Prop where
  time : w'.time = w.time
  workers : w'.workers = w.workers
  runnable : w.runnable ⊆ w'.runnable
  timers : w.timers ⊆ w'.timers
  later : ∀ timer ∈ w'.timers, timer ∈ w.timers ∨ w.elapsedMs ≤ timer.dueMs

/-- Whether all workers but one do what they did, and none of their threads is forgotten. -/
structure Touches (number : Nat) (w w' : World) : Prop where
  time : w'.time = w.time
  workers : ∀ other ≠ number, w'.workers[other]? = w.workers[other]?
  runnable : ∀ thread : Thread, thread.number ≠ number → thread ∈ w.runnable → thread ∈ w'.runnable
  timers : ∀ timer : Timer, timer.thread.number ≠ number → timer ∈ w.timers → timer ∈ w'.timers
  later : ∀ timer ∈ w'.timers, timer ∈ w.timers ∨ w.elapsedMs ≤ timer.dueMs

/-- Whether in addition the one worker is left waiting for the end of its time. -/
structure Settles (number : Nat) (w w' : World) : Prop extends Touches number w w' where
  awaited : Awaited w' number

@[refl] lemma Grows.refl (w : World) : Grows w w :=
  ⟨rfl, rfl, List.Subset.refl _, List.Subset.refl _, fun _ => .inl⟩

lemma Grows.trans {w'' : World} (h : Grows w w') (h' : Grows w' w'') : Grows w w'' where
  time := h'.time.trans h.time
  workers := h'.workers.trans h.workers
  runnable := List.Subset.trans h.runnable h'.runnable
  timers := List.Subset.trans h.timers h'.timers
  later timer htimer := by
    rcases h'.later timer htimer with hold | hlater
    · exact h.later timer hold
    · exact .inr (elapsedMs_eq h.time ▸ hlater)

lemma Touches.trans {w'' : World} (h : Touches number w w') (h' : Touches number w' w'') :
    Touches number w w'' where
  time := h'.time.trans h.time
  workers other hother := (h'.workers other hother).trans (h.workers other hother)
  runnable thread hother := h'.runnable thread hother ∘ h.runnable thread hother
  timers timer hother := h'.timers timer hother ∘ h.timers timer hother
  later timer htimer := by
    rcases h'.later timer htimer with hold | hlater
    · exact h.later timer hold
    · exact .inr (elapsedMs_eq h.time ▸ hlater)

lemma Grows.touches (h : Grows w w') (number : Nat) : Touches number w w' where
  time := h.time
  workers other _ := by rw [h.workers]
  runnable _ _ hmem := h.runnable hmem
  timers _ _ hmem := h.timers hmem
  later := h.later

lemma Grows.awaited (h : Grows w w') (hawaited : Awaited w number) : Awaited w' number := by
  intro task dueMs execution hphase
  rw [h.workers] at hphase
  refine (hawaited task dueMs execution hphase).imp (fun htimer => h.timers htimer)
    fun ⟨hrunnable, hdue⟩ => ⟨h.runnable hrunnable, ?_⟩
  rw [elapsedMs_eq h.time]
  exact hdue

lemma Touches.awaited (h : Touches number w w') {other : Nat} (hother : other ≠ number)
    (hawaited : Awaited w other) : Awaited w' other := by
  intro task dueMs execution hphase
  rw [h.workers other hother] at hphase
  refine (hawaited task dueMs execution hphase).imp (h.timers ⟨dueMs, .worker other⟩ hother)
    fun ⟨hrunnable, hdue⟩ => ⟨h.runnable (.worker other) hother hrunnable, ?_⟩
  rw [elapsedMs_eq h.time]
  exact hdue

lemma Settles.grow {w'' : World} (h : Settles number w w') (hgrows : Grows w' w'') :
    Settles number w w'' :=
  ⟨h.toTouches.trans (hgrows.touches number), hgrows.awaited h.awaited⟩

lemma Touches.settles {w'' : World} (h : Touches number w w') (h' : Settles number w' w'') :
    Settles number w w'' :=
  ⟨h.trans h'.toTouches, h'.awaited⟩

/-! ### Threads, timers and phases -/

lemma Apart.grows (h : Apart w w') : Grows w w' where
  time := h.time
  workers := h.workers
  runnable := h.runnable ▸ List.Subset.refl _
  timers := h.timers ▸ List.Subset.refl _
  later _ htimer := .inl (h.timers ▸ htimer)

lemma Handled.grows (h : Handled w w') : Grows w w' := by
  obtain ⟨htime, hworkers, hrunnable, htimers⟩ := h.frame
  exact ⟨htime, hworkers, hrunnable ▸ List.Subset.refl _, htimers ▸ List.Subset.refl _,
    fun timer htimer => .inl (htimers ▸ htimer)⟩

lemma grows_wake (w : World) (thread : Thread) : Grows w (w.wake thread) := by
  unfold wake
  split
  · exact .refl w
  · exact ⟨rfl, rfl, List.subset_append_left _ _, List.Subset.refl _, fun _ => .inl⟩

lemma grows_goOn (w : World) (number : Nat) : Grows w (w.goOn number) :=
  ⟨rfl, rfl, List.subset_cons_self _ _, List.Subset.refl _, fun _ => .inl⟩

lemma grows_startTimer (w : World) (thread : Thread) (millis : Nat) :
    Grows w (w.startTimer thread millis) := by
  refine ⟨rfl, rfl, List.Subset.refl _, List.subset_append_left _ _, fun timer htimer => ?_⟩
  rcases List.mem_append.mp htimer with hold | hnew
  · exact .inl hold
  · rw [List.mem_singleton.mp hnew]
    exact .inr (Nat.le_add_right _ _)

lemma touches_setPhase (w : World) (number : Nat) (phase : Phase) :
    Touches number w (w.setPhase number phase) :=
  ⟨rfl, fun _ hother => List.getElem?_set_ne (Ne.symm hother), fun _ _ => id, fun _ _ => id,
    fun _ => .inl⟩

/-- A worker that executes nothing waits for no end. -/
lemma settles_setPhase (w : World) (number : Nat) {phase : Phase}
    (hidle : isExecuting phase = false) : Settles number w (w.setPhase number phase) := by
  refine ⟨touches_setPhase w number phase, fun task dueMs execution hphase => ?_⟩
  rw [World.setPhase, List.getElem?_set] at hphase
  split at hphase
  · split at hphase
    · cases hphase
      cases hidle
    · cases hphase
  · next hne => exact absurd rfl hne

lemma touches_forget (w : World) {thread : Thread} (hthread : thread.number = number) :
    Touches number w (w.forget thread) := by
  have hother : ∀ other : Thread, other.number ≠ number → other ≠ thread := by
    rintro other hne rfl
    exact hne hthread
  refine ⟨rfl, fun _ _ => rfl, fun other hne hmem => ?_, fun timer hne hmem => ?_,
    fun timer htimer => .inl (List.mem_filter.mp htimer).1⟩
  · exact List.mem_filter.mpr ⟨hmem, by simpa using hother other hne⟩
  · exact List.mem_filter.mpr ⟨hmem, by simpa using hother timer.thread hne⟩

/-! ### Workers -/

lemma SameThreads.grows (h : SameThreads w w') : Grows w w' where
  time := h.time
  workers := h.workers
  runnable := h.runnable ▸ List.Subset.refl _
  timers := h.timers ▸ List.Subset.refl _
  later _ htimer := .inl (h.timers ▸ htimer)

lemma Forgets.touches (h : Forgets w number w') : Touches number w w' := by
  have hworker : ∀ w, Touches number w (w.forget (.worker number)) :=
    fun w => touches_forget w rfl
  cases h with
  | nothing => exact (Grows.refl w).touches number
  | worker => exact hworker w
  | both =>
    exact (((apart_giveUp w number).grows.touches number).trans (hworker _)).trans
      (touches_forget _ rfl)

lemma dueMs_setPhase {dueMs dueMs' : Nat} {execution execution' : Execution} {task task' : Task}
    (h : (w.setPhase number (.executing task dueMs execution)).workers[number]? =
      some (.executing task' dueMs' execution')) : dueMs' = dueMs := by
  rw [World.setPhase, List.getElem?_set_self'] at h
  cases hold : w.workers[number]? with
  | none => simp [hold] at h
  | some phase =>
    rw [hold] at h
    cases h
    rfl

/-- A worker that begins to execute a task starts a timer for the end of its time. -/
lemma settles_start (w : World) (number : Nat) (task : Task) (execution : Execution)
    (millis : Nat) :
    Settles number w (((w.setPhase number (.executing task (w.elapsedMs + millis)
      execution)).wake (.handler number)).startTimer (.worker number) millis) := by
  have hphase := touches_setPhase w number (.executing task (w.elapsedMs + millis) execution)
  have hwoken := hphase.trans ((grows_wake _ (.handler number)).touches number)
  refine ⟨hwoken.trans ((grows_startTimer _ (.worker number) millis).touches number), ?_⟩
  intro task' dueMs execution' hexecuting
  rw [(grows_startTimer _ _ _).workers, (grows_wake _ _).workers] at hexecuting
  have hdue := dueMs_setPhase hexecuting
  have helapsed := elapsedMs_eq hwoken.time
  refine .inl (List.mem_append_right _ ?_)
  rw [helapsed, hdue]
  exact List.mem_singleton_self _

/-- A worker that has come to rest waits for the end of its time, if it executes a task. -/
lemma Rests.settles {phase : Phase} (h : Rests pool w number phase w') : Settles number w w' := by
  cases h with
  | stopped same => exact (settles_setPhase w number rfl).grow same.grows
  | ready same => exact ((settles_setPhase w number rfl).grow (grows_goOn _ number)).grow same.grows
  | polling _ _ same | claiming _ _ same | reporting _ _ _ _ same =>
    exact ((settles_setPhase w number rfl).grow (grows_startTimer _ _ _)).grow same.grows
  | @executing _ _ task execution _ millis same =>
    exact (settles_start w number task execution millis).grow same.grows

/-- A worker that was woken goes on waiting only if the time of its task is not over. -/
lemma settles_stepWorker (w : World) (pool : Pool) (number : Nat)
    (hwaits : ∀ task dueMs execution, w.workers[number]? = some (.executing task dueMs execution) →
      ⟨dueMs, .worker number⟩ ∈ w.timers ∨ dueMs ≤ w.elapsedMs) :
    Settles number w (w.stepWorker pool number) := by
  rcases w.stepWorker_turn pool number with ⟨hsame, hstays⟩ | ⟨_, _, -, ⟨base, _, hbase, -, h⟩, -⟩
  · rw [hsame]
    refine ⟨(Grows.refl w).touches number, fun task dueMs execution hexecuting => .inl ?_⟩
    have hearly := hstays _ hexecuting
    refine (hwaits task dueMs execution hexecuting).resolve_right fun hdue => ?_
    cases execution with
    | ended => exact hearly
    | suspended => exact absurd hdue (Nat.not_le_of_lt hearly.2)
  · exact hbase.touches.settles h.settles

/-- A handler changes what its worker is doing, and forgets no thread. -/
lemma HandlerRests.grown {task : Task} {dueMs : Nat} {execution : Execution}
    (h : HandlerRests w number task dueMs execution w') :
    Grows (w.setPhase number (.executing task dueMs execution)) w' := by
  cases h with
  | ended ending same => exact (grows_wake _ _).trans same.grows
  | sleeping _ rest waiting same => exact (grows_startTimer _ _ _).trans same.grows
  | awaiting _ rest same => exact same.grows

/-- A handler does not change the time of its task. -/
lemma settles_stepHandler (w : World) (number : Nat) (hawaited : Awaited w number) :
    Settles number w (w.stepHandler number) := by
  rcases w.stepHandler_turn number with
    ⟨hsame, -⟩ | ⟨task, dueMs, rest, waiting, execution, hphase, -, h⟩
  · rw [hsame]
    exact ⟨(Grows.refl w).touches number, hawaited⟩
  · refine Settles.grow ⟨touches_setPhase w number _, ?_⟩ h.grown
    intro task' dueMs' execution' hexecuting
    have hdue := dueMs_setPhase hexecuting
    subst hdue
    exact hawaited task dueMs' (.suspended rest waiting) hphase

/-! ## Deployments that keep time -/

/-- Whether every worker that executes a task is woken when the time of the task is over, and
nothing that was to happen earlier is still to come. -/
structure Timely (w : World) : Prop where
  awaited : ∀ number, Awaited w number
  later : ∀ timer ∈ w.timers, w.elapsedMs ≤ timer.dueMs

lemma Grows.timely (h : Grows w w') (hw : Timely w) : Timely w' where
  awaited number := h.awaited (hw.awaited number)
  later timer htimer := by
    rw [elapsedMs_eq h.time]
    exact (h.later timer htimer).elim (hw.later timer) id

lemma Settles.timely (h : Settles number w w') (hothers : ∀ other ≠ number, Awaited w other)
    (hlater : ∀ timer ∈ w.timers, w.elapsedMs ≤ timer.dueMs) : Timely w' where
  awaited other := by
    by_cases hother : other = number
    · exact hother ▸ h.awaited
    · exact h.toTouches.awaited hother (hothers other hother)
  later timer htimer := by
    rw [elapsedMs_eq h.time]
    exact (h.later timer htimer).elim (hlater timer) id

/-- A worker goes on waiting when another thread is no longer the next. -/
lemma Awaited.erase {thread : Thread} (h : Awaited w number) (hthread : .worker number ≠ thread) :
    Awaited { w with runnable := w.runnable.erase thread } number := by
  intro task dueMs execution hphase
  refine (h task dueMs execution hphase).imp id fun ⟨hrunnable, hdue⟩ => ⟨?_, hdue⟩
  exact (List.mem_erase_of_ne hthread).mpr hrunnable

/-- A deployment keeps time when one of the threads that can go on does so. -/
theorem Timely.step (h : Timely w) (thread : Thread) :
    Timely ({ w with runnable := w.runnable.erase thread }.step pool thread) := by
  cases thread with
  | worker number =>
    refine (settles_stepWorker _ pool number ?_).timely (fun other hother => ?_) h.later
    · intro task dueMs execution hphase
      exact (h.awaited number task dueMs execution hphase).imp id And.right
    · exact (h.awaited other).erase fun heq => hother (Thread.worker.inj heq)
  | handler number =>
    have hwaits : ∀ other,
        Awaited { w with runnable := w.runnable.erase (.handler number) } other :=
      fun other => (h.awaited other).erase Thread.noConfusion
    exact (settles_stepHandler _ number (hwaits number)).timely (fun other _ => hwaits other)
      h.later

lemma Wakes.grows (h : Wakes w w') : Grows w w' := by
  induction h with
  | refl => exact .refl w
  | wake _ thread ih => exact ih.trans (grows_wake _ thread)

lemma mem_runnable_wake (w : World) (thread : Thread) : thread ∈ (w.wake thread).runnable := by
  unfold wake
  split
  · next hmem => simpa using hmem
  · exact List.mem_append_right _ (List.mem_singleton_self _)

/-- What one of several signals wakes, no later one puts back to sleep. -/
lemma mem_runnable_foldl {α : Type} {f : World → α → World} (hf : ∀ w item, Wakes w (f w item))
    {items : List α} {item : α} {thread : Thread} (h : item ∈ items) {w : World}
    (hwoken : ∀ w', Wakes w w' → thread ∈ (f w' item).runnable) :
    thread ∈ (items.foldl f w).runnable := by
  induction items generalizing w with
  | nil => cases h
  | cons first rest ih =>
    rw [List.foldl_cons]
    rcases List.mem_cons.mp h with rfl | hrest
    · exact (wakes_foldl hf rest (f w item)).grows.runnable (hwoken w .refl)
    · exact ih hrest fun w' hwakes => hwoken w' ((hf w first).trans hwakes)

/-- A thread that waits for a time is woken when the clock moves there, and waits on before. -/
lemma moveTo_timer {dueMs : Nat} {thread : Thread} (h : ⟨dueMs, thread⟩ ∈ w.timers)
    (timeMs : Nat) : ⟨dueMs, thread⟩ ∈ (w.moveTo timeMs).timers ∨
      thread ∈ (w.moveTo timeMs).runnable ∧ dueMs ≤ (w.moveTo timeMs).elapsedMs := by
  have hmoved := (moveTo_wakes w timeMs).grows
  by_cases hearly : timeMs < dueMs
  · exact .inl (hmoved.timers (List.mem_filter.mpr ⟨h, by simpa using hearly⟩))
  · have hdue : dueMs ≤ timeMs := Nat.le_of_not_lt hearly
    refine .inr ⟨?_, ?_⟩
    · exact mem_runnable_foldl (w := w.clockAt timeMs)
        (fun _ (timer : Timer) => .wake .refl timer.thread)
        (List.mem_filter.mpr ⟨h, by simpa using hdue⟩)
        fun w' _ => mem_runnable_wake w' thread
    · rw [elapsedMs_eq hmoved.time]
      exact hdue

/-- Nothing that was to happen earlier is still to come when the clock has moved. -/
lemma later_moveTo (w : World) (timeMs : Nat) :
    ∀ timer ∈ (w.moveTo timeMs).timers, (w.moveTo timeMs).elapsedMs ≤ timer.dueMs := by
  intro timer htimer
  have hmoved := (moveTo_wakes w timeMs).grows
  rw [elapsedMs_eq hmoved.time]
  rcases hmoved.later timer htimer with hold | hlater
  · have hfilter := (List.mem_filter.mp hold).2
    exact Nat.le_of_lt (of_decide_eq_true hfilter)
  · exact hlater

/-- A deployment keeps time when nothing can go on and its clock moves to a time that nothing was to
happen before. -/
theorem Timely.moveTo (h : Timely w) (hidle : w.runnable = []) (timeMs : Nat) :
    Timely (w.moveTo timeMs) where
  awaited number task dueMs execution hphase := by
    rw [(moveTo_wakes w timeMs).grows.workers] at hphase
    have htimer : ⟨dueMs, .worker number⟩ ∈ w.timers := by
      refine (h.awaited number task dueMs execution hphase).resolve_right fun hrunnable => ?_
      simp [hidle] at hrunnable
    exact moveTo_timer htimer timeMs
  later := later_moveTo w timeMs

lemma timely_of_idle (hworkers : ∀ phase ∈ w.workers, phase = .ready) (htimers : w.timers = []) :
    Timely w where
  awaited number task dueMs execution hphase := by
    have hready := hworkers _ (List.mem_of_getElem? hphase)
    cases hready
  later timer htimer := by
    rw [htimers] at htimer
    cases htimer

/-- While nobody can go on, the time of a task that a worker has in hand is not over. -/
lemma Deployed.le_due (h : Deployed pool False w shift) (hw : Timely w) (hidle : w.runnable = [])
    {timeMs : Nat} (htimely : ∀ timer ∈ w.timers, timeMs ≤ timer.dueMs) {worker : Nat}
    (hhands : shift.fleet.hands worker = some task) :
    timeMs * nanosPerMilli ≤ shift.due worker := by
  rw [h.hands, hand, Option.bind_eq_some_iff] at hhands
  obtain ⟨phase, hphase, htask⟩ := hhands
  have hhonest := h.honest worker phase hphase
  cases phase with
  | executing task dueMs execution =>
    have htimer := (hw.awaited worker task dueMs execution hphase).resolve_right
      fun hrunnable => by simp [hidle] at hrunnable
    calc timeMs * nanosPerMilli
        ≤ dueMs * nanosPerMilli := Nat.mul_le_mul_right _ (htimely _ htimer)
      _ ≤ shift.due worker := hhonest.2.1
  | reporting => exact hhonest.1.elim
  | _ => cases htask

/-- The first time that a thread waits for comes before no other. -/
lemma nextDue_le {timer : Timer} (h : timer ∈ w.timers) (deadlineMs : Nat) :
    min deadlineMs (w.nextDue.getD deadlineMs) ≤ timer.dueMs := by
  have hmem : timer.dueMs ∈ w.timers.map (·.dueMs) ++
      w.stragglers.map fun straggler => max straggler.untilMs w.elapsedMs :=
    List.mem_append_left _ (List.mem_map_of_mem h)
  cases hnext : w.nextDue with
  | none =>
    rw [nextDue, List.min?_eq_none_iff] at hnext
    rw [hnext] at hmem
    cases hmem
  | some first =>
    rw [nextDue, List.min?_eq_some_iff] at hnext
    exact (Nat.min_le_right _ _).trans (hnext.2 _ hmem)

lemma le_nextDue (hlater : ∀ timer ∈ w.timers, w.elapsedMs ≤ timer.dueMs) {deadlineMs : Nat}
    (hdeadline : w.elapsedMs ≤ deadlineMs) :
    w.elapsedMs ≤ min deadlineMs (w.nextDue.getD deadlineMs) := by
  refine Nat.le_min.mpr ⟨hdeadline, ?_⟩
  cases hnext : w.nextDue with
  | none => exact hdeadline
  | some first =>
    rw [nextDue, List.min?_eq_some_iff] at hnext
    rcases List.mem_append.mp hnext.1 with htimer | hstraggler
    · obtain ⟨timer, htimer, hdue⟩ := List.mem_map.mp htimer
      exact hdue ▸ hlater timer htimer
    · obtain ⟨straggler, -, hdue⟩ := List.mem_map.mp hstraggler
      exact hdue ▸ Nat.le_max_right _ _

end World
end WorkQueue
