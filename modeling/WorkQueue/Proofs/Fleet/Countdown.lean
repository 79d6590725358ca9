import WorkQueue.Proofs.Fleet.Alert

/-!
# Workers that were told to stop come to an end

Letting time pass takes a number of steps that nobody knows beforehand, because handlers can do as
many things as they like at one time.  When the workers were told to stop, that is different: none
of them claims a task again, so that each goes only a few steps to its end, and a handler can be
woken once in a millisecond.  `World.stepsUntil` counts the steps that are left at most.

Every step lowers that count (`stepsUntil_step`), and so does the passing of time unless it ends at
the deadline (`stepsUntil_pass`).  Hence a wait for the workers ends when all have stopped or the
deadline has come (`awaitStop_ends`), and its outcome says whether all workers have stopped by the
deadline (`allStopped_awaitStop_iff`).
-/

namespace WorkQueue

/-! ## Steps of lists -/

section
variable {α : Type} (steps : α → Nat)

@[simp] lemma totalSteps_nil : totalSteps steps [] = 0 := rfl

@[simp] lemma totalSteps_cons (item : α) (items : List α) :
    totalSteps steps (item :: items) = steps item + totalSteps steps items := rfl

lemma totalSteps_concat (items : List α) (item : α) :
    totalSteps steps (items ++ [item]) = totalSteps steps items + steps item := by
  induction items with
  | nil => exact Nat.add_comm _ _
  | cons first rest ih => rw [List.cons_append, totalSteps_cons, totalSteps_cons, ih, Nat.add_assoc]

lemma totalSteps_set {items : List α} {index : Nat} {old : α} (h : items[index]? = some old)
    (new : α) :
    totalSteps steps (items.set index new) + steps old = totalSteps steps items + steps new := by
  induction items generalizing index with
  | nil => cases h
  | cons first rest ih =>
    cases index with
    | zero =>
      cases h
      simp only [List.set_cons_zero, totalSteps_cons]
      omega
    | succ index =>
      have hrest := ih (show rest[index]? = some old by simpa using h)
      simp only [List.set_cons_succ, totalSteps_cons]
      omega

lemma totalSteps_filter (p : α → Bool) (items : List α) :
    totalSteps steps (items.filter p) + totalSteps steps (items.filter fun item => !p item) =
      totalSteps steps items := by
  induction items with
  | nil => rfl
  | cons first rest ih =>
    cases hfirst : p first <;> simp [hfirst, ← ih] <;> omega

/-- What is due by a time and what is due after it make up the whole. -/
lemma totalSteps_due (dueMs : α → Nat) (timeMs : Nat) (items : List α) :
    totalSteps steps (items.filter fun item => dueMs item ≤ timeMs) +
        totalSteps steps (items.filter fun item => timeMs < dueMs item) =
      totalSteps steps items := by
  have hlater : (items.filter fun item => timeMs < dueMs item) =
      items.filter fun item => !decide (dueMs item ≤ timeMs) :=
    List.filter_congr fun item _ => by
      rw [← decide_not]
      exact decide_eq_decide.mpr Nat.not_le.symm
  rw [hlater]
  exact totalSteps_filter steps (fun item => decide (dueMs item ≤ timeMs)) items

lemma totalSteps_succ (items : List α) :
    totalSteps (fun item => steps item + 1) items = totalSteps steps items + items.length := by
  induction items with
  | nil => rfl
  | cons first rest ih =>
    rw [totalSteps_cons, totalSteps_cons, ih, List.length_cons]
    omega

lemma totalSteps_congr {steps steps' : α → Nat} {items : List α}
    (h : ∀ item ∈ items, steps item = steps' item) :
    totalSteps steps items = totalSteps steps' items := by
  induction items with
  | nil => rfl
  | cons first rest ih =>
    rw [totalSteps_cons, totalSteps_cons, h first List.mem_cons_self,
      ih fun item hitem => h item (List.mem_cons_of_mem _ hitem)]

lemma totalSteps_mono {steps steps' : α → Nat} (h : ∀ item, steps item ≤ steps' item)
    (items : List α) : totalSteps steps items ≤ totalSteps steps' items := by
  induction items with
  | nil => exact Nat.le_refl _
  | cons first rest ih => exact Nat.add_le_add (h first) ih

end

lemma Phase.steps_mono (phase : Phase) {leftMs leftMs' : Nat} (h : leftMs ≤ leftMs') :
    phase.steps leftMs ≤ phase.steps leftMs' := by
  cases phase <;> simp only [Phase.steps] <;> omega

namespace World

variable {pool : Pool} {w w' : World} {number deadlineMs : Nat} {phase phase' : Phase}

/-! ## What is counted -/

variable (deadlineMs)

lemma SameThreads.stepsUntil (h : SameThreads w w') :
    w'.stepsUntil deadlineMs = w.stepsUntil deadlineMs := by
  simp only [World.stepsUntil, h.runnable, h.timers, h.workers, h.stragglers, elapsedMs_eq h.time]

lemma stepsUntil_setPhase (h : w.workers[number]? = some phase) (phase' : Phase) :
    (w.setPhase number phase').stepsUntil deadlineMs + phase.steps (deadlineMs - w.elapsedMs) =
      w.stepsUntil deadlineMs + phase'.steps (deadlineMs - w.elapsedMs) := by
  have hset := totalSteps_set (fun phase => phase.steps (deadlineMs - w.elapsedMs)) h phase'
  simp only [stepsUntil, setPhase]
  omega

lemma stepsUntil_goOn (w : World) (number : Nat) :
    (w.goOn number).stepsUntil deadlineMs = w.stepsUntil deadlineMs + 1 := by
  simp only [stepsUntil, goOn, totalSteps_cons, Thread.steps]
  omega

lemma stepsUntil_wake (w : World) (thread : Thread) :
    (w.wake thread).stepsUntil deadlineMs ≤
      w.stepsUntil deadlineMs + thread.steps (deadlineMs - w.elapsedMs) := by
  unfold wake
  split
  · exact Nat.le_add_right _ _
  · simp only [stepsUntil, totalSteps_concat]
    omega

lemma stepsUntil_startTimer (w : World) (thread : Thread) (millis : Nat) :
    (w.startTimer thread millis).stepsUntil deadlineMs =
      w.stepsUntil deadlineMs + (thread.steps (deadlineMs - (w.elapsedMs + millis)) + 1) := by
  simp only [stepsUntil, startTimer, totalSteps_concat,
    Nat.max_eq_left (Nat.le_add_right w.elapsedMs millis)]
  omega

lemma stepsUntil_forget (w : World) (thread : Thread) :
    (w.forget thread).stepsUntil deadlineMs ≤ w.stepsUntil deadlineMs := by
  have hrunnable := totalSteps_filter (fun other => other.steps (deadlineMs - w.elapsedMs))
    (fun other => decide (other ≠ thread)) w.runnable
  have htimers := totalSteps_filter
    (fun timer => timer.thread.steps (deadlineMs - max timer.dueMs w.elapsedMs) + 1)
    (fun timer => decide (timer.thread ≠ thread)) w.timers
  simp only [stepsUntil, forget]
  omega

/-- How often a handler can go on that its worker gives up, at most. -/
def strayTurns (leftMs : Nat) : Phase → Nat
  | .executing _ _ _ => Straggler.turns leftMs
  | _ => 0

lemma stepsUntil_giveUp (hphase : w.workers[number]? = some phase) :
    (w.giveUp number).stepsUntil deadlineMs ≤
      w.stepsUntil deadlineMs + strayTurns (deadlineMs - w.elapsedMs) phase := by
  unfold giveUp
  split
  · next task dueMs rest untilMs hexecuting =>
    cases hphase.symm.trans hexecuting
    simp only [stepsUntil, totalSteps_concat, strayTurns, Straggler.turns]
    omega
  · exact Nat.le_add_right _ _

lemma Forgets.stepsUntil (h : Forgets w number w') (hphase : w.workers[number]? = some phase) :
    w'.stepsUntil deadlineMs ≤
      w.stepsUntil deadlineMs + strayTurns (deadlineMs - w.elapsedMs) phase := by
  cases h with
  | nothing => exact Nat.le_add_right _ _
  | worker => exact (stepsUntil_forget _ w _).trans (Nat.le_add_right _ _)
  | both =>
    calc (((w.giveUp number).forget (.worker number)).forget (.handler number)).stepsUntil
          deadlineMs
        ≤ ((w.giveUp number).forget (.worker number)).stepsUntil deadlineMs :=
          stepsUntil_forget _ _ _
      _ ≤ (w.giveUp number).stepsUntil deadlineMs := stepsUntil_forget _ _ _
      _ ≤ w.stepsUntil deadlineMs + strayTurns (deadlineMs - w.elapsedMs) phase :=
          stepsUntil_giveUp deadlineMs hphase

/-! ## Steps -/

/-- How many steps more a worker can cause when it has come to rest: by what it is doing, and by its
threads. -/
def restSteps (leftMs : Nat) : Phase → Nat
  | .ready => 1
  | .polling _ => 2
  | .reporting _ _ _ => 3
  | .executing _ _ _ => 3 * leftMs + 9
  | .claiming _ => 3 * leftMs + 11
  | .stopped => 0

lemma Rests.stepsUntil (h : Rests pool w number phase w')
    (hphase : w.workers[number]? = some phase') :
    w'.stepsUntil deadlineMs + phase'.steps (deadlineMs - w.elapsedMs) ≤
      w.stepsUntil deadlineMs + restSteps (deadlineMs - w.elapsedMs) phase := by
  have hset : ∀ phase, (w.setPhase number phase).stepsUntil deadlineMs +
      phase'.steps (deadlineMs - w.elapsedMs) =
        w.stepsUntil deadlineMs + phase.steps (deadlineMs - w.elapsedMs) :=
    stepsUntil_setPhase deadlineMs hphase
  cases h with
  | stopped same =>
    rw [same.stepsUntil]
    exact (hset .stopped).le
  | ready same =>
    have hready := hset .ready
    rw [same.stepsUntil, stepsUntil_goOn]
    simp only [Phase.steps, restSteps] at hready ⊢
    omega
  | polling going millis same =>
    have hpolling := hset (.polling (w.elapsedMs + millis))
    rw [same.stepsUntil, stepsUntil_startTimer]
    simp only [Phase.steps, Thread.steps, restSteps] at hpolling ⊢
    omega
  | claiming failure late same =>
    have hclaiming := hset (.claiming failure)
    rw [same.stepsUntil, stepsUntil_startTimer]
    simp only [Phase.steps, Thread.steps, restSteps] at hclaiming ⊢
    omega
  | reporting task report failure late same =>
    have hreporting := hset (.reporting task report failure)
    rw [same.stepsUntil, stepsUntil_startTimer]
    simp only [Phase.steps, Thread.steps, restSteps] at hreporting ⊢
    omega
  | @executing _ going task execution begins millis same =>
    have hexecuting := hset (.executing task (w.elapsedMs + millis) execution)
    have hwoken := stepsUntil_wake deadlineMs (w.setPhase number
      (.executing task (w.elapsedMs + millis) execution)) (.handler number)
    have helapsed : (w.setPhase number (.executing task (w.elapsedMs + millis)
      execution)).elapsedMs = w.elapsedMs := rfl
    rw [same.stepsUntil, stepsUntil_startTimer]
    simp only [helapsed, Phase.steps, Thread.steps, restSteps] at hexecuting hwoken ⊢
    omega

/-- A worker that has come closer to its end can cause no more steps than before, even if it has
given its handler up. -/
lemma restSteps_le (leftMs : Nat) (h : phase.rank < phase'.rank)
    (hidle : ∀ dueMs, phase ≠ .polling dueMs) :
    restSteps leftMs phase + strayTurns leftMs phase' ≤ phase'.steps leftMs := by
  cases phase with
  | polling dueMs => exact absurd rfl (hidle dueMs)
  | stopped | ready | reporting | executing | claiming =>
    cases phase' <;>
      simp only [Phase.rank, Phase.steps, restSteps, strayTurns, Straggler.turns] at h ⊢ <;> omega

variable {deadlineMs}

lemma stepsUntil_stepWorker (hstopping : w.stopping = true) :
    (w.stepWorker pool number).stepsUntil deadlineMs ≤ w.stepsUntil deadlineMs := by
  rcases w.stepWorker_turn pool number with
    ⟨hsame, -⟩ | ⟨phase', _, hphase, ⟨base, phase, hbase, hrank, hrests⟩, hcloser⟩
  · rw [hsame]
  · have hbefore : base.workers = w.workers ∧ base.elapsedMs = w.elapsedMs ∧
        base.stopping = w.stopping := by
      cases hbase with
      | nothing | worker => exact ⟨rfl, rfl, rfl⟩
      | both =>
        have hgivenUp := apart_giveUp w number
        exact ⟨hgivenUp.workers, elapsedMs_eq hgivenUp.time,
          congrArg (·.1.1) (notices_giveUp w number)⟩
    -- A worker that was told to stop does not wait for a task again.
    have hidle : ∀ dueMs, phase ≠ .polling dueMs := by
      rintro dueMs rfl
      cases hrests with
      | polling going => rw [hbefore.2.2, hstopping] at going; cases going
    have hrests := hrests.stepsUntil deadlineMs (hbefore.1 ▸ hphase)
    have hless := restSteps_le (deadlineMs - base.elapsedMs)
      (hrank.trans_lt (hcloser hstopping)) hidle
    have hforgets := hbase.stepsUntil deadlineMs hphase
    rw [← hbefore.2.1] at hforgets
    omega

lemma stepsUntil_stepHandler (hearly : w.elapsedMs < deadlineMs) :
    (w.stepHandler number).stepsUntil deadlineMs ≤
      w.stepsUntil deadlineMs + (2 * (deadlineMs - w.elapsedMs) + 2) := by
  rcases w.stepHandler_turn number with
    ⟨hsame, -⟩ | ⟨task, dueMs, rest, waiting, execution, hphase, -, hrests⟩
  · rw [hsame]
    exact Nat.le_add_right _ _
  · have hset : ∀ execution, (w.setPhase number (.executing task dueMs execution)).stepsUntil
        deadlineMs = w.stepsUntil deadlineMs := by
      intro execution
      exact Nat.add_right_cancel
        (stepsUntil_setPhase deadlineMs hphase (.executing task dueMs execution))
    cases hrests with
    | ended ending same =>
      have hwoken := stepsUntil_wake deadlineMs
        (w.setPhase number (.executing task dueMs (.ended ending))) (.worker number)
      rw [hset] at hwoken
      rw [same.stepsUntil]
      simp only [Thread.steps] at hwoken
      omega
    | @sleeping _ millis late rest waiting same =>
      -- The handler is woken a millisecond later, or more.
      have helapsed : (w.setPhase number (.executing task dueMs
        (.suspended rest waiting))).elapsedMs = w.elapsedMs := rfl
      rw [same.stepsUntil, stepsUntil_startTimer, hset, helapsed]
      simp only [Thread.steps]
      omega
    | awaiting _ rest same =>
      rw [same.stepsUntil, hset]
      exact Nat.le_add_right _ _

/-- Every step lowers the number of steps that are left. -/
theorem stepsUntil_step (pool : Pool) (hstopping : w.stopping = true)
    (hearly : w.elapsedMs < deadlineMs) {thread : Thread} {rest : List Thread}
    (hrunnable : w.runnable = thread :: rest) :
    ({ w with runnable := rest }.step pool thread).stepsUntil deadlineMs <
      w.stepsUntil deadlineMs := by
  have hpopped : w.stepsUntil deadlineMs =
      ({ w with runnable := rest } : World).stepsUntil deadlineMs +
        thread.steps (deadlineMs - w.elapsedMs) := by
    simp only [stepsUntil, hrunnable, totalSteps_cons]
    omega
  rw [hpopped]
  cases thread with
  | worker number =>
    exact Nat.lt_succ_of_le (stepsUntil_stepWorker (w := { w with runnable := rest }) hstopping)
  | handler number =>
    exact Nat.lt_succ_of_le (stepsUntil_stepHandler (w := { w with runnable := rest }) hearly)

/-! ## Time -/

variable (deadlineMs)

lemma stepsUntil_foldl_wake (timers : List Timer) (w : World) :
    (timers.foldl (fun w timer => w.wake timer.thread) w).stepsUntil deadlineMs ≤
      w.stepsUntil deadlineMs +
        totalSteps (fun timer => timer.thread.steps (deadlineMs - w.elapsedMs)) timers := by
  induction timers generalizing w with
  | nil => exact Nat.le_refl _
  | cons timer rest ih =>
    have hrest := ih (w.wake timer.thread)
    rw [elapsedMs_eq (unmoved_wake w timer.thread).time] at hrest
    have hwoken := stepsUntil_wake deadlineMs w timer.thread
    simp only [List.foldl_cons, totalSteps_cons]
    omega

lemma stepsUntil_clockAt (hidle : w.runnable = []) {timeMs : Nat} (hforward : w.elapsedMs ≤ timeMs)
    (hfirst : ∀ timer ∈ w.timers, timeMs ≤ timer.dueMs) :
    (w.clockAt timeMs).stepsUntil deadlineMs +
        totalSteps (fun timer => timer.thread.steps (deadlineMs - timeMs) + 1)
          (w.timers.filter fun timer => timer.dueMs ≤ timeMs) ≤ w.stepsUntil deadlineMs := by
  -- What a timer counts for does not depend on the time before it is due.
  have hdue : totalSteps
        (fun timer => timer.thread.steps (deadlineMs - max timer.dueMs w.elapsedMs) + 1)
        (w.timers.filter fun timer => timer.dueMs ≤ timeMs) =
      totalSteps (fun timer => timer.thread.steps (deadlineMs - timeMs) + 1)
        (w.timers.filter fun timer => timer.dueMs ≤ timeMs) := by
    refine totalSteps_congr fun timer htimer => ?_
    obtain ⟨hmem, hle⟩ := List.mem_filter.mp htimer
    have hmax : max timer.dueMs w.elapsedMs = timeMs := by
      have hfirst := hfirst timer hmem
      have hle := of_decide_eq_true hle
      omega
    rw [hmax]
  have hlater : totalSteps
        (fun timer => timer.thread.steps (deadlineMs - max timer.dueMs w.elapsedMs) + 1)
        (w.timers.filter fun timer => timeMs < timer.dueMs) =
      totalSteps (fun timer => timer.thread.steps (deadlineMs - max timer.dueMs timeMs) + 1)
        (w.timers.filter fun timer => timeMs < timer.dueMs) := by
    refine totalSteps_congr fun timer htimer => ?_
    have hlt := of_decide_eq_true (List.mem_filter.mp htimer).2
    rw [Nat.max_eq_left hlt.le, Nat.max_eq_left (hforward.trans hlt.le)]
  have hsum := totalSteps_due
    (fun timer => timer.thread.steps (deadlineMs - max timer.dueMs w.elapsedMs) + 1)
    (fun timer : Timer => timer.dueMs) timeMs w.timers
  rw [hdue, hlater] at hsum
  have hworkers : totalSteps (·.steps (deadlineMs - timeMs)) w.workers ≤
      totalSteps (·.steps (deadlineMs - w.elapsedMs)) w.workers :=
    totalSteps_mono (fun phase => phase.steps_mono (by omega)) w.workers
  have hstragglers : totalSteps (fun straggler : Straggler =>
        Straggler.turns (deadlineMs - max straggler.untilMs timeMs)) w.stragglers ≤
      totalSteps (fun straggler : Straggler =>
        Straggler.turns (deadlineMs - max straggler.untilMs w.elapsedMs)) w.stragglers :=
    totalSteps_mono (fun straggler => Nat.succ_le_succ (by omega)) w.stragglers
  simp only [stepsUntil, clockAt, hidle, totalSteps_nil] at hsum ⊢
  omega

/-- The passing of time lowers the number of steps that are left by the threads that it wakes. -/
theorem stepsUntil_moveTo (hidle : w.runnable = []) {timeMs : Nat} (hforward : w.elapsedMs ≤ timeMs)
    (hfirst : ∀ timer ∈ w.timers, timeMs ≤ timer.dueMs) :
    (w.moveTo timeMs).stepsUntil deadlineMs +
        (w.timers.filter fun timer => timer.dueMs ≤ timeMs).length ≤ w.stepsUntil deadlineMs := by
  have hwoken := stepsUntil_foldl_wake deadlineMs
    (w.timers.filter fun timer => timer.dueMs ≤ timeMs) (w.clockAt timeMs)
  have hclock := stepsUntil_clockAt deadlineMs hidle hforward hfirst
  have helapsed : (w.clockAt timeMs).elapsedMs = timeMs := rfl
  rw [helapsed] at hwoken
  rw [totalSteps_succ] at hclock
  exact (Nat.add_le_add_right hwoken _).trans (by omega)

variable {deadlineMs}

/-- A handler that was given up and goes on computes at least a millisecond, if it goes on after
that. -/
lemma stepsUntil_goOnStraggler (straggler : Straggler) (hearly : w.elapsedMs < deadlineMs) :
    (w.goOnStraggler straggler).elapsedMs = w.elapsedMs ∧
      (w.goOnStraggler straggler).stepsUntil deadlineMs ≤
        w.stepsUntil deadlineMs + (deadlineMs - w.elapsedMs) := by
  have hdriven := @resume_ends (straggler.cancelled.getD w.cancelled) (SameThreads w)
    (fun pause w' => SameThreads w w' ∧ ∀ millis rest, pause = .computing millis rest → millis ≠ 0)
    0 (fun w' request h => h.trans ((apart_beginRequest w' request).sameThreads
      (aside_beginRequest w' request)))
    (fun w' failure request h => h.trans ((handled_attempt w' _ failure
      request).sameThreads (aside_attempt w' _ failure request)))
    (fun _ _ h _ => ⟨h, fun _ _ => Pause.noConfusion⟩)
    (fun _ _ _ h _ => ⟨h, fun _ _ => Pause.noConfusion⟩)
    (fun _ _ _ h hlong => ⟨h, fun _ _ heq => by cases heq; exact hlong⟩)
    (fun _ _ h _ => ⟨h, fun _ _ => Pause.noConfusion⟩) (.run straggler.rest) w (.refl w)
  unfold goOnStraggler
  simp only [resume] at hdriven
  generalize drive _ 0 straggler.rest w = driven at hdriven ⊢
  obtain ⟨pause, w'⟩ := driven
  obtain ⟨hsame, hlong⟩ := hdriven
  have helapsed : w'.elapsedMs = w.elapsedMs := elapsedMs_eq hsame.time
  have hsteps := hsame.stepsUntil deadlineMs
  cases pause with
  | computing millis rest =>
    have hmillis := hlong millis rest rfl
    refine ⟨helapsed, ?_⟩
    simp only [stepsUntil, totalSteps_concat, Straggler.turns, helapsed] at hsteps ⊢
    omega
  | ended | sleeping | awaitingCancel => exact ⟨helapsed, hsteps.le.trans (Nat.le_add_right _ _)⟩

lemma stepsUntil_foldl_goOnStraggler (due : List Straggler) (hearly : w.elapsedMs < deadlineMs) :
    (due.foldl goOnStraggler w).stepsUntil deadlineMs ≤
      w.stepsUntil deadlineMs + totalSteps (fun _ => deadlineMs - w.elapsedMs) due := by
  induction due generalizing w with
  | nil => exact Nat.le_refl _
  | cons straggler rest ih =>
    obtain ⟨helapsed, hfirst⟩ := stepsUntil_goOnStraggler straggler hearly
    have hrest := ih (w := w.goOnStraggler straggler) (helapsed ▸ hearly)
    rw [helapsed] at hrest
    rw [List.foldl_cons, totalSteps_cons]
    omega

/-- Every straggler that goes on lowers the number of steps that are left. -/
theorem stepsUntil_resumeStragglers (hearly : w.elapsedMs < deadlineMs) :
    w.resumeStragglers.stepsUntil deadlineMs +
      (w.stragglers.filter fun straggler => straggler.untilMs ≤ w.elapsedMs).length ≤
        w.stepsUntil deadlineMs := by
  obtain ⟨later, hlater⟩ : ∃ later,
      (w.stragglers.filter fun straggler => w.elapsedMs < straggler.untilMs) = later := ⟨_, rfl⟩
  have hgone : w.resumeStragglers.stepsUntil deadlineMs ≤
      ({ w with stragglers := later } : World).stepsUntil deadlineMs +
        totalSteps (fun _ => deadlineMs - w.elapsedMs)
          (w.stragglers.filter fun straggler => straggler.untilMs ≤ w.elapsedMs) :=
    hlater ▸ stepsUntil_foldl_goOnStraggler (w := { w with stragglers := _ }) _ hearly
  have hdue : totalSteps (fun straggler : Straggler =>
        Straggler.turns (deadlineMs - max straggler.untilMs w.elapsedMs))
        (w.stragglers.filter fun straggler => straggler.untilMs ≤ w.elapsedMs) =
      totalSteps (fun _ => deadlineMs - w.elapsedMs + 1)
        (w.stragglers.filter fun straggler => straggler.untilMs ≤ w.elapsedMs) := by
    refine totalSteps_congr fun straggler hstraggler => ?_
    have hle := of_decide_eq_true (List.mem_filter.mp hstraggler).2
    rw [Nat.max_eq_right hle, Straggler.turns]
  have hsum := totalSteps_due (fun straggler : Straggler =>
    Straggler.turns (deadlineMs - max straggler.untilMs w.elapsedMs))
    (fun straggler : Straggler => straggler.untilMs) w.elapsedMs w.stragglers
  rw [hdue, hlater, totalSteps_succ] at hsum
  have hkept : ({ w with stragglers := later } : World).stepsUntil deadlineMs +
      (totalSteps (fun _ => deadlineMs - w.elapsedMs)
          (w.stragglers.filter fun straggler => straggler.untilMs ≤ w.elapsedMs) +
        (w.stragglers.filter fun straggler => straggler.untilMs ≤ w.elapsedMs).length) =
      w.stepsUntil deadlineMs := by
    simp only [stepsUntil]
    omega
  omega

/-- When nothing can go on and time passes, either a thread is woken or a straggler goes on, or the
deadline has come. -/
lemma woken_or_deadline (w : World) (deadlineMs : Nat) :
    (w.timers.filter fun timer =>
        timer.dueMs ≤ min deadlineMs (w.nextDue.getD deadlineMs)) ≠ [] ∨
      (w.stragglers.filter fun straggler =>
        straggler.untilMs ≤ min deadlineMs (w.nextDue.getD deadlineMs)) ≠ [] ∨
      min deadlineMs (w.nextDue.getD deadlineMs) = deadlineMs := by
  cases hnext : w.nextDue with
  | none => exact .inr (.inr (Nat.min_self _))
  | some first =>
    rw [Option.getD_some]
    rcases Nat.le_total deadlineMs first with hle | hle
    · exact .inr (.inr (Nat.min_eq_left hle))
    · rw [nextDue, List.min?_eq_some_iff] at hnext
      rw [Nat.min_eq_right hle]
      rcases List.mem_append.mp hnext.1 with htimer | hstraggler
      · obtain ⟨timer, htimer, hdue⟩ := List.mem_map.mp htimer
        exact .inl (List.ne_nil_of_mem (List.mem_filter.mpr ⟨htimer, by simp [hdue]⟩))
      · obtain ⟨straggler, hstraggler, hdue⟩ := List.mem_map.mp hstraggler
        have hle : straggler.untilMs ≤ first := hdue ▸ Nat.le_max_left _ _
        exact .inr (.inl (List.ne_nil_of_mem
          (List.mem_filter.mpr ⟨hstraggler, by simpa using hle⟩)))

/-- When nothing can go on, the passing of time lowers the number of steps that are left, or brings
the deadline. -/
theorem stepsUntil_pass (htimely : Timely w) (hidle : w.runnable = [])
    (hearly : w.elapsedMs < deadlineMs) {timeMs : Nat}
    (htime : min deadlineMs (w.nextDue.getD deadlineMs) = timeMs) :
    (w.moveTo timeMs).resumeStragglers.stepsUntil deadlineMs < w.stepsUntil deadlineMs ∨
      deadlineMs ≤ (w.moveTo timeMs).resumeStragglers.elapsedMs := by
  have hforward := le_nextDue htimely.later (Nat.le_of_lt hearly)
  have hless := stepsUntil_moveTo deadlineMs hidle hforward
    fun timer htimer => nextDue_le htimer deadlineMs
  have hwoken := woken_or_deadline w deadlineMs
  have hbound := Nat.min_le_left deadlineMs (w.nextDue.getD deadlineMs)
  rw [htime] at hless hwoken hbound
  have hstragglers : (w.moveTo timeMs).stragglers = w.stragglers :=
    congrArg Prod.snd (moveTo_wakes w timeMs).aside
  have helapsed : (w.moveTo timeMs).elapsedMs = timeMs := congrArg Prod.snd (time_moveTo w timeMs)
  rcases Nat.lt_or_eq_of_le hbound with hbefore | hdeadline
  · have hgone := stepsUntil_resumeStragglers (helapsed.trans_lt hbefore)
    rw [hstragglers, helapsed] at hgone
    rcases hwoken with hsome | hsome | hover
    · have hlength := List.length_pos_iff.mpr hsome
      exact .inl (by omega)
    · have hlength := List.length_pos_iff.mpr hsome
      exact .inl (by omega)
    · exact absurd hover hbefore.ne
  · right
    rw [elapsedMs_eq (handled_resumeStragglers (w.moveTo timeMs)).frame.1, helapsed, hdeadline]

/-! ## Waiting for the workers -/

lemma allStopped_runUntil {goal : World → Bool} (fuel : Nat) (h : w.allStopped = true) :
    (runUntil pool deadlineMs goal fuel w).allStopped = true := by
  refine runUntil_induction (motive := fun w => w.allStopped = true)
    (fun w thread rest ih _ _ => ?_) (fun w ih _ _ _ => ?_) fuel h
  · rw [step_of_allStopped (w := { w with runnable := rest }) ih]
    exact ih
  · rw [allStopped, (handled_resumeStragglers _).frame.2.1, (moveTo_wakes w _).unmoved.workers]
    exact ih

lemma runUntil_of_le {goal : World → Bool} (h : deadlineMs ≤ w.elapsedMs) (fuel : Nat) :
    runUntil pool deadlineMs goal fuel w = w := by
  cases fuel with
  | zero => rfl
  | succ fuel => exact if_pos h

lemma allStopped_congr (h : w'.workers = w.workers) : w'.allStopped = w.allStopped := by
  rw [allStopped, allStopped, h]

/-- With a step more than are left, a wait for the workers is over when all have stopped or the
deadline has come; and all have stopped exactly if they have by the deadline. -/
lemma runUntil_ends (htimely : Timely w) (hstopping : w.stopping = true) {fuel fuel' : Nat}
    (hfuel : w.stepsUntil deadlineMs < fuel) (hfuel' : w.stepsUntil deadlineMs < fuel') :
    (deadlineMs ≤ (runUntil pool deadlineMs allStopped fuel w).elapsedMs ∨
      (runUntil pool deadlineMs allStopped fuel w).allStopped = true) ∧
    ((runUntil pool deadlineMs allStopped fuel w).allStopped = true ↔
      (runUntil pool deadlineMs (fun _ => false) fuel' w).allStopped = true) := by
  induction fuel generalizing w fuel' with
  | zero => exact absurd hfuel (Nat.not_lt_zero _)
  | succ fuel ih =>
    by_cases hlate : deadlineMs ≤ w.elapsedMs
    · rw [runUntil_of_le hlate, runUntil_of_le hlate]
      exact ⟨.inl hlate, Iff.rfl⟩
    have hearly := Nat.lt_of_not_le hlate
    cases fuel' with
    | zero => exact absurd hfuel' (Nat.not_lt_zero _)
    | succ fuel' =>
      rw [runUntil, runUntil, if_neg hlate, if_neg hlate]
      cases hrunnable : w.runnable with
      | cons thread rest =>
        have hless := stepsUntil_step pool hstopping hearly hrunnable
        have htimely' : Timely ({ w with runnable := w.runnable.erase thread }.step pool thread) :=
          htimely.step thread
        have hsignals := signals_step { w with runnable := rest } pool thread
        rw [hrunnable, List.erase_cons_head] at htimely'
        exact ih htimely' ((congrArg Prod.fst hsignals).trans hstopping) (by omega) (by omega)
      | nil =>
        simp only [Bool.false_eq_true, if_false]
        cases hstopped : w.allStopped with
        | true =>
          simp only [if_true]
          have hmoved : ∀ timeMs, (w.moveTo timeMs).resumeStragglers.allStopped = true :=
            fun timeMs => (allStopped_congr ((handled_resumeStragglers _).frame.2.1.trans
              (moveTo_wakes w timeMs).unmoved.workers)).trans hstopped
          exact ⟨.inr hstopped, iff_of_true hstopped (allStopped_runUntil fuel' (hmoved _))⟩
        | false =>
          simp only [Bool.false_eq_true, if_false]
          have hpass := stepsUntil_pass htimely hrunnable hearly rfl
          generalize min deadlineMs (w.nextDue.getD deadlineMs) = timeMs at hpass ⊢
          have hwakes := moveTo_wakes w timeMs
          have hhandled := handled_resumeStragglers (w.moveTo timeMs)
          have hstopping' : (w.moveTo timeMs).resumeStragglers.stopping = true :=
            (congrArg (·.1.1) ((notices_resumeStragglers _).trans hwakes.notices)).trans hstopping
          rcases hpass with hlower | hover
          · exact ih (hhandled.grows.timely (htimely.moveTo hrunnable timeMs)) hstopping'
              (by omega) (by omega)
          · rw [runUntil_of_le hover, runUntil_of_le hover]
            exact ⟨.inl hover, Iff.rfl⟩

/-- **A wait for workers that were told to stop ends** when all have stopped or the deadline has
come. -/
theorem awaitStop_ends (pool : Pool) (deadlineMs : Nat) (htimely : Timely w)
    (hstopping : w.stopping = true) :
    deadlineMs ≤ (w.awaitStop pool deadlineMs).elapsedMs ∨
      (w.awaitStop pool deadlineMs).allStopped = true :=
  (runUntil_ends htimely hstopping (Nat.lt_succ_self _) (Nat.lt_succ_self _)).1

/-- At its end all workers have stopped exactly if they have when time passes until the deadline. -/
theorem allStopped_awaitStop_iff (htimely : Timely w) (hstopping : w.stopping = true) {fuel : Nat}
    (hfuel : w.stepsUntil deadlineMs < fuel) :
    (w.awaitStop pool deadlineMs).allStopped = true ↔
      (runUntil pool deadlineMs (fun _ => false) fuel w).allStopped = true :=
  (runUntil_ends htimely hstopping (Nat.lt_succ_self _) hfuel).2

end World
end WorkQueue
