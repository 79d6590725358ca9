import WorkQueue.Proofs.Broker.Precedence
import WorkQueue.Proofs.Fleet.Custody

/-!
# Deliveries that come to their end

From the moment at which the workers of a pool are told to stop, each of them only finishes what it
has in hand.  `Course` says how far they are: a delivery is still in progress and nothing was told
of it since, or it has ended, and that was told exactly once, as its own outcome or as the release
of its task (`Ended`).  A task that was released waits in its queue until another client claims it.

A worker that reports takes one delivery from the first case to the second (`Course.conclude`), and
whatever other clients do leaves the course of the deliveries as it is (`Course.called`).
-/

namespace WorkQueue

open Broker Relation

/-! ## How deliveries end -/

/-- No report says that a task is being executed. -/
lemma Report.state_ne_running (report : Report) : report.state ≠ .running := by
  cases report <;> exact TaskState.noConfusion

/-- Whether a task waits in its queue as it was given back at a time, and can be claimed from that
time on. -/
def Released (b : Broker) (task : Task) (now : Instant) : Prop :=
  ∃ entry ∈ b.entries task.queue, entry.task = task.markPending now ∧ entry.eligibleAt = now

/-- Whether it was told once how the delivery of a task ended, by a report and at a time at which it
may have ended so, and nothing else was told of the task; and if the task was released, it waits in
its queue unless another client has claimed it since. -/
def Ended (ends : Report → Nat → Prop) (startMs : Int) (task : Task) (b : Broker)
    (told : List (TaskEvent × Nat)) (claimed : List Task) : Prop :=
  ∃ report atMs, ends report atMs ∧
    told.filter (fun entry => entry.1.taskId = task.id) =
      [(report.event (report.record task (.ofMillis (startMs + atMs))), atMs)] ∧
    (report = .release → Released b task (.ofMillis (startMs + atMs)) ∨
      ∃ other ∈ claimed, other.id = task.id)

/-- How far the workers are with the tasks that they had in hand when they were told to stop, by
what they have in hand, what was told since, and what other clients have claimed since; `ends` says
by which reports, and when, the deliveries may end. -/
structure Course (ends : Nat → Task → Report → Nat → Prop) (startMs : Int)
    (before : Nat → Option Task) (claims : Nat) (hands : Nat → Option Task) (b : Broker)
    (told : List (TaskEvent × Nat)) (claimed : List Task) : Prop where
  /-- No worker has anything new in hand. -/
  held : ∀ number task, hands number = some task → before number = some task
  /-- Nothing was told of a delivery that is in progress. -/
  silent : ∀ number task, hands number = some task →
    told.filter (fun entry => entry.1.taskId = task.id) = []
  ended : ∀ number task, before number = some task → hands number = none →
    Ended (ends number task) startMs task b told claimed
  /-- Nothing was told of other tasks, and of no claim. -/
  told : ∀ entry ∈ told, entry.1.state ≠ .running ∧
    ∃ number task, before number = some task ∧ entry.1.taskId = task.id
  /-- All claims since were made by other clients. -/
  claims : b.nextLease = claims + claimed.length

variable {pool : Pool} {limits : BrokerLimits} {ends : Nat → Task → Report → Nat → Prop}
  {startMs : Int} {claims : Nat} {before hands : Nat → Option Task} {b next : Broker}
  {told told' : List (TaskEvent × Nat)} {claimed : List Task} {call : Call} {answer : Answer}
  {number : Nat} {task : Task} {now : Instant}

/-- At the order to stop all deliveries are in progress. -/
lemma course_start (hands : Nat → Option Task) (b : Broker) :
    Course ends startMs hands b.nextLease hands b [] [] where
  held _ _ hhands := hhands
  silent _ _ _ := rfl
  ended number task hbefore hnone := by
    rw [hbefore] at hnone
    cases hnone
  told _ hentry := absurd hentry List.not_mem_nil
  claims := rfl

/-! ## What other clients do -/

/-- A released task waits until a claim returns it. -/
lemma Released.stays (h : Released b task now) (hb : b.WellFormed)
    (htransition : Transition b call answer next)
    (hother : ¬ Exchange.Returns ⟨call, answer⟩ task.id) : Released next task now := by
  obtain ⟨entry, hentry, htask, htime⟩ := h
  have hmem : entry ∈ b.allEntries := (mem_allEntries hb.queues_sorted).mpr ⟨_, hentry⟩
  have hid : entry.task.id = task.id := by rw [htask]; rfl
  have hqueue : entry.task.queue = task.queue := by rw [htask]; rfl
  have hstays := htransition.mem_of_not_returns hb hmem (hid ▸ hother)
  exact ⟨entry, hqueue ▸ (htransition.wellFormed hb).mem_entries hstays, htask, htime⟩

/-- A call of the broker changes how far the workers are only by what it returns. -/
lemma Course.called (h : Course ends startMs before claims hands b told claimed)
    (hb : b.WellFormed) (htransition : Transition b call answer next) :
    Course ends startMs before claims hands next told
      ((Exchange.delivered? ⟨call, answer⟩).toList ++ claimed) where
  held := h.held
  silent := h.silent
  ended number task hbefore hnone := by
    obtain ⟨report, atMs, hends, hfilter, hreleased⟩ := h.ended number task hbefore hnone
    refine ⟨report, atMs, hends, hfilter, fun hrelease => ?_⟩
    by_cases hreturns : Exchange.Returns ⟨call, answer⟩ task.id
    · obtain ⟨other, hother, hid⟩ := hreturns
      refine .inr ⟨other, List.mem_append_left _ ?_, hid⟩
      rw [hother]
      exact List.mem_singleton_self other
    · refine (hreleased hrelease).imp (·.stays hb htransition hreturns) ?_
      exact fun ⟨other, hother, hid⟩ => ⟨other, List.mem_append_right _ hother, hid⟩
  told := h.told
  claims := by
    have hnext := htransition.nextLease_eq
    rw [List.length_append]
    cases hdelivered : Exchange.delivered? ⟨call, answer⟩ with
    | none =>
      rw [hdelivered] at hnext
      simpa [hnext] using h.claims
    | some other =>
      rw [hdelivered] at hnext
      rw [hnext.2, h.claims, Option.toList_some, List.length_singleton]
      omega

/-! ## What the workers do -/

/-- One of the deliveries ends. -/
lemma Course.conclude (h : Course ends startMs before claims hands b told claimed)
    (hsole : ∀ number other task task', before number = some task → before other = some task' →
      task.id = task'.id → number = other) (hhands : hands number = some task) {report : Report}
    {atMs : Nat} (hends : ends number task report atMs)
    (hreleased : report = .release → Released b task (.ofMillis (startMs + atMs))) :
    Course ends startMs before claims (Function.update hands number none) b
      ((report.event (report.record task (.ofMillis (startMs + atMs))), atMs) :: told) claimed := by
  have hbefore := h.held number task hhands
  have hid : (report.event (report.record task (.ofMillis (startMs + atMs)))).taskId = task.id :=
    report.record_id task _
  -- The other deliveries are of other tasks.
  have hothers : ∀ other task', before other = some task' → other ≠ number →
      ((report.event (report.record task (.ofMillis (startMs + atMs))), atMs) :: told).filter
          (fun entry => entry.1.taskId = task'.id) =
        told.filter fun entry => entry.1.taskId = task'.id := by
    intro other task' hother hne
    refine List.filter_cons_of_neg ?_
    simp only [hid, decide_eq_true_eq]
    exact fun hsame => hne (hsole number other task task' hbefore hother hsame).symm
  refine ⟨fun other task' hother => ?_, fun other task' hother => ?_,
    fun other task' hother hnone => ?_, fun entry hentry => ?_, h.claims⟩
  · rw [Function.update_apply] at hother
    split at hother
    · cases hother
    · exact h.held other task' hother
  · rw [Function.update_apply] at hother
    split at hother
    · cases hother
    · next hne =>
      rw [hothers other task' (h.held other task' hother) hne]
      exact h.silent other task' hother
  · by_cases hne : other = number
    · subst hne
      cases hbefore.symm.trans hother
      refine ⟨report, atMs, hends, ?_, fun hrelease => .inl (hreleased hrelease)⟩
      rw [List.filter_cons_of_pos (by simp [hid]), h.silent other task hhands]
    · rw [Function.update_of_ne hne] at hnone
      obtain ⟨report', atMs', hends', hfilter, hrest⟩ := h.ended other task' hother hnone
      exact ⟨report', atMs', hends', (hothers other task' hother hne).trans hfilter, hrest⟩
  · rcases List.mem_cons.mp hentry with rfl | hold
    · exact ⟨report.state_ne_running, number, task, hbefore, hid⟩
    · exact h.told entry hold

namespace Shift

variable {shift next : Shift} {w : World}

/-- A worker that gives its task back puts it into its queue. -/
lemma Kept.released {origin : Int} {others : List Task} (h : shift.Kept limits origin others)
    (hhands : shift.fleet.hands number = some task) (now : Instant) :
    Released (shift.fleet.trace.broker.serve (.release task now)).2 task now := by
  obtain ⟨lease, hget, hlease, -⟩ := (h.safe.guarded number task hhands).claimed
  have htoken := hlease ▸ h.wellFormed.lease_token hget
  have htransition := serve_transition shift.fleet.trace.broker (.release task now)
  have hnext := htransition.wellFormed h.wellFormed
  generalize (shift.fleet.trace.broker.serve (.release task now)).1 = answer at htransition
  generalize (shift.fleet.trace.broker.serve (.release task now)).2 = next at htransition hnext
  cases htransition with
  | disowned isReport foreign =>
    cases isReport
    exact absurd ⟨hget, htoken⟩ (foreign lease)
  | @released _ owned _ owns =>
    have hsame : owned = lease := Option.some.inj (owns.1.symm.trans hget)
    subst hsame
    rw [hlease] at hnext ⊢
    have hentry := hnext.mem_entries ((mem_push (h.wellFormed.dropLease task.id).queues_sorted).mpr
      (.inl rfl))
    exact ⟨_, hentry, rfl, rfl⟩

/-- What a worker may do after the order to stop ends a delivery, or changes nothing. -/
lemma Kept.course {others : List Task} (h : shift.Kept limits w.origin others)
    (hstopping : w.stopping = true)
    (hsole : ∀ number other task task', before number = some task → before other = some task' →
      task.id = task'.id → number = other)
    (hends : ∀ number task draw ending, before number = some task → w.Finishes number ending →
      ends number task (pool.reportOn draw task ending) w.elapsedMs)
    (hact : World.Act pool False w (shift, told) (next, told')) {since : List (TaskEvent × Nat)}
    (hcourse : Course ends w.startMs before claims shift.fleet.hands shift.fleet.trace.broker since
      claimed) :
    ∃ new, told' = new ++ told ∧ Course ends w.startMs before claims next.fleet.hands
      next.fleet.trace.broker (new ++ since) claimed := by
  cases hact with
  | act event step happens permitted =>
    refine ⟨_, rfl, ?_⟩
    rw [happens]
    cases event with
    | enqueue submitted now =>
      exact hcourse.called h.wellFormed (shift.fleet.trace.transition (.enqueue submitted now))
    | claim =>
      have hgoing := permitted.2.2.2.resolve_left id
      exact absurd (hstopping.symm.trans hgoing) Bool.noConfusion
    | abandon => exact permitted.elim
    | finish reporter owner draw ending now =>
      obtain ⟨rfl, rfl, hfinishes⟩ := permitted
      cases hhands : shift.fleet.hands reporter with
      | none =>
        simp only [Fleet.apply, Fleet.tells, hhands]
        exact hcourse
      | some task =>
        obtain ⟨lease, hget, hlease, -⟩ := (h.safe.guarded reporter task hhands).claimed
        have howns : shift.fleet.trace.broker.Owns task lease :=
          ⟨hget, hlease ▸ h.wellFormed.lease_token hget⟩
        have hperform := Report.perform_of_owns howns hlease
          (owner.counts_reportOn draw task ending) w.now
        have hcalled := hcourse.called h.wellFormed (shift.fleet.trace.transition
          ((owner.reportOn draw task ending).call task w.now))
        rw [Exchange.delivered?_of_report (Report.call_report? _ task w.now)] at hcalled
        have hended := hends reporter task draw ending (hcourse.held reporter task hhands)
          (hfinishes.resolve_left id)
        have hdone := hcalled.conclude hsole hhands hended fun hrelease => by
          rw [hrelease]
          exact h.released hhands w.now
        simp only [Fleet.apply, Fleet.tells, hhands, hperform, Option.bind_some]
        exact hdone

end Shift
end WorkQueue
