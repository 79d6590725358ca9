import WorkQueue.Proofs.Broker.Envelope
import WorkQueue.Proofs.Broker.Representation

/-!
# What a look-up shows

Read off the history alone, an id goes through a few standings: it was never accepted, its task
waits, it is claimed until some time, it is finished and so many others were finished after it, or
it was lost when a retry of it could not be counted.  `Standing.after` says what one exchange makes
of a standing, and `History.standing` is the standing after a history; the last record of an id is
the one that its standing names.

`Recorded` is the invariant: where the standing puts the last record, the broker has it
(`Recorded.step`, `run_recorded`).  A look-up therefore shows the last record of every id that is
held, and "not found" of one that was never accepted.  Of an id that is finished it shows the last
record too, or that this was dropped, as long as no record of an earlier use of the id is kept:
`lookup_shows` states both, and what is shown otherwise.

The condition is needed.  The records of finished tasks are searched from the oldest on, so that a
task that was sent twice under one id is shown as it was sent first (`first_use_shown`).
-/

namespace WorkQueue
namespace Broker

variable {b next : Broker} {task record : Task} {id : String} {lease : Lease} {call : Call}
  {answer : Answer} {limits : BrokerLimits}

/-! ## Standings -/

/-- What has become of an id. -/
inductive Standing where
  /-- No task of the id was accepted. -/
  | unknown
  /-- The task waits in its queue. -/
  | queued (task : Task)
  /-- The task is under a claim, which lapses in time. -/
  | claimed (task : Task) (expiresAt : Instant)
  /-- The task is done, and so many others were after it. -/
  | completed (task : Task) (later : Nat)
  /-- The task has failed for good, and so many others have after it. -/
  | buried (task : Task) (later : Nat)
  /-- Whoever was to retry the task crashed. -/
  | lost (task : Task)
  deriving DecidableEq

namespace Standing

/-- The last record of the id. -/
def record? : Standing → Option Task
  | unknown => none
  | queued task => some task
  | claimed task _ => some task
  | completed task _ => some task
  | buried task _ => some task
  | lost task => some task

/-- The stage that the last record of the id is in. -/
def stage? : Standing → Option TaskState
  | unknown => none
  | queued _ => some .pending
  | claimed _ _ => some .running
  | completed _ _ => some .completed
  | buried _ _ => some .failed
  | lost _ => none

/-- Whether the task is in a queue or under a claim. -/
def held : Standing → Bool
  | queued _ | claimed _ _ => true
  | _ => false

/-- The last record of the id, unless it is dropped by then: a history keeps a record until as many
others as it has room for have come after it, and what is lost is kept nowhere. -/
def kept? (limits : BrokerLimits) : Standing → Option Task
  | completed task later => if later < limits.completedHistory then some task else none
  | buried task later => if later < limits.deadLetterHistory then some task else none
  | lost _ => none
  | standing => standing.record?

/-- A claimed task goes back to its queue once its claim has lapsed. -/
def lapse (now : Instant) : Standing → Standing
  | claimed task expiresAt =>
    if expiresAt ≤ now then queued (task.markPending now) else claimed task expiresAt
  | standing => standing

/-- A report takes a task from its claim. -/
def report (outcome : Task → Standing) : Standing → Standing
  | claimed task _ => outcome task
  | standing => standing

/-- Another task is done. -/
def overtaken : Standing → Standing
  | completed task later => completed task (later + 1)
  | standing => standing

/-- Another task has failed for good. -/
def outlived : Standing → Standing
  | buried task later => buried task (later + 1)
  | standing => standing

/-- What an exchange makes of the standing of an id. -/
def after (limits : BrokerLimits) (id : String) (standing : Standing) (exchange : Exchange) :
    Standing :=
  match exchange.call, exchange.answer with
  | .claim _ _ _ now, .ok (some task) =>
    if task.id = id then claimed task (now.after limits.visibilityTimeout) else standing.lapse now
  | .claim _ _ _ now, _ => standing.lapse now
  | .enqueue task now, .ok _ => if task.id = id then queued (task.markPending now) else standing
  | .ack report now, .ok _ =>
    if report.id = id then standing.report fun task => completed (task.markCompleted now) 0
    else standing.overtaken
  | .retry report delay error now, .ok _ =>
    if report.id = id then standing.report fun task =>
      queued ((task.markRetrying error (now.after delay) now).markPending now)
    else standing
  | .retry report _ _ _, .crashed => if report.id = id then standing.report lost else standing
  | .deadLetter report error now, .ok _ =>
    if report.id = id then standing.report fun task => buried (task.markFailed error now) 0
    else standing.outlived
  | .release report now, .ok _ =>
    if report.id = id then standing.report fun task => queued (task.markPending now) else standing
  | _, _ => standing

end Standing

/-- The standing of an id after a history. -/
def History.standing (limits : BrokerLimits) (id : String) (history : History) : Standing :=
  history.foldl (Standing.after limits id) .unknown

lemma standing_extend (limits : BrokerLimits) (id : String) (trace : Trace) (call : Call) :
    (trace.extend call).history.standing limits id =
      (trace.history.standing limits id).after limits id
        ⟨call, (trace.broker.serve call).1⟩ := by
  simp [History.standing, Trace.extend]

/-! ## Standings and brokers -/

/-- Whether some kept records are the last ones, so many as there is room for, of a list with a
record of an id and so many later ones, none of which is of this id. -/
def Trails (limit : Nat) (kept : List Task) (id : String) (task : Task) (later : Nat) : Prop :=
  task.id = id ∧ ∃ earlier rest, kept = keepLast limit (earlier ++ task :: rest) ∧
    rest.length = later ∧ ∀ record ∈ rest, record.id ≠ id

/-- Whether a broker has the last record of an id where its standing puts it. -/
def Recorded (b : Broker) (id : String) : Standing → Prop
  | .unknown => b.holding id = .nowhere ∧ ∀ record ∈ b.finished, record.id ≠ id
  | .queued task => b.holding id = .queued task
  | .claimed task expiresAt => ∃ token, Table.get? id b.leases = some ⟨task, token, expiresAt⟩
  | .completed task later =>
    b.holding id = .nowhere ∧ task.state = .completed ∧
      Trails b.limits.completedHistory b.completed id task later
  | .buried task later =>
    b.holding id = .nowhere ∧ task.state = .failed ∧
      Trails b.limits.deadLetterHistory b.dead id task later
  | .lost task => b.holding id = .nowhere ∧ task.state = .running

lemma trails_concat (limit : Nat) (kept : List Task) (hid : task.id = id) :
    Trails limit (keepLast limit (kept ++ [task])) id task 0 :=
  ⟨hid, kept, [], rfl, rfl, fun _ hrecord => absurd hrecord List.not_mem_nil⟩

lemma Trails.concat {limit later : Nat} {kept : List Task} (h : Trails limit kept id task later)
    (hid : record.id ≠ id) :
    Trails limit (keepLast limit (kept ++ [record])) id task (later + 1) := by
  obtain ⟨htask, earlier, rest, rfl, rfl, hrest⟩ := h
  refine ⟨htask, earlier, rest ++ [record], ?_, List.length_append, fun other hother => ?_⟩
  · rw [keepLast_keepLast_concat, List.append_assoc, List.cons_append]
  · rcases List.mem_append.mp hother with hother | hother
    · exact hrest other hother
    · exact List.mem_singleton.mp hother ▸ hid

/-- The record is kept exactly if there is room for it and all later ones, and no later one is of
its id. -/
lemma Trails.kept {limit later : Nat} {kept : List Task} (h : Trails limit kept id task later) :
    if later < limit then task ∈ kept else ∀ record ∈ kept, record.id ≠ id := by
  obtain ⟨-, earlier, rest, rfl, rfl, hrest⟩ := h
  have hlength : (earlier ++ task :: rest).length = earlier.length + (rest.length + 1) := by
    rw [List.length_append, List.length_cons]
  unfold keepLast
  rw [hlength]
  split
  · next hroom =>
    rw [List.drop_append_of_le_length (by omega)]
    exact List.mem_append_right _ List.mem_cons_self
  · next hfull =>
    intro record hrecord
    have hdrop : earlier.length + (rest.length + 1) - limit =
        (earlier ++ [task]).length + (rest.length - limit) := by
      rw [List.length_append, List.length_singleton]
      omega
    rw [List.append_cons, hdrop, ← List.drop_drop, List.drop_left] at hrecord
    exact hrest record (List.mem_of_mem_drop hrecord)

namespace Recorded

variable {standing : Standing}

/-- What a broker records of an id depends on where it holds the id and on its histories alone. -/
lemma congr (h : Recorded b id standing) (hholding : next.holding id = b.holding id)
    (hlease : Table.get? id next.leases = Table.get? id b.leases)
    (hcompleted : next.completed = b.completed) (hdead : next.dead = b.dead)
    (hlimits : next.limits = b.limits) : Recorded next id standing := by
  cases standing with
  | unknown => exact ⟨hholding.trans h.1, by rw [finished, hcompleted, hdead]; exact h.2⟩
  | queued => exact hholding.trans h
  | claimed =>
    obtain ⟨token, hget⟩ := h
    exact ⟨token, hlease.trans hget⟩
  | completed => exact ⟨hholding.trans h.1, by rw [hlimits, hcompleted]; exact h.2⟩
  | buried => exact ⟨hholding.trans h.1, by rw [hlimits, hdead]; exact h.2⟩
  | lost => exact ⟨hholding.trans h.1, h.2⟩

/-- A standing knows of the claim on its id. -/
lemma eq_claimed (h : Recorded b id standing) (hget : Table.get? id b.leases = some lease) :
    standing = .claimed lease.task lease.expiresAt := by
  have hheld := holding_of_lease hget
  cases standing with
  | unknown | completed | buried | lost =>
    rw [h.1] at hheld
    cases hheld
  | queued =>
    have hqueued : b.holding id = .queued _ := h
    rw [hqueued] at hheld
    cases hheld
  | claimed =>
    obtain ⟨token, hclaim⟩ := h
    rw [hget, Option.some.injEq] at hclaim
    rw [hclaim]

/-- Unless there is a claim on its id, a standing does not change when lapsed claims go back. -/
lemma lapse_eq (h : Recorded b id standing) (hget : Table.get? id b.leases = none)
    (now : Instant) : standing.lapse now = standing := by
  cases standing with
  | claimed =>
    obtain ⟨token, hclaim⟩ := h
    rw [hget] at hclaim
    cases hclaim
  | _ => rfl

/-! ### What the moves do to what is recorded -/

lemma push (h : Recorded b id standing) (hb : b.WellFormed) (hfresh : task.id ∉ b.heldIds)
    (hother : task.id ≠ id) (eligibleAt : Instant) :
    Recorded (b.push task eligibleAt) id standing :=
  h.congr ((holding_push hb hfresh id).trans (if_neg hother)) rfl rfl rfl rfl

lemma dropLease (h : Recorded b id standing) (hb : b.WellFormed) {other : String}
    (hget : Table.get? other b.leases = some lease) (hother : other ≠ id) :
    Recorded (b.dropLease other) id standing :=
  h.congr ((holding_dropLease hb hget id).trans (if_neg hother))
    ((WellFormed.get?_dropLease b other id).trans (if_neg hother)) rfl rfl rfl

lemma requeue (h : Recorded b id standing) (hb : b.WellFormed) {other : String}
    (hget : Table.get? other b.leases = some lease) (htask : task.id = other) (hother : other ≠ id)
    (eligibleAt : Instant) : Recorded ((b.dropLease other).push task eligibleAt) id standing :=
  (h.dropLease hb hget hother).push (hb.dropLease other)
    (by rw [htask]; exact hb.not_mem_heldIds_dropLease hget) (htask ▸ hother) eligibleAt

/-- When lapsed claims go back, so does the claim on the id, if it has lapsed. -/
lemma recover (h : Recorded b id standing) (hb : b.WellFormed) (order : ReturnOrder)
    (now : Instant) : Recorded (b.recover order now) id (standing.lapse now) := by
  cases hget : Table.get? id b.leases with
  | none =>
    rw [h.lapse_eq hget]
    refine h.congr ?_ ?_ (recover_completed b order now) (recover_dead b order now)
      (recover_limits b order now)
    · rcases holding_recover hb order now id with hsame | ⟨task, hclaimed, -⟩
      · exact hsame
      · obtain ⟨lease, hlease, -⟩ := lease_of_claimed hb hclaimed
        rw [hget] at hlease
        cases hlease
    · cases hrecovered : Table.get? id (b.recover order now).leases with
      | none => exact hget.symm
      | some lease =>
        have hlease := ((hb.get?_recover order now).mp hrecovered).1
        rw [hget] at hlease
        cases hlease
  | some lease =>
    rw [h.eq_claimed hget]
    by_cases hlapsed : lease.expiresAt ≤ now
    · obtain ⟨entry, hentry, htask, -⟩ := hb.entry_of_lapsed order hget hlapsed
      have hid : entry.task.id = id := by
        rw [htask]
        exact hb.lease_id hget
      have hqueued := holding_of_entry (hb.recover order now) hentry hid
      rw [htask] at hqueued
      rw [Standing.lapse, if_pos hlapsed]
      exact hqueued
    · rw [Standing.lapse, if_neg hlapsed]
      exact ⟨lease.token, (hb.get?_recover order now).mpr ⟨hget, hlapsed⟩⟩

/-- A task more among the completed ones is later than the record of any other id. -/
lemma keepCompleted (h : Recorded b id standing) (hother : task.id ≠ id) :
    Recorded (b.keepCompleted task) id standing.overtaken := by
  cases standing with
  | unknown =>
    refine ⟨h.1, fun record hrecord => ?_⟩
    rcases List.mem_append.mp hrecord with hdead | hcompleted
    · exact h.2 record (List.mem_append_left _ hdead)
    · rcases List.mem_append.mp (List.mem_of_mem_drop hcompleted) with hold | hnew
      · exact h.2 record (List.mem_append_right _ hold)
      · exact List.mem_singleton.mp hnew ▸ hother
  | queued | claimed | buried | lost => exact h
  | completed => exact ⟨h.1, h.2.1, h.2.2.concat hother⟩

/-- A task more among those that failed for good is later than the record of any other id. -/
lemma keepDead (h : Recorded b id standing) (hother : task.id ≠ id) :
    Recorded (b.keepDead task) id standing.outlived := by
  cases standing with
  | unknown =>
    refine ⟨h.1, fun record hrecord => ?_⟩
    rcases List.mem_append.mp hrecord with hdead | hcompleted
    · rcases List.mem_append.mp (List.mem_of_mem_drop hdead) with hold | hnew
      · exact h.2 record (List.mem_append_left _ hold)
      · exact List.mem_singleton.mp hnew ▸ hother
    · exact h.2 record (List.mem_append_right _ hcompleted)
  | queued | claimed | completed | lost => exact h
  | buried => exact ⟨h.1, h.2.1, h.2.2.concat hother⟩

/-- A call leaves the last record of an id where the standing after it puts it. -/
lemma step (h : Recorded b id standing) (hb : b.WellFormed) (hstaged : b.Staged)
    (htransition : Transition b call answer next) :
    Recorded next id (standing.after b.limits id ⟨call, answer⟩) := by
  cases htransition with
  | turnedAway => exact h
  | @enqueued task now fresh _ =>
    have hfresh : (task.markPending now).id ∉ b.heldIds := fun hheld =>
      Bool.false_ne_true (fresh.symm.trans (hb.holds_iff.mpr hheld))
    by_cases hid : task.id = id
    · simp only [Standing.after, if_pos hid]
      exact (holding_push hb hfresh id).trans (if_pos hid)
    · simp only [Standing.after, if_neg hid]
      exact h.push hb hfresh hid _
  | unserved => exact h.recover hb _ _
  | @claimed order _ _ now queue entry rest first =>
    have hget := WellFormed.get?_handOver (b.recover order now) queue id entry rest now
    have hlimits := recover_limits b order now
    by_cases hid : entry.task.id = id
    · have hdelivery : ((b.recover order now).delivery entry now).id = id := hid
      simp only [Standing.after, if_pos hdelivery, ← hlimits]
      exact ⟨_, hget.trans (if_pos hid)⟩
    · have hdelivery : ((b.recover order now).delivery entry now).id ≠ id := hid
      simp only [Standing.after, if_neg hdelivery]
      have hholding := holding_handOver (hb.recover order now) first now id
      exact (h.recover hb order now).congr (hholding.trans (if_neg hid)) (hget.trans (if_neg hid))
        rfl rfl rfl
  | disowned isReport =>
    cases call with
    | enqueue | claim => cases isReport
    | _ => exact h
  | @acked report lease now owns =>
    by_cases hid : report.id = id
    · simp only [Standing.after, if_pos hid, h.eq_claimed (hid ▸ owns.1)]
      have hgone := (holding_dropLease hb owns.1 id).trans (if_pos hid)
      exact ⟨hgone, rfl, trails_concat _ _ ((hb.lease_id owns.1).trans hid)⟩
    · simp only [Standing.after, if_neg hid]
      have hother : (lease.task.markCompleted now).id ≠ id := (hb.lease_id owns.1).trans_ne hid
      exact (h.dropLease hb owns.1 hid).keepCompleted hother
  | @retried report lease delay error now owns =>
    have hreport : ((lease.task.markRetrying error (now.after delay) now).markPending now).id =
      report.id := hb.lease_id owns.1
    by_cases hid : report.id = id
    · simp only [Standing.after, if_pos hid, h.eq_claimed (hid ▸ owns.1)]
      exact (holding_requeue hb owns.1 _ hreport id).trans (if_pos hid)
    · simp only [Standing.after, if_neg hid]
      exact h.requeue hb owns.1 hreport hid _
  | @crashed report lease delay error now owns =>
    by_cases hid : report.id = id
    · simp only [Standing.after, if_pos hid, h.eq_claimed (hid ▸ owns.1)]
      have hgone := (holding_dropLease hb owns.1 id).trans (if_pos hid)
      exact ⟨hgone, hstaged.claimed owns.1⟩
    · simp only [Standing.after, if_neg hid]
      exact h.dropLease hb owns.1 hid
  | @buried report lease error now owns =>
    by_cases hid : report.id = id
    · simp only [Standing.after, if_pos hid, h.eq_claimed (hid ▸ owns.1)]
      have hgone := (holding_dropLease hb owns.1 id).trans (if_pos hid)
      exact ⟨hgone, rfl, trails_concat _ _ ((hb.lease_id owns.1).trans hid)⟩
    · simp only [Standing.after, if_neg hid]
      have hother : (lease.task.markFailed error now).id ≠ id := (hb.lease_id owns.1).trans_ne hid
      exact (h.dropLease hb owns.1 hid).keepDead hother
  | @released report lease now owns =>
    have hreport : (lease.task.markPending now).id = report.id := hb.lease_id owns.1
    by_cases hid : report.id = id
    · simp only [Standing.after, if_pos hid, h.eq_claimed (hid ▸ owns.1)]
      exact (holding_requeue hb owns.1 _ hreport id).trans (if_pos hid)
    · simp only [Standing.after, if_neg hid]
      exact h.requeue hb owns.1 hreport hid _

end Recorded

/-- After every run, the last record of an id is where its standing puts it. -/
theorem run_recorded (limits : BrokerLimits) (calls : List Call) (id : String) :
    Recorded (Trace.run limits calls).broker id
      ((Trace.run limits calls).history.standing limits id) := by
  refine (Trace.run_induction (motive := fun trace => trace.broker.Staged ∧
    Recorded trace.broker id (trace.history.standing limits id)) ?_ ?_ calls).2
  · refine ⟨staged_empty limits, holding_of_not_held ?_, ?_⟩
    · simp [Trace.start, heldIds, queuedIds, allEntries, empty, Table.names]
    · simp [Trace.start, finished, empty]
  · intro trace call hb hlimits ih
    obtain ⟨hstaged, hrecorded⟩ := ih
    have htransition := trace.transition call
    have hstep := hrecorded.step hb hstaged htransition
    rw [hlimits] at hstep
    refine ⟨htransition.staged hb hstaged, ?_⟩
    rwa [standing_extend]

/-! ## The last record of an id -/

namespace Standing

variable {standing : Standing} {exchange : Exchange}

@[simp] lemma record?_overtaken : standing.overtaken.record? = standing.record? := by
  cases standing <;> rfl

@[simp] lemma record?_outlived : standing.outlived.record? = standing.record? := by
  cases standing <;> rfl

lemma held_overtaken : standing.overtaken.held = standing.held := by
  cases standing <;> rfl

lemma held_outlived : standing.outlived.held = standing.held := by
  cases standing <;> rfl

lemma lapse_of_not_held (h : standing.held = false) (now : Instant) :
    standing.lapse now = standing := by
  cases standing with
  | queued | claimed => cases h
  | _ => rfl

lemma isSome_lapse (h : standing.record?.isSome) (now : Instant) :
    (standing.lapse now).record?.isSome := by
  cases standing with
  | claimed task expiresAt =>
    by_cases hlapsed : expiresAt ≤ now
    · simp only [lapse, if_pos hlapsed]
      rfl
    · simp only [lapse, if_neg hlapsed]
      rfl
  | _ => exact h

lemma isSome_report (h : standing.record?.isSome) {outcome : Task → Standing}
    (houtcome : ∀ task, (outcome task).record?.isSome) :
    (standing.report outcome).record?.isSome := by
  cases standing with
  | claimed task expiresAt => exact houtcome task
  | _ => exact h

/-- An id that was accepted has a last record for ever. -/
lemma isSome_after (h : standing.record?.isSome) :
    (standing.after limits id exchange).record?.isSome := by
  have hreport : ∀ {outcome : Task → Standing}, (∀ task, (outcome task).record?.isSome) →
      (standing.report outcome).record?.isSome := isSome_report h
  unfold after
  split
  · split
    · rfl
    · exact isSome_lapse h _
  · exact isSome_lapse h _
  · split
    · rfl
    · exact h
  · split
    · exact hreport fun _ => rfl
    · rwa [record?_overtaken]
  · split
    · exact hreport fun _ => rfl
    · exact h
  · split
    · exact hreport fun _ => rfl
    · exact h
  · split
    · exact hreport fun _ => rfl
    · rwa [record?_outlived]
  · split
    · exact hreport fun _ => rfl
    · exact h
  · exact h

lemma isSome_after_enqueue (limits : BrokerLimits) (standing : Standing)
    (h : exchange.enqueued? = some task) (hid : task.id = id) :
    (standing.after limits id exchange).record?.isSome := by
  obtain ⟨call, answer⟩ := exchange
  cases call with
  | enqueue other now =>
    cases answer with
    | error | crashed => cases h
    | ok =>
      cases h
      simp only [after, if_pos hid]
      rfl
  | _ => cases h

/-- An exchange that says nothing of an id leaves the last record of the id, unless it is held. -/
lemma after_of_silent (hsilent : exchange.Silent id) (h : standing.held = false) :
    (standing.after limits id exchange).held = false ∧
      (standing.after limits id exchange).record? = standing.record? := by
  have hlapse : ∀ now, standing.lapse now = standing := lapse_of_not_held h
  obtain ⟨call, answer⟩ := exchange
  cases answer with
  | error =>
    cases call with
    | claim => simp only [after, hlapse, h, and_self]
    | _ => exact ⟨h, rfl⟩
  | crashed =>
    cases call with
    | claim => simp only [after, hlapse, h, and_self]
    | retry report => simp only [after, if_neg (hsilent.spent report rfl), h, and_self]
    | _ => exact ⟨h, rfl⟩
  | ok result =>
    cases call with
    | enqueue task => simp only [after, if_neg (hsilent.enqueued task rfl), h, and_self]
    | claim =>
      cases result with
      | none => simp only [after, hlapse, h, and_self]
      | some task => simp only [after, if_neg (hsilent.delivered task rfl), hlapse, h, and_self]
    | ack report =>
      simp only [after, if_neg (hsilent.spent report rfl), held_overtaken, h, record?_overtaken,
        and_self]
    | deadLetter report =>
      simp only [after, if_neg (hsilent.spent report rfl), held_outlived, h, record?_outlived,
        and_self]
    | retry report | release report =>
      simp only [after, if_neg (hsilent.spent report rfl), h, and_self]

end Standing

/-! ## Where a look-up finds a record -/

/-- What a look-up answers, whether or not it finds a record. -/
def found (id : String) : Option Task → Except QueueError Task
  | some task => .ok task
  | none => .error (.taskNotFound id)

lemma entry_of_queued (hb : b.WellFormed) (h : b.holding id = .queued task) :
    ∃ entry ∈ b.allEntries, entry.task.id = id ∧ entry.task = task := by
  rcases holding_cases hb id with ⟨lease, -, hclaimed⟩ | ⟨entry, hentry, hid, hqueued⟩ | ⟨-, hnone⟩
  · rw [h] at hclaimed
    cases hclaimed
  · rw [h] at hqueued
    cases hqueued
    exact ⟨entry, hentry, hid, rfl⟩
  · rw [h] at hnone
    cases hnone

/-- Of an id that is not held, a look-up shows the oldest dead letter, and if there is none the
oldest completed task. -/
lemma get_of_nowhere (hb : b.WellFormed) (h : b.holding id = .nowhere) :
    b.get id = found id (b.finished.find? fun record => record.id == id) := by
  have hfree := not_held_of_nowhere hb h
  rw [heldIds, List.mem_append, not_or] at hfree
  have hlease : Table.get? id b.leases = none := by
    cases hget : Table.get? id b.leases with
    | none => rfl
    | some lease => exact absurd (mem_names_leases.mpr ⟨lease, hget⟩) hfree.2
  have hindex : Table.get? id b.index = none := by
    cases hget : Table.get? id b.index with
    | none => rfl
    | some queue =>
      have hlisted : Table.has id b.index = true := Option.isSome_iff_exists.mpr ⟨queue, hget⟩
      exact absurd (hb.index_has_iff.mp hlisted) hfree.1
  have hqueued : b.queued? id = none := by
    simp only [queued?, hindex]
    rfl
  simp only [get, hlease, hqueued, finished, List.find?_append, Option.map_none, Option.none_or]
  rfl

namespace Recorded

variable {standing : Standing}

lemma nowhere (h : Recorded b id standing) (hfree : standing.held = false) :
    b.holding id = .nowhere := by
  cases standing with
  | unknown | completed | buried | lost => exact h.1
  | queued | claimed => cases hfree

/-- A look-up shows the last record of an id that is held. -/
lemma get_of_held (h : Recorded b id standing) (hb : b.WellFormed) (hheld : standing.held = true) :
    b.get id = found id standing.record? := by
  cases standing with
  | unknown | completed | buried | lost => cases hheld
  | queued task =>
    obtain ⟨entry, hentry, rfl, rfl⟩ := entry_of_queued hb h
    exact get_of_entry hb hentry
  | claimed task expiresAt =>
    obtain ⟨token, hget⟩ := h
    exact get_of_lease hget

/-- A last record that is not dropped is kept. -/
lemma mem_finished (h : Recorded b id standing) (hfree : standing.held = false)
    (hkept : standing.kept? b.limits = some record) :
    standing.record? = some record ∧ record ∈ b.finished ∧ record.id = id := by
  cases standing with
  | unknown | lost => cases hkept
  | queued | claimed => cases hfree
  | completed task later =>
    obtain ⟨-, -, htrails⟩ := h
    have hmem := htrails.kept
    by_cases hroom : later < b.limits.completedHistory
    · simp only [Standing.kept?, if_pos hroom] at hkept hmem
      cases hkept
      exact ⟨rfl, List.mem_append_right _ hmem, htrails.1⟩
    · simp only [Standing.kept?, if_neg hroom] at hkept
      cases hkept
  | buried task later =>
    obtain ⟨-, -, htrails⟩ := h
    have hmem := htrails.kept
    by_cases hroom : later < b.limits.deadLetterHistory
    · simp only [Standing.kept?, if_pos hroom] at hkept hmem
      cases hkept
      exact ⟨rfl, List.mem_append_left _ hmem, htrails.1⟩
    · simp only [Standing.kept?, if_neg hroom] at hkept
      cases hkept

/-- A last record that is kept is not dropped: its stage tells in which history it would be. -/
lemma kept?_of_mem (h : Recorded b id standing) (hstaged : b.Staged)
    (hrecord : standing.record? = some record) (hmem : record ∈ b.finished) :
    standing.kept? b.limits = some record := by
  cases standing with
  | unknown => cases hrecord
  | queued | claimed => exact hrecord
  | lost task =>
    -- A finished task is in another stage than one that was lost under its claim.
    cases hrecord
    obtain ⟨-, hstate⟩ := h
    rcases List.mem_append.mp hmem with hdead | hcompleted
    · rw [hstaged.dead record hdead] at hstate
      cases hstate
    · rw [hstaged.completed record hcompleted] at hstate
      cases hstate
  | completed task later =>
    cases hrecord
    obtain ⟨-, hstate, htrails⟩ := h
    by_cases hroom : later < b.limits.completedHistory
    · exact if_pos hroom
    · have hdropped := htrails.kept
      simp only [if_neg hroom] at hdropped
      rcases List.mem_append.mp hmem with hdead | hcompleted
      · rw [hstaged.dead record hdead] at hstate
        cases hstate
      · exact absurd htrails.1 (hdropped record hcompleted)
  | buried task later =>
    cases hrecord
    obtain ⟨-, hstate, htrails⟩ := h
    by_cases hroom : later < b.limits.deadLetterHistory
    · exact if_pos hroom
    · have hdropped := htrails.kept
      simp only [if_neg hroom] at hdropped
      rcases List.mem_append.mp hmem with hdead | hcompleted
      · exact absurd htrails.1 (hdropped record hdead)
      · rw [hstaged.completed record hcompleted] at hstate
        cases hstate

lemma kept?_of_absent (h : Recorded b id standing) (hfree : standing.held = false)
    (habsent : b.finished.find? (fun record => record.id == id) = none) :
    standing.kept? b.limits = none := by
  cases hkept : standing.kept? b.limits with
  | none => rfl
  | some record =>
    obtain ⟨-, hmem, hid⟩ := h.mem_finished hfree hkept
    exact absurd (beq_iff_eq.mpr hid) (List.find?_eq_none.mp habsent record hmem)

/-- If no other record of the id is kept, a look-up shows the last one, or that it was dropped. -/
lemma get_of_sole (h : Recorded b id standing) (hb : b.WellFormed) (hstaged : b.Staged)
    (hsole : ∀ record ∈ b.finished, record.id = id → standing.record? = some record) :
    b.get id = found id (standing.kept? b.limits) := by
  cases hheld : standing.held with
  | true =>
    rw [h.get_of_held hb hheld]
    cases standing with
    | unknown | completed | buried | lost => cases hheld
    | queued | claimed => rfl
  | false =>
    rw [get_of_nowhere hb (h.nowhere hheld)]
    cases hfind : b.finished.find? fun record => record.id == id with
    | some record =>
      have hmem := List.mem_of_find?_eq_some hfind
      have hid : record.id = id := by simpa using List.find?_some hfind
      rw [h.kept?_of_mem hstaged (hsole record hmem hid) hmem]
    | none => rw [h.kept?_of_absent hheld hfind]

/-- A look-up that finds nothing is right: the id was never accepted, or its last record is
dropped. -/
lemma kept?_of_get_error (h : Recorded b id standing) (hb : b.WellFormed) {error : QueueError}
    (hget : b.get id = .error error) :
    error = .taskNotFound id ∧ standing.kept? b.limits = none := by
  cases hheld : standing.held with
  | true =>
    rw [h.get_of_held hb hheld] at hget
    cases standing with
    | unknown | completed | buried | lost => cases hheld
    | queued | claimed => cases hget
  | false =>
    rw [get_of_nowhere hb (h.nowhere hheld)] at hget
    cases hfind : b.finished.find? fun record => record.id == id with
    | some record =>
      rw [hfind] at hget
      cases hget
    | none =>
      rw [hfind] at hget
      cases hget
      exact ⟨rfl, h.kept?_of_absent hheld hfind⟩

/-- The stage of a last record that is not dropped is that of the last transition. -/
lemma state_of_kept (h : Recorded b id standing) (hb : b.WellFormed) (hstaged : b.Staged)
    (hkept : standing.kept? b.limits = some record) : standing.stage? = some record.state := by
  cases standing with
  | unknown | lost => cases hkept
  | queued task =>
    cases hkept
    obtain ⟨entry, hentry, -, rfl⟩ := entry_of_queued hb h
    rw [(hstaged.queued entry hentry).1]
    rfl
  | claimed task expiresAt =>
    cases hkept
    obtain ⟨token, hget⟩ := h
    have hstate : record.state = .running := hstaged.claimed hget
    rw [hstate]
    rfl
  | completed task later =>
    obtain ⟨hrecord, -⟩ := h.mem_finished rfl hkept
    cases hrecord
    rw [h.2.1]
    rfl
  | buried task later =>
    obtain ⟨hrecord, -⟩ := h.mem_finished rfl hkept
    cases hrecord
    rw [h.2.1]
    rfl

end Recorded

/-! ## Ids that are used once -/

lemma Standing.not_held_of_record? {standing : Standing} (h : standing.record? = none) :
    standing.held = false := by
  cases standing with
  | unknown => rfl
  | _ => cases h

/-- An exchange by which no task of an id is accepted leaves the last record of the id, unless the
id is held. -/
lemma Recorded.after_of_fresh {standing : Standing} (h : Recorded b id standing)
    (limits : BrokerLimits) (hb : b.WellFormed) (htransition : Transition b call answer next)
    (hfree : standing.held = false)
    (hfresh : ∀ task, Exchange.enqueued? ⟨call, answer⟩ = some task → task.id ≠ id) :
    (standing.after limits id ⟨call, answer⟩).held = false ∧
      (standing.after limits id ⟨call, answer⟩).record? = standing.record? := by
  have hpassage := htransition.passage hb id
  rw [h.nowhere hfree] at hpassage
  exact Standing.after_of_silent (hpassage.of_nowhere hfresh).2 hfree

/-- An id has a last record if it was accepted, and only then. -/
lemma record?_eq_none_iff (limits : BrokerLimits) (calls : List Call) (id : String) :
    ((Trace.run limits calls).history.standing limits id).record? = none ↔
      (Trace.run limits calls).history.Unsubmitted id := by
  induction calls using List.reverseRecOn with
  | nil => exact ⟨fun _ task htask => absurd htask List.not_mem_nil, fun _ => rfl⟩
  | append_singleton calls call ih =>
    rw [Trace.run_concat, standing_extend]
    constructor
    · intro hnone task htask
      have hbefore : ((Trace.run limits calls).history.standing limits id).record? = none := by
        rw [← Option.not_isSome_iff_eq_none] at hnone ⊢
        exact fun hsome => hnone (Standing.isSome_after hsome)
      rw [History.enqueued, Trace.filterMap_extend] at htask
      rcases List.mem_append.mp htask with hold | hnew
      · exact ih.mp hbefore task hold
      · intro hid
        have hsome := Standing.isSome_after_enqueue limits
          ((Trace.run limits calls).history.standing limits id) (Option.mem_toList.mp hnew) hid
        rw [hnone] at hsome
        cases hsome
    · intro hunsubmitted
      obtain ⟨hbefore, hfresh⟩ := hunsubmitted.of_concat
      have hnone := ih.mpr hbefore
      have hsame := (run_recorded limits calls id).after_of_fresh limits
        (Trace.run_wellFormed limits calls) ((Trace.run limits calls).transition call)
        (Standing.not_held_of_record? hnone) hfresh
      exact hsame.2.trans hnone

/-- A record of a finished task is the last one of its id, if the id was accepted once. -/
lemma record?_of_finished (limits : BrokerLimits) (calls : List Call)
    (honce : occurrences id (Trace.run limits calls).history.enqueued ≤ 1)
    (hrecord : record ∈ (Trace.run limits calls).broker.finished) (hid : record.id = id) :
    ((Trace.run limits calls).history.standing limits id).held = false ∧
      ((Trace.run limits calls).history.standing limits id).record? = some record := by
  induction calls using List.reverseRecOn with
  | nil => cases hrecord
  | append_singleton calls call ih =>
    have hb := Trace.run_wellFormed limits calls
    have hrecorded := run_recorded limits calls id
    have htransition := (Trace.run limits calls).transition call
    rw [Trace.run_concat] at honce hrecord ⊢
    rw [History.enqueued, Trace.filterMap_extend, occurrences_append] at honce
    rw [standing_extend]
    rcases htransition.mem_finished hb hrecord with
      hold | ⟨task, report, now, hclaimed, -, hreport, hnew⟩
    · obtain ⟨hfree, hlast⟩ := ih (by unfold History.enqueued; omega) hold
      -- The one submission of the id is over, so that this call is none.
      have hfresh : ∀ task, Exchange.enqueued?
          ⟨call, ((Trace.run limits calls).broker.serve call).1⟩ = some task → task.id ≠ id := by
        intro task htask hsame
        have hunsubmitted : (Trace.run limits calls).history.Unsubmitted id := by
          intro other hother hother_id
          have hpos := occurrences_pos hother
          rw [hother_id] at hpos
          rw [htask, Option.toList_some, occurrences_singleton, if_pos hsame] at honce
          unfold History.enqueued at hpos
          omega
        rw [(record?_eq_none_iff limits calls id).mpr hunsubmitted] at hlast
        cases hlast
      have hsame := hrecorded.after_of_fresh limits hb htransition hfree hfresh
      exact ⟨hsame.1, hsame.2.trans hlast⟩
    · rw [hid] at hclaimed hreport
      obtain ⟨lease, hget, rfl⟩ := lease_of_claimed hb hclaimed
      rw [hrecorded.eq_claimed hget]
      rcases hnew with ⟨rfl, hanswer, rfl⟩ | ⟨error, rfl, hanswer, rfl⟩
      · simp only [hanswer, Standing.after, if_pos hreport]
        exact ⟨rfl, rfl⟩
      · simp only [hanswer, Standing.after, if_pos hreport]
        exact ⟨rfl, rfl⟩

/-! ## What a look-up shows -/

/-- What it means that look-ups show what has become of an id in a run. -/
structure ShowsStanding (limits : BrokerLimits) (calls : List Call) (id : String) : Prop where
  /-- The last record of an id that is queued or claimed is shown. -/
  held : ((Trace.run limits calls).history.standing limits id).held = true →
    (Trace.run limits calls).broker.get id =
      found id ((Trace.run limits calls).history.standing limits id).record?
  /-- An id has a last record if it was ever accepted, and otherwise nothing is shown. -/
  unknown : (((Trace.run limits calls).history.standing limits id).record? = none ↔
      (Trace.run limits calls).history.Unsubmitted id) ∧
    ((Trace.run limits calls).history.Unsubmitted id →
      (Trace.run limits calls).broker.get id = .error (.taskNotFound id))
  /-- If no record of an earlier use of the id is kept, the last record is shown, and nothing if it
  is dropped. -/
  current : (∀ record ∈ (Trace.run limits calls).broker.finished, record.id = id →
      ((Trace.run limits calls).history.standing limits id).record? = some record) →
    (Trace.run limits calls).broker.get id =
      found id (((Trace.run limits calls).history.standing limits id).kept? limits)
  /-- So it is for an id that was accepted once. -/
  once : occurrences id (Trace.run limits calls).history.enqueued ≤ 1 →
    (Trace.run limits calls).broker.get id =
      found id (((Trace.run limits calls).history.standing limits id).kept? limits)
  /-- In any case nothing is shown only if the last record is dropped or lost, or there is none. -/
  missing : ∀ error, (Trace.run limits calls).broker.get id = .error error →
    error = .taskNotFound id ∧
      ((Trace.run limits calls).history.standing limits id).kept? limits = none
  /-- The oldest kept record is shown of a finished id, dead letters first. -/
  finished : ((Trace.run limits calls).history.standing limits id).held = false →
    (Trace.run limits calls).broker.get id =
      found id ((Trace.run limits calls).broker.finished.find? fun record => record.id == id)
  /-- The last record is in the stage of the last transition. -/
  stage : ∀ record,
    ((Trace.run limits calls).history.standing limits id).kept? limits = some record →
      ((Trace.run limits calls).history.standing limits id).stage? = some record.state

/-- **A look-up shows the last record of an id** that is held, and of a finished one if no record of
an earlier use of the id is kept. -/
theorem lookup_shows (limits : BrokerLimits) (calls : List Call) (id : String) :
    ShowsStanding limits calls id := by
  have hb := Trace.run_wellFormed limits calls
  have hstaged := Trace.run_staged limits calls
  have hlimits := Trace.run_limits limits calls
  have hrecorded := run_recorded limits calls id
  have hcurrent := hrecorded.get_of_sole hb hstaged
  have hmissing : ∀ error, (Trace.run limits calls).broker.get id = .error error → _ :=
    fun error => hrecorded.kept?_of_get_error hb
  have hstage : ∀ record, _ = some record → _ := fun record => hrecorded.state_of_kept hb hstaged
  rw [hlimits] at hcurrent hmissing hstage
  have hunknown := record?_eq_none_iff limits calls id
  have honce : occurrences id (Trace.run limits calls).history.enqueued ≤ 1 →
      (Trace.run limits calls).broker.get id =
        found id (((Trace.run limits calls).history.standing limits id).kept? limits) :=
    fun honce => hcurrent fun record hrecord hid =>
      (record?_of_finished limits calls honce hrecord hid).2
  refine ⟨hrecorded.get_of_held hb, ⟨hunknown, fun hunsubmitted => ?_⟩, hcurrent, honce,
    hmissing, fun hfree => get_of_nowhere hb (hrecorded.nowhere hfree), hstage⟩
  have hnone := hunknown.mpr hunsubmitted
  have hzero : occurrences id (Trace.run limits calls).history.enqueued = 0 := by
    refine List.count_eq_zero_of_not_mem fun hmem => ?_
    obtain ⟨task, htask, hid⟩ := List.mem_map.mp hmem
    exact hunsubmitted task htask hid
  rw [honce (by omega)]
  cases hstanding : (Trace.run limits calls).history.standing limits id with
  | unknown => rfl
  | _ =>
    rw [hstanding] at hnone
    cases hnone

/-! ### A letter that is sent twice -/

/-- Two letters of one id are sent one after the other. -/
def twoLetters : List Call :=
  [.enqueue (.create "a" "letter" [1] 0 .epoch) .epoch,
   .claim .listed (.single "default") [] .epoch,
   .ack { Task.create "a" "letter" [1] 0 .epoch with lease := some 1 } .epoch,
   .enqueue (.create "a" "letter" [2] 0 .epoch) .epoch,
   .claim .listed (.single "default") [] .epoch,
   .ack { Task.create "a" "letter" [2] 0 .epoch with lease := some 2 } .epoch]

/-- A broker with room for both. -/
def twoLetterLimits : BrokerLimits := ⟨1, Duration.ofSeconds 30, 2, 2, .crashes⟩

/-- The last record of the two letters is that of the second, and the first is shown. -/
theorem first_use_shown :
    (((Trace.run twoLetterLimits twoLetters).history.standing twoLetterLimits "a").kept?
      twoLetterLimits).map (·.payload) = some [2] ∧
    ((Trace.run twoLetterLimits twoLetters).broker.get "a").toOption.map (·.payload) = some [1] ∧
    ¬ ∀ limits calls id, (Trace.run limits calls).broker.get id =
      found id (((Trace.run limits calls).history.standing limits id).kept? limits) := by
  have hlast : (((Trace.run twoLetterLimits twoLetters).history.standing twoLetterLimits
      "a").kept? twoLetterLimits).map (·.payload) = some [2] := by decide +kernel
  have hshown : ((Trace.run twoLetterLimits twoLetters).broker.get "a").toOption.map
      (·.payload) = some [1] := by decide +kernel
  refine ⟨hlast, hshown, fun hall => ?_⟩
  obtain ⟨record, hkept, hsecond⟩ := Option.map_eq_some_iff.mp hlast
  rw [hall twoLetterLimits twoLetters "a", hkept] at hshown
  have hfirst : record.payload = [1] := Option.some.inj hshown
  rw [hsecond] at hfirst
  cases hfirst

end Broker
end WorkQueue
