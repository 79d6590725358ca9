import WorkQueue.Proofs.Broker.Passage
import WorkQueue.Proofs.Broker.Records

/-!
# Envelopes

A task is submitted with an envelope that no operation changes, and with two marks that reports
change: how often it was retried, and its last error.  `Continues` says of a record that it is that
of a submission, with the marks that the accepted reports since then have left.  The count of
retries is a number of 32 bits: at its end it starts again, or, in a program that was built with
checks, whoever would raise it crashes and the task is lost, so that what is still shown is counted
without a gap.

A broker shows records in answers, in its two histories and when it is asked for an id.
`Carries` is the invariant: until the id is accepted anew, each of them continues the submission,
unless it is a record of an earlier use of the id that the histories still held when the task was
submitted.  The exception is real.  A look-up prefers a dead letter to a completed task, and an
older record to a newer one, so that it can show what was submitted before (`older_letter_shown`).

Nothing but the id and the token of a report has a part in any of this: two runs whose reports agree
in these give the same answers and lead to the same broker (`alike_runs`).
-/

namespace WorkQueue

/-- What a task is submitted with and keeps. -/
structure Envelope where
  id : String
  kind : String
  payload : List UInt8
  queue : String
  maxRetry : UInt32
  createdAt : Instant
  deriving DecidableEq

/-- What a record keeps of the submission. -/
def Task.envelope (task : Task) : Envelope :=
  ⟨task.id, task.kind, task.payload, task.queue, task.maxRetry, task.createdAt⟩

namespace Broker

variable {b next : Broker} {task record submitted : Task} {id : String} {call : Call}
  {answer : Answer} {since : History} {exchange : Exchange} {overflow : Overflow}

/-! ## Records that continue a submission -/

/-- The error that an accepted report gives to a task. -/
def Exchange.error? (exchange : Exchange) (id : String) : Option String :=
  match exchange with
  | ⟨.retry report _ error _, .ok _⟩ => if report.id = id then some error else none
  | ⟨.deadLetter report error _, .ok _⟩ => if report.id = id then some error else none
  | _ => none

/-- The errors that accepted reports gave to a task, in order. -/
def History.errors (history : History) (id : String) : List String :=
  history.filterMap (·.error? id)

/-- Whether a record is that of a submission, with the marks of what has happened since. -/
structure Continues (overflow : Overflow) (record submitted : Task) (since : History) : Prop where
  envelope : record.envelope = submitted.envelope
  /-- The retries since are added to those that were submitted, in 32 bits. -/
  retryCount : record.retryCount.toNat =
    (submitted.retryCount.toNat + occurrences submitted.id since.retried) % 2 ^ 32
  /-- In a program that was built with checks nothing is shown of a task that could not be
  counted. -/
  counted : overflow = .crashes →
    submitted.retryCount.toNat + occurrences submitted.id since.retried < 2 ^ 32
  lastError : record.lastError = (since.errors submitted.id).getLast?.or submitted.lastError

lemma continues_nil (henvelope : record.envelope = submitted.envelope)
    (hcount : record.retryCount = submitted.retryCount)
    (herror : record.lastError = submitted.lastError) :
    Continues overflow record submitted [] where
  envelope := henvelope
  retryCount := by
    rw [hcount]
    exact (Nat.mod_eq_of_lt submitted.retryCount.toNat_lt).symm
  counted _ := submitted.retryCount.toNat_lt
  lastError := by simpa [History.errors] using herror

lemma retried_concat (since : History) (exchange : Exchange) :
    History.retried (since ++ [exchange]) = since.retried ++ exchange.retried?.toList := by
  simp only [History.retried, List.filterMap_append]
  cases hreport : exchange.retried? <;> simp [hreport]

lemma errors_concat (since : History) (exchange : Exchange) (id : String) :
    History.errors (since ++ [exchange]) id = since.errors id ++ (exchange.error? id).toList := by
  simp only [History.errors, List.filterMap_append]
  cases herror : exchange.error? id <;> simp [herror]

namespace Exchange

lemma reported?_of_retried? {report : Task} (h : exchange.retried? = some report) :
    exchange.reported? = some report := by
  unfold retried? at h
  split at h
  · exact h
  · cases h

lemma error?_of_silent (h : exchange.Silent id) : exchange.error? id = none := by
  unfold error?
  split
  · exact if_neg (h.spent _ rfl)
  · exact if_neg (h.spent _ rfl)
  · rfl

lemma occurrences_of_silent (h : exchange.Silent id) :
    occurrences id exchange.retried?.toList = 0 := by
  cases hreport : exchange.retried? with
  | none => rfl
  | some report =>
    have hspent := spent?_of_reported (reported?_of_retried? hreport)
    simp [h.spent report hspent]

end Exchange

namespace Continues

/-- An exchange that gives a task neither a retry nor an error leaves its marks. -/
lemma keep (h : Continues overflow task submitted since)
    (henvelope : record.envelope = task.envelope)
    (hcount : record.retryCount = task.retryCount) (herror : record.lastError = task.lastError)
    (hretried : occurrences submitted.id exchange.retried?.toList = 0)
    (herrors : exchange.error? submitted.id = none) :
    Continues overflow record submitted (since ++ [exchange]) where
  envelope := henvelope.trans h.envelope
  retryCount := by
    rw [retried_concat, occurrences_append, hretried, hcount, h.retryCount, Nat.add_zero]
  counted hchecked := by
    rw [retried_concat, occurrences_append, hretried, Nat.add_zero]
    exact h.counted hchecked
  lastError := by
    rw [errors_concat, herrors, herror, h.lastError, Option.toList_none, List.append_nil]

lemma silent (h : Continues overflow task submitted since)
    (hsilent : exchange.Silent submitted.id) (henvelope : record.envelope = task.envelope)
    (hcount : record.retryCount = task.retryCount) (herror : record.lastError = task.lastError) :
    Continues overflow record submitted (since ++ [exchange]) :=
  h.keep henvelope hcount herror (Exchange.occurrences_of_silent hsilent)
    (Exchange.error?_of_silent hsilent)

/-- What a record continues does not depend on its stage, its times and its token. -/
lemma congr (h : Continues overflow task submitted since)
    (henvelope : record.envelope = task.envelope) (hcount : record.retryCount = task.retryCount)
    (herror : record.lastError = task.lastError) : Continues overflow record submitted since where
  envelope := henvelope.trans h.envelope
  retryCount := hcount ▸ h.retryCount
  counted := h.counted
  lastError := herror.trans h.lastError

/-- The retries after one more. -/
lemma occurrences_retry {report : Task} (hid : report.id = submitted.id) (delay : Duration)
    (error : String) (now : Instant) (result : Option Task) (since : History) :
    occurrences submitted.id
        (History.retried (since ++ [⟨.retry report delay error now, .ok result⟩])) =
      occurrences submitted.id since.retried + 1 := by
  rw [retried_concat, occurrences_append]
  change _ + occurrences submitted.id [report] = _
  rw [occurrences_singleton, if_pos hid]

/-- A report that a task is to be tried again gives it one retry and its error. -/
lemma retry (h : Continues overflow task submitted since) {report : Task}
    (hid : report.id = submitted.id) (hcounted : task.overflows overflow = false)
    (delay : Duration) (error : String) (time now : Instant) (result : Option Task) :
    Continues overflow (task.markRetrying error time now) submitted
      (since ++ [⟨.retry report delay error now, .ok result⟩]) where
  envelope := h.envelope
  retryCount := by
    rw [occurrences_retry hid]
    change (task.retryCount + 1).toNat = _
    rw [UInt32.toNat_add, h.retryCount]
    exact (Nat.mod_add_mod _ _ _).trans (by rw [Nat.add_assoc]; rfl)
  counted hchecked := by
    rw [occurrences_retry hid]
    -- The count so far fits, and it is not at its end.
    have hfits := h.counted hchecked
    have hcount := h.retryCount
    rw [Nat.mod_eq_of_lt hfits] at hcount
    have hmore := task.toNat_lt_of_counted hchecked hcounted
    omega
  lastError := by
    rw [errors_concat]
    simp [Exchange.error?, hid, Task.markRetrying]

/-- A report that a task failed for good gives it its error. -/
lemma bury (h : Continues overflow task submitted since) {report : Task}
    (hid : report.id = submitted.id) (error : String) (now : Instant) (result : Option Task) :
    Continues overflow (task.markFailed error now) submitted
      (since ++ [⟨.deadLetter report error now, .ok result⟩]) where
  envelope := h.envelope
  retryCount := by
    rw [retried_concat, occurrences_append]
    exact h.retryCount
  counted hchecked := by
    rw [retried_concat, occurrences_append]
    exact h.counted hchecked
  lastError := by
    rw [errors_concat]
    simp [Exchange.error?, hid, Task.markFailed]

end Continues

/-! ## What a broker shows -/

/-- The task that is held, if one is. -/
def Holding.task? : Holding → Option Task
  | nowhere => none
  | queued task => some task
  | claimed task => some task

/-- The records of finished tasks that a broker keeps. -/
def finished (b : Broker) : List Task := b.dead ++ b.completed

/-- A record that a call adds to those of finished tasks is that of a claimed task, which is not
held afterwards. -/
lemma Transition.mem_finished (h : Transition b call answer next) (hb : b.WellFormed)
    (hrecord : record ∈ next.finished) :
    record ∈ b.finished ∨ ∃ task report now, b.holding record.id = .claimed task ∧
      next.holding record.id = .nowhere ∧ report.id = record.id ∧
        ((call = .ack report now ∧ answer = .ok none ∧ record = task.markCompleted now) ∨
          ∃ error, call = .deadLetter report error now ∧ answer = .ok (some record) ∧
            record = task.markFailed error now) := by
  cases h with
  | turnedAway | enqueued | disowned | retried | crashed | released => exact .inl hrecord
  | unserved | claimed =>
    left
    simpa [finished, handOver] using hrecord
  | @acked report lease now owns =>
    rcases List.mem_append.mp hrecord with hdead | hcompleted
    · exact .inl (List.mem_append_left _ hdead)
    rcases List.mem_append.mp (List.mem_of_mem_drop hcompleted) with hold | hnew
    · exact .inl (List.mem_append_right _ hold)
    · cases List.mem_singleton.mp hnew
      have hid : lease.task.id = report.id := hb.lease_id owns.1
      have hgone := (holding_dropLease hb owns.1 lease.task.id).trans (if_pos hid.symm)
      exact .inr ⟨lease.task, report, now, holding_of_lease (hid ▸ owns.1), hgone, hid.symm,
        .inl ⟨rfl, rfl, rfl⟩⟩
  | @buried report lease error now owns =>
    rcases List.mem_append.mp hrecord with hdead | hcompleted
    · rcases List.mem_append.mp (List.mem_of_mem_drop hdead) with hold | hnew
      · exact .inl (List.mem_append_left _ hold)
      · cases List.mem_singleton.mp hnew
        have hid : lease.task.id = report.id := hb.lease_id owns.1
        have hgone := (holding_dropLease hb owns.1 lease.task.id).trans (if_pos hid.symm)
        exact .inr ⟨lease.task, report, now, holding_of_lease (hid ▸ owns.1), hgone, hid.symm,
          .inr ⟨error, rfl, rfl, rfl⟩⟩
    · exact .inl (List.mem_append_right _ hcompleted)

/-- An exchange whose answer is a record names the task of the record. -/
lemma Transition.not_silent (h : Transition b call (.ok (some record)) next) (hb : b.WellFormed) :
    ¬ Exchange.Silent ⟨call, .ok (some record)⟩ record.id := by
  intro hsilent
  cases h with
  | claimed => exact hsilent.delivered _ rfl rfl
  | retried owns | buried owns => exact hsilent.spent _ rfl (hb.lease_id owns.1).symm

namespace Passage

variable {before after : Holding}

/-- A task that is not held stays so, unless it is submitted. -/
lemma of_nowhere (h : Passage overflow id .nowhere exchange after)
    (hfresh : ∀ task, exchange.enqueued? = some task → task.id ≠ id) :
    after = .nowhere ∧ exchange.Silent id := by
  cases h with
  | aside silent => exact ⟨rfl, silent⟩
  | enqueued same => exact absurd same (hfresh _ rfl)

/-- Whatever a call does to a task that is held, the task continues its submission. -/
lemma continues (h : Passage overflow submitted.id before exchange after)
    (hheld : ∀ task, before.task? = some task → Continues overflow task submitted since)
    (hfresh : ∀ task, exchange.enqueued? = some task → task.id ≠ submitted.id) :
    ∀ task, after.task? = some task →
      Continues overflow task submitted (since ++ [exchange]) := by
  intro task htask
  cases h with
  | aside silent => exact (hheld task htask).silent silent rfl rfl rfl
  | lapsed silent =>
    cases htask
    exact (hheld _ rfl).silent silent rfl rfl rfl
  | enqueued same => exact absurd same (hfresh _ rfl)
  | delivered | redelivered | released =>
    cases htask
    exact (hheld _ rfl).keep rfl rfl rfl rfl rfl
  | acked | crashed | buried => cases htask
  | @retried claimed _ delay error now same _ counted =>
    cases htask
    have hretry := (hheld claimed rfl).retry same counted delay error (now.after delay) now
    exact (hretry _).congr rfl rfl rfl

end Passage

/-- A record of a held task in an answer continues the submission. -/
lemma Transition.answer_continues (h : Transition b call (.ok (some record)) next)
    (hb : b.WellFormed) (hid : record.id = submitted.id)
    (hheld : ∀ task, (b.holding submitted.id).task? = some task →
      Continues b.limits.overflow task submitted since) :
    Continues b.limits.overflow record submitted (since ++ [⟨call, .ok (some record)⟩]) := by
  have hpassage := h.passage hb submitted.id
  have hnamed := h.not_silent hb
  rw [hid] at hnamed
  generalize b.holding submitted.id = before at hpassage hheld
  generalize next.holding submitted.id = after at hpassage
  cases hpassage with
  | aside silent | lapsed silent => exact absurd silent hnamed
  | delivered | redelivered => exact (hheld _ rfl).keep rfl rfl rfl rfl rfl
  | retried same _ counted => exact (hheld _ rfl).retry same counted _ _ _ _ _
  | buried same => exact (hheld _ rfl).bury same _ _ _

/-- A record that a call adds to those of finished tasks continues the submission of the task. -/
lemma Transition.finished_continues (h : Transition b call answer next) (hb : b.WellFormed)
    (hrecord : record ∈ next.finished) (hid : record.id = submitted.id)
    (hheld : ∀ task, (b.holding submitted.id).task? = some task →
      Continues overflow task submitted since) :
    record ∈ b.finished ∨ (next.holding submitted.id = .nowhere ∧
      Continues overflow record submitted (since ++ [⟨call, answer⟩])) := by
  rcases h.mem_finished hb hrecord with
    hold | ⟨task, report, now, hclaimed, hgone, hsame, ⟨rfl, rfl, rfl⟩ | ⟨error, rfl, rfl, rfl⟩⟩
  · exact .inl hold
  · rw [hid] at hclaimed hgone
    exact .inr ⟨hgone, (hheld task (by rw [hclaimed]; rfl)).keep rfl rfl rfl rfl rfl⟩
  · rw [hid] at hclaimed hgone
    exact .inr ⟨hgone, (hheld task (by rw [hclaimed]; rfl)).bury (hsame.trans hid) _ _ _⟩

/-! ## What a broker shows -/

/-- What a broker shows of a submission after some exchanges: as what it holds the task, and which
records of its id it keeps.  Some of these may be earlier than the submission. -/
structure Carries (earlier : List Task) (submitted : Task) (b : Broker) (since : History) :
    Prop where
  held : ∀ task, (b.holding submitted.id).task? = some task →
    Continues b.limits.overflow task submitted since
  kept : ∀ record ∈ b.finished, record.id = submitted.id →
    record ∈ earlier ∨
      b.holding submitted.id = .nowhere ∧ Continues b.limits.overflow record submitted since

/-- Until the id is accepted anew, a broker goes on to carry a submission through every call. -/
lemma Carries.step {earlier : List Task} (h : Carries earlier submitted b since)
    (hb : b.WellFormed) (htransition : Transition b call answer next)
    (hfresh : ∀ task, Exchange.enqueued? ⟨call, answer⟩ = some task → task.id ≠ submitted.id) :
    Carries earlier submitted next (since ++ [⟨call, answer⟩]) where
  held := by
    rw [htransition.limits_eq]
    exact (htransition.passage hb submitted.id).continues h.held hfresh
  kept record hrecord hid := by
    rw [htransition.limits_eq]
    rcases htransition.finished_continues hb hrecord hid h.held with hold | hnew
    · refine (h.kept record hold hid).imp id fun ⟨hnowhere, hcontinues⟩ => ?_
      have hpassage := htransition.passage hb submitted.id
      rw [hnowhere] at hpassage
      obtain ⟨hstays, hsilent⟩ := hpassage.of_nowhere hfresh
      exact ⟨hstays, hcontinues.silent hsilent rfl rfl rfl⟩
    · exact .inr hnew

/-- A broker carries what it has just accepted. -/
lemma carries_submitted {now : Instant} {result : Option Task} (hb : b.WellFormed)
    (h : Transition b (.enqueue submitted now) (.ok result) next) :
    Carries b.finished submitted next [] where
  held task htask := by
    have hpassage := h.passage hb submitted.id
    generalize b.holding submitted.id = before at hpassage
    generalize next.holding submitted.id = after at hpassage htask
    cases hpassage with
    | aside silent | lapsed silent => exact absurd rfl (silent.enqueued submitted rfl)
    | enqueued =>
      cases htask
      exact continues_nil rfl rfl rfl
  kept record hrecord _ := by
    rcases h.mem_finished hb hrecord with
      hold | ⟨task, report, now, -, -, -, ⟨hcall, -⟩ | ⟨error, hcall, -⟩⟩
    · exact .inl hold
    · cases hcall
    · cases hcall

lemma get_of_entry (hb : b.WellFormed) {entry : QueueEntry} (hentry : entry ∈ b.allEntries) :
    b.get entry.task.id = .ok entry.task := by
  have hindex := hb.index_iff.mpr ⟨entry, hentry, rfl, rfl⟩
  have hfind : (b.entries entry.task.queue).find? (fun other => other.task.id == entry.task.id) =
      some entry := by
    cases hfound : (b.entries entry.task.queue).find? fun other =>
        other.task.id == entry.task.id with
    | none =>
      rw [List.find?_eq_none] at hfound
      exact absurd (beq_self_eq_true _) (hfound entry (hb.mem_entries hentry))
    | some other =>
      have hmem := (mem_allEntries hb.queues_sorted).mpr ⟨_, List.mem_of_find?_eq_some hfound⟩
      have hsame := List.find?_some hfound
      rw [hb.entry_inj hmem hentry (by simpa using hsame)]
  have hqueued : b.queued? entry.task.id = some entry.task := by
    simp [queued?, hindex, hfind]
  simp [get, hb.lease_none hentry, hqueued]

/-- What a look-up shows of an id is the task that is held, or a record of a finished task if none
is held. -/
lemma get_cases (hb : b.WellFormed) (h : b.get id = .ok record) :
    (b.holding id).task? = some record ∨
      b.holding id = .nowhere ∧ record ∈ b.finished ∧ record.id = id := by
  rcases holding_cases hb id with ⟨lease, hget, hclaimed⟩ | ⟨entry, hentry, rfl, hqueued⟩ |
    ⟨hfree, hnowhere⟩
  · rw [get_of_lease hget] at h
    cases h
    exact .inl (by rw [hclaimed]; rfl)
  · rw [get_of_entry hb hentry] at h
    cases h
    exact .inl (by rw [hqueued]; rfl)
  · obtain ⟨hrecord, rfl⟩ := mem_records_of_get hb h
    rw [heldIds, List.mem_append, not_or] at hfree
    refine .inr ⟨hnowhere, ?_, rfl⟩
    rcases mem_records.mp hrecord with ⟨entry, hentry, rfl⟩ | ⟨item, hitem, rfl⟩ | hfinished
    · exact absurd (mem_queuedIds.mpr ⟨entry, hentry, rfl⟩) hfree.1
    · refine absurd ?_ hfree.2
      rw [← hb.lease_ids]
      exact List.mem_map_of_mem hitem
    · exact List.mem_append.mpr hfinished

/-! ## Runs -/

/-- What a broker shows of a submission while its clients go on: what each record of the task, in an
answer or afterwards, is. -/
structure Shows (overflow : Overflow) (earlier : List Task) (submitted : Task) (trace : Trace) :
    Prop where
  /-- A record in an answer, by a claim, a retry or a burial, continues the submission. -/
  answered : ∀ before exchange after record, trace.history = before ++ exchange :: after →
    exchange.answer = .ok (some record) → record.id = submitted.id →
      Continues overflow record submitted (before ++ [exchange])
  /-- So do the records of finished tasks, apart from the earlier ones. -/
  kept : ∀ record, record ∈ trace.broker.dead ∨ record ∈ trace.broker.completed →
    record.id = submitted.id →
      record ∈ earlier ∨ Continues overflow record submitted trace.history
  /-- So does what a look-up shows, unless the task is finished and an earlier record hides it. -/
  got : ∀ record, trace.broker.get submitted.id = .ok record →
    Continues overflow record submitted trace.history ∨
      trace.broker.holds submitted.id = false ∧ record ∈ earlier

/-- Whether no task of an id is accepted in a history. -/
def History.Unsubmitted (history : History) (id : String) : Prop :=
  ∀ task ∈ history.enqueued, task.id ≠ id

instance (history : History) (id : String) : Decidable (history.Unsubmitted id) :=
  inferInstanceAs (Decidable (∀ task ∈ history.enqueued, task.id ≠ id))

lemma History.Unsubmitted.of_concat {history : History}
    (h : History.Unsubmitted (history ++ [exchange]) id) :
    history.Unsubmitted id ∧ ∀ task, exchange.enqueued? = some task → task.id ≠ id := by
  unfold History.Unsubmitted History.enqueued at h ⊢
  rw [List.filterMap_append] at h
  refine ⟨fun task htask => h task (List.mem_append_left _ htask), fun task htask => ?_⟩
  exact h task (List.mem_append_right _ (by simp [htask]))

/-- A broker carries a submission until its id is accepted anew, and each answer until then
continues it. -/
lemma carries_onward {earlier : List Task} (hb : b.WellFormed)
    (hstart : Carries earlier submitted b []) (calls : List Call) :
    (Trace.onward b calls).broker.WellFormed ∧
      (Trace.onward b calls).broker.limits = b.limits ∧
      ((Trace.onward b calls).history.Unsubmitted submitted.id →
        Carries earlier submitted (Trace.onward b calls).broker (Trace.onward b calls).history ∧
        ∀ before exchange after record,
          (Trace.onward b calls).history = before ++ exchange :: after →
          exchange.answer = .ok (some record) → record.id = submitted.id →
            Continues b.limits.overflow record submitted (before ++ [exchange])) := by
  refine Trace.onward_induction (motive := fun trace => trace.broker.limits = b.limits ∧
    (trace.history.Unsubmitted submitted.id →
      Carries earlier submitted trace.broker trace.history ∧
      ∀ before exchange after record, trace.history = before ++ exchange :: after →
        exchange.answer = .ok (some record) → record.id = submitted.id →
          Continues b.limits.overflow record submitted (before ++ [exchange]))) hb ?_ ?_ calls
  · refine ⟨rfl, fun _ => ⟨hstart, fun before exchange after record h => ?_⟩⟩
    simp at h
  · rintro trace call hwell ⟨hlimits, ih⟩
    have htransition := trace.transition call
    refine ⟨htransition.limits_eq.trans hlimits, fun hunsubmitted => ?_⟩
    obtain ⟨hbefore, hfresh⟩ := hunsubmitted.of_concat
    obtain ⟨hcarries, hanswers⟩ := ih hbefore
    refine ⟨hcarries.step hwell htransition hfresh, ?_⟩
    intro before exchange after record hcut hanswer hid
    rcases List.eq_nil_or_concat' after with rfl | ⟨after, last, rfl⟩
    · obtain ⟨rfl, hlast⟩ := List.append_inj' hcut rfl
      cases hlast
      have hserved : (trace.broker.serve call).1 = .ok (some record) := hanswer
      rw [hserved] at htransition ⊢
      rw [← hlimits]
      exact htransition.answer_continues hwell hid hcarries.held
    · rw [← List.cons_append, ← List.append_assoc] at hcut
      exact hanswers before exchange after record (List.append_inj' hcut rfl).1 hanswer hid

/-! ## Reports that agree -/

/-- The call with another envelope in the place of the one that it reports on. -/
def Call.withReport (call : Call) (report : Task) : Call :=
  match call with
  | .enqueue task now => .enqueue task now
  | .claim order weights words now => .claim order weights words now
  | .ack _ now => .ack report now
  | .retry _ delay error now => .retry report delay error now
  | .deadLetter _ error now => .deadLetter report error now
  | .release _ now => .release report now

/-- Whether two calls are the same but for the envelope that they report on, and these two agree in
the id and the token. -/
inductive Call.Alike : Call → Call → Prop
  | refl (call : Call) : Alike call call
  | report {call : Call} {report other : Task} (isReport : call.report? = some report)
      (id : other.id = report.id) (lease : other.lease = report.lease) :
      Alike call (call.withReport other)

lemma takeLease_congr {report other : Task} (hid : other.id = report.id)
    (hlease : other.lease = report.lease) : b.takeLease other = b.takeLease report := by
  simp only [takeLease, hid, hlease]

/-- A broker serves calls that are alike alike. -/
lemma serve_alike {other : Call} (h : call.Alike other) : b.serve other = b.serve call := by
  cases h with
  | refl => rfl
  | report isReport hid hlease =>
    have htake := takeLease_congr (b := b) hid hlease
    cases call with
    | enqueue | claim => rfl
    | ack =>
      cases isReport
      simp only [Call.withReport, serve, ack, htake]
    | retry =>
      cases isReport
      simp only [Call.withReport, serve, retry, htake]
    | deadLetter =>
      cases isReport
      simp only [Call.withReport, serve, deadLetter, htake]
    | release =>
      cases isReport
      simp only [Call.withReport, serve, release, htake]

lemma onward_alike {calls others : List Call} (h : List.Forall₂ Call.Alike calls others)
    (b : Broker) :
    (Trace.onward b others).broker = (Trace.onward b calls).broker ∧
      (Trace.onward b others).history.map (·.answer) =
        (Trace.onward b calls).history.map (·.answer) := by
  induction h generalizing b with
  | nil => exact ⟨rfl, rfl⟩
  | cons halike _ ih =>
    rw [Trace.onward_cons, Trace.onward_cons, serve_alike halike]
    obtain ⟨hbroker, hanswers⟩ := ih (b.serve _).2
    exact ⟨hbroker, congrArg (List.cons _) hanswers⟩

/-! ## Envelopes are kept -/

/-- What it means that a broker keeps the envelopes that are submitted in a run, and that reporters
cannot alter them. -/
structure KeepsEnvelopes (limits : BrokerLimits) (calls : List Call) : Prop where
  /-- From an accepted submission on, until its id is accepted anew, the broker shows the submission
  with the retries and errors that were reported since. -/
  shown : ∀ first submitted now rest, calls = first ++ .enqueue submitted now :: rest →
    ((Trace.run limits first).broker.serve (.enqueue submitted now)).1 = .ok none →
    (Trace.onward ((Trace.run limits first).broker.serve (.enqueue submitted now)).2
      rest).history.Unsubmitted submitted.id →
    Shows limits.overflow (Trace.run limits first).broker.finished submitted
      (Trace.onward ((Trace.run limits first).broker.serve (.enqueue submitted now)).2 rest)
  /-- Other envelopes with the same ids and tokens in the reports change neither an answer nor the
  broker in the end. -/
  alike : ∀ others, List.Forall₂ Call.Alike calls others →
    (Trace.run limits others).broker = (Trace.run limits calls).broker ∧
      (Trace.run limits others).history.map (·.answer) =
        (Trace.run limits calls).history.map (·.answer)

lemma shows_of_carries {earlier : List Task} {trace : Trace} (hb : trace.broker.WellFormed)
    (h : Carries earlier submitted trace.broker trace.history)
    (hanswers : ∀ before exchange after record, trace.history = before ++ exchange :: after →
      exchange.answer = .ok (some record) → record.id = submitted.id →
        Continues trace.broker.limits.overflow record submitted (before ++ [exchange])) :
    Shows trace.broker.limits.overflow earlier submitted trace where
  answered := hanswers
  kept record hrecord hid :=
    (h.kept record (List.mem_append.mpr hrecord) hid).imp id And.right
  got record hrecord := by
    rcases get_cases hb hrecord with hheld | ⟨hnowhere, hfinished, hid⟩
    · exact .inl (h.held record hheld)
    · rcases h.kept record hfinished hid with hearlier | ⟨-, hcontinues⟩
      · refine .inr ⟨?_, hearlier⟩
        rw [Bool.eq_false_iff, Ne, hb.holds_iff]
        exact not_held_of_nowhere hb hnowhere
      · exact .inl hcontinues

/-- **Envelopes are kept.**  In every run, what a broker shows of a submission is its envelope, with
the retries and errors that accepted reports have left; and of a report only the id and the token
matter. -/
theorem envelopes_kept (limits : BrokerLimits) (calls : List Call) :
    KeepsEnvelopes limits calls where
  shown := by
    rintro first submitted now rest - haccepted hunsubmitted
    have hb := Trace.run_wellFormed limits first
    have htransition := serve_transition (Trace.run limits first).broker (.enqueue submitted now)
    rw [haccepted] at htransition
    obtain ⟨hwell, hlimits, hrest⟩ := carries_onward (htransition.wellFormed hb)
      (carries_submitted hb htransition) rest
    obtain ⟨hcarries, hanswers⟩ := hrest hunsubmitted
    have hoverflow := congrArg BrokerLimits.overflow
      (hlimits.trans (htransition.limits_eq.trans (Trace.run_limits limits first)))
    rw [← hlimits] at hanswers
    rw [← hoverflow]
    exact shows_of_carries hwell hcarries hanswers
  alike others halike := onward_alike halike (empty limits)

/-! ### A letter that is lost and written again -/

/-- A letter with a text. -/
def letterSaying (text : List UInt8) : Task := .create "a" "letter" text 0 .epoch

/-- A letter is submitted, claimed and lost for good. -/
def lostCalls : List Call :=
  [.enqueue (letterSaying [1]) .epoch, .claim .listed (.single "default") [] .epoch,
   .deadLetter { letterSaying [1] with lease := some 1 } "lost" .epoch]

/-- The letter that was written again is claimed and sent. -/
def sentCalls : List Call :=
  [.claim .listed (.single "default") [] .epoch,
   .ack { letterSaying [2] with lease := some 2 } .epoch]

/-- The broker once the letter is lost. -/
def lostBroker : Broker := (Trace.run ⟨1, Duration.ofSeconds 30, 1, 1, .crashes⟩ lostCalls).broker

/-- The letter that was lost hides the one that was sent. -/
theorem older_letter_shown :
    (lostBroker.serve (.enqueue (letterSaying [2]) .epoch)).1 = .ok none ∧
    (Trace.onward (lostBroker.serve (.enqueue (letterSaying [2]) .epoch)).2
      sentCalls).history.Unsubmitted "a" ∧
    (Trace.onward (lostBroker.serve (.enqueue (letterSaying [2]) .epoch)).2
      sentCalls).broker.completed.map (·.payload) = [[2]] ∧
    ((Trace.onward (lostBroker.serve (.enqueue (letterSaying [2]) .epoch)).2
      sentCalls).broker.get "a").toOption.map (·.payload) = some [1] :=
  ⟨rfl, by decide +kernel, by decide +kernel, by decide +kernel⟩

end Broker
end WorkQueue
