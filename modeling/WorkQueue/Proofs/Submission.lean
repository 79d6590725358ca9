import WorkQueue.Proofs.Broker.Intake
import WorkQueue.Proofs.Simulation.Calls
import WorkQueue.Submission

/-!
# Submissions are acknowledged if and only if they are stored

The receipt of a task is made before the broker is asked, and the broker changes the envelope when
it takes the task in.  Still the submitter gets the receipt exactly if the broker has the task
afterwards, and the receipt tells what is stored.

How the submission of a prepared task can end is `Handed`: the task is stored, or the broker is as
it was and the submitter gets an error of one kind, whatever went wrong.  A submission by type and
payload checks the names and encodes the payload before the broker is asked, so it can also end
without asking (`Submitted`).  The law holds from every state of the broker and under every fault;
`submissions_acknowledged` puts it together.
-/

namespace WorkQueue

open Broker World

/-- What comes of a procedure that may crash, and the deployment afterwards. -/
abbrev World.Finish (α : Type) := Except String α × World

namespace Distributor

variable {w later final : World} {cancelled : Bool} {task : Task} {kind : String}
  {content : Content} {options : TaskOptions} {distributor : Distributor}
  {outcome : Finish (Except QueueError Receipt)}

/-! ## Prepared tasks -/

/-- Why a broker that is asked to store a task does not do it. -/
inductive Rejects (w : World) (task : Task) : Refusal → Prop
  /-- The broker refuses the task. -/
  | refused {refusal : Refusal} (why : w.broker.Refuses task refusal) : Rejects w task refusal
  /-- A fault looks like a refusal. -/
  | struck {refusal : Refusal} (fault : w.awaiting .enqueue = .queue (.enqueue refusal)) :
      Rejects w task refusal
  /-- A fault of another kind: the refusal is its wording. -/
  | failed {error : QueueError} (other : ∀ refusal, error ≠ .enqueue refusal)
      (fault : w.awaiting .enqueue = .queue error) : Rejects w task (.stated error.message)

/-- Why a task is not stored depends on the broker and the faults alone. -/
lemma Rejects.congr {refusal : Refusal} (h : Rejects later task refusal)
    (hbroker : later.broker = w.broker)
    (hawaiting : later.awaiting .enqueue = w.awaiting .enqueue) : Rejects w task refusal := by
  cases h with
  | refused why => exact .refused (hbroker ▸ why)
  | struck fault => exact .struck (hawaiting ▸ fault)
  | failed other fault => exact .failed other (hawaiting ▸ fault)

/-- How the submission of a prepared task can end. -/
inductive Handed (w : World) (task : Task) : Finish (Except QueueError Receipt) → Prop
  /-- The broker has the task, and nothing else has changed. -/
  | stored {final : World} (takes : Takes w.broker final.broker (task.markPending final.now))
      (rest : Meanwhile (some .enqueue) w { final with broker := w.broker }) :
      Handed w task (.ok (.ok ⟨task.id, task.queue, task.maxRetry, task.processAt⟩), final)
  /-- The broker is as it was, and the submitter is told why. -/
  | rejected {refusal : Refusal} {final : World} (why : Rejects w task refusal)
      (unchanged : Meanwhile (some .enqueue) w final) :
      Handed w task (.ok (.error (.enqueue refusal)), final)
  /-- The broker is as it was, and the submitter crashes by a fault. -/
  | crashed {message : String} {final : World} (fault : w.awaiting .enqueue = .crash message)
      (unchanged : Meanwhile (some .enqueue) w final) : Handed w task (.error message, final)

/-- What ends a submission ends one that began earlier, if no fault has struck since. -/
lemma Handed.since (h : Meanwhile none w later) (hhanded : Handed later task outcome) :
    Handed w task outcome := by
  have hearlier := h.widen (some .enqueue)
  have hawaiting := h.awaiting .enqueue nofun
  cases hhanded with
  | stored takes rest =>
    rw [h.broker] at takes rest
    exact .stored takes (hearlier.trans rest)
  | rejected why unchanged =>
    exact .rejected (why.congr h.broker hawaiting) (hearlier.trans unchanged)
  | crashed fault unchanged => exact .crashed (hawaiting ▸ fault) (hearlier.trans unchanged)

/-- What a fault that is an error of the queue is to the submitter. -/
lemma rejects_of_fault (task : Task) {error : QueueError}
    (h : w.awaiting .enqueue = .queue error) :
    ∃ reason, refusal error = .enqueue reason ∧ Rejects w task reason := by
  cases error with
  | enqueue reason => exact ⟨reason, rfl, .struck h⟩
  | _ => exact ⟨_, rfl, .failed nofun h⟩

/-- What comes of a submission when the broker has answered. -/
def answered (task : Task) :
    Except QueueError Unit × World → Finish (Except QueueError Receipt)
  | (.ok (), final) => (.ok (.ok (Receipt.ofTask task)), final)
  | (.error error, final) => (.ok (.error (refusal error)), final)

/-- A broker that is really asked stores the task or refuses it. -/
lemma handed_enqueue (hbroker : w.broker.WellFormed)
    (hasked : Meanwhile (some .enqueue) w later) :
    Handed w task (answered task (later.enqueue task)) := by
  unfold World.enqueue
  cases henqueue : later.broker.enqueue task later.now with
  | ok next =>
    rw [hasked.broker] at henqueue
    exact .stored (takes_of_enqueue hbroker henqueue)
      ⟨rfl, hasked.store, hasked.mailer, hasked.now, hasked.awaiting, hasked.alone⟩
  | error error =>
    rw [hasked.broker] at henqueue
    obtain ⟨reason, rfl, hrefuses⟩ := refusal_of_enqueue henqueue
    exact .rejected (.refused hrefuses) hasked

/-- A submission of a prepared task waits for its turn, and then a fault strikes it or the broker is
asked. -/
lemma run_submitTask (task : Task) (w : World) :
    run cancelled (submitTask task) w =
      match w.awaiting .enqueue with
      | .crash message => (.error message, w.reach (.enqueue task))
      | .queue error => (.ok (.error (refusal error)), w.reach (.enqueue task))
      | _ => answered task ((w.reach (.enqueue task)).enqueue task) := by
  unfold submitTask
  change run cancelled (.ask (.enqueue task) _) w = _
  rw [run_ask (.enqueue task) nofun nofun nofun, failure_eq rfl]
  cases w.awaiting .enqueue with
  | crash message => rfl
  | queue error => rfl
  | none | store | mail =>
    simp only [attempt, Request.failed?, perform]
    generalize (w.reach (.enqueue task)).enqueue task = answer
    obtain ⟨_ | _, final⟩ := answer <;> rfl

/-- **Law of prepared tasks.** -/
theorem handed_submitTask (halone : w.Alone) (hbroker : w.broker.WellFormed) (cancelled : Bool)
    (task : Task) : Handed w task (run cancelled (submitTask task) w) := by
  have hasked : Meanwhile (some .enqueue) w (w.reach (.enqueue task)) := halone.reach rfl
  rw [run_submitTask]
  cases hfault : w.awaiting .enqueue with
  | crash message => exact .crashed hfault hasked
  | queue error =>
    obtain ⟨reason, hreason, hrejects⟩ := rejects_of_fault task hfault
    simp only [hreason]
    exact .rejected hrejects hasked
  | none | store | mail => exact handed_enqueue hbroker hasked

/-! ## Payloads -/

/-- Whether the names of a submission are in order. -/
def Named (kind : String) (options : TaskOptions) : Prop :=
  Text.isBlankText kind = false ∧ ∀ queue, options.queue = some queue →
    Text.isBlankText queue = false

/-- How a submission by type and payload can end. -/
inductive Submitted (distributor : Distributor) (w : World) (kind : String) (content : Content)
    (options : TaskOptions) : Finish (Except QueueError Receipt) → Prop
  /-- The type is blank, and nothing was sent. -/
  | blankKind (blank : Text.isBlankText kind = true) :
      Submitted distributor w kind content options (.ok (.error (.enqueue .blankKind)), w)
  /-- The type is not blank, but the queue is, and nothing was sent. -/
  | blankQueue {queue : String} (named : Text.isBlankText kind = false)
      (chosen : options.queue = some queue) (blank : Text.isBlankText queue = true) :
      Submitted distributor w kind content options (.ok (.error (.enqueue .blankQueue)), w)
  /-- The names are in order, but the payload cannot be encoded, and nothing was sent. -/
  | unencodable {fault : Json.Fault} (named : Named kind options)
      (encoded : content.encode = .error fault) :
      Submitted distributor w kind content options (.ok (.error (.encoding fault)), w)
  /-- A task was sent, which is what was asked for. -/
  | sent {payload : List UInt8} {outcome : Finish (Except QueueError Receipt)}
      (named : Named kind options) (encoded : content.encode = .ok payload)
      (handed : Handed w (Task.withOptions w.freshId.1 kind payload options
        distributor.defaultMaxRetry w.now) outcome) :
      Submitted distributor w kind content options outcome

/-- Whether the names are in order is looked at before the payload. -/
lemma check_of_named (h : Named kind options) :
    check kind content options = content.encode.mapError .encoding := by
  have hqueue : (options.queue.map Text.isBlankText).getD false = false := by
    cases hchosen : options.queue with
    | none => rfl
    | some queue => exact h.2 queue hchosen
  simp [check, h.1, hqueue]

lemma check_of_blankQueue {queue : String} (hkind : Text.isBlankText kind = false)
    (hchosen : options.queue = some queue) (hblank : Text.isBlankText queue = true) :
    check kind content options = .error (.enqueue .blankQueue) := by
  simp [check, hkind, hchosen, hblank]

/-- A submission whose names are in order and whose payload can be encoded sends its task. -/
lemma handed_submit {payload : List UInt8} (halone : w.Alone) (hbroker : w.broker.WellFormed)
    (cancelled : Bool) (h : check kind content options = .ok payload) :
    Handed w (Task.withOptions w.freshId.1 kind payload options distributor.defaultMaxRetry w.now)
      (run cancelled (distributor.submit kind content options) w) := by
  have hfresh := w.meanwhile_freshId
  have hsound : w.freshId.2.broker.WellFormed := by rwa [hfresh.broker]
  have hhanded := handed_submitTask (hfresh.alone halone) hsound cancelled
    (Task.withOptions w.freshId.1 kind payload options distributor.defaultMaxRetry w.now)
  simp only [submit, h]
  rw [run_freshId, run_clock, now_freshId]
  exact hhanded.since hfresh

lemma run_submit_of_error {error : QueueError} (h : check kind content options = .error error)
    (w : World) :
    run cancelled (distributor.submit kind content options) w = (.ok (.error error), w) := by
  simp only [submit, h]
  rfl

/-- Submissions by type and payload end in one of the ways that are listed. -/
theorem submitted_submit (halone : w.Alone) (hbroker : w.broker.WellFormed) (cancelled : Bool)
    (distributor : Distributor) (kind : String) (content : Content) (options : TaskOptions) :
    Submitted distributor w kind content options
      (run cancelled (distributor.submit kind content options) w) := by
  by_cases hkind : Text.isBlankText kind = true
  · rw [run_submit_of_error (show check kind content options = _ from if_pos hkind)]
    exact .blankKind hkind
  · by_cases hnamed : Named kind options
    · have hcheck : check kind content options = _ := check_of_named hnamed
      cases hencode : content.encode with
      | error fault =>
        rw [hencode] at hcheck
        rw [run_submit_of_error hcheck]
        exact .unencodable hnamed hencode
      | ok payload =>
        rw [hencode] at hcheck
        exact .sent hnamed hencode (handed_submit halone hbroker cancelled hcheck)
    · have hkind := eq_false_of_ne_true hkind
      obtain ⟨queue, hchosen, hblank⟩ : ∃ queue, options.queue = some queue ∧
          Text.isBlankText queue = true := by
        simpa [Named, hkind] using hnamed
      rw [run_submit_of_error (check_of_blankQueue hkind hchosen hblank)]
      exact .blankQueue hkind hchosen hblank

/-! ## The law -/

/-- What it means that a submission is acknowledged if and only if its task is stored: `asked` says
what the task is to be. -/
structure AcknowledgedIfStored (w : World) (asked : Task → Prop)
    (outcome : Finish (Except QueueError Receipt)) : Prop where
  /-- A receipt means that the broker has one envelope more, which is what was asked for and waits
  in its queue, and the receipt repeats what is stored. -/
  stored : ∀ receipt, outcome.1 = .ok (.ok receipt) → ∃ task, asked task ∧ task.state = .pending ∧
    Takes w.broker outcome.2.broker task ∧
    receipt = ⟨task.id, task.queue, task.maxRetry, task.processAt⟩
  /-- There is a receipt if and only if the broker has changed. -/
  receipt_iff : (∃ receipt, outcome.1 = .ok (.ok receipt)) ↔ outcome.2.broker ≠ w.broker
  /-- Only a fault makes the submitter crash. -/
  crashed : ∀ message, outcome.1 = .error message → w.awaiting .enqueue = .crash message
  /-- The accounts and the mailer are as they were. -/
  store : outcome.2.store = w.store
  mailer : outcome.2.mailer = w.mailer

lemma Handed.acknowledged (h : Handed w task outcome) :
    AcknowledgedIfStored w (fun stored => stored = task.markPending outcome.2.now) outcome := by
  cases h with
  | stored takes rest =>
    refine ⟨?_, ⟨fun _ => takes.ne, fun _ => ⟨_, rfl⟩⟩, nofun, rest.store, rest.mailer⟩
    rintro _ ⟨⟩
    exact ⟨_, rfl, rfl, takes, rfl⟩
  | rejected _ unchanged =>
    exact ⟨by rintro _ ⟨⟩, ⟨by rintro ⟨_, ⟨⟩⟩, fun hne => absurd unchanged.broker hne⟩, nofun,
      unchanged.store, unchanged.mailer⟩
  | crashed fault unchanged =>
    refine ⟨by rintro _ ⟨⟩, ⟨by rintro ⟨_, ⟨⟩⟩, fun hne => absurd unchanged.broker hne⟩, ?_,
      unchanged.store, unchanged.mailer⟩
    rintro _ ⟨⟩
    exact fault

/-- What a submission by type and payload asks for. -/
structure Asks (distributor : Distributor) (kind : String) (content : Content)
    (options : TaskOptions) (task : Task) : Prop where
  kind : task.kind = kind
  payload : content.encode = .ok task.payload
  queue : task.queue = options.queue.getD "default"
  maxRetry : task.maxRetry = options.maxRetry.getD distributor.defaultMaxRetry
  processAt : task.processAt = options.processAt

lemma Submitted.acknowledged (h : Submitted distributor w kind content options outcome) :
    AcknowledgedIfStored w (Asks distributor kind content options) outcome := by
  cases h with
  | sent named encoded handed =>
    have hlaw := handed.acknowledged
    refine ⟨fun receipt hreceipt => ?_, hlaw.receipt_iff, hlaw.crashed, hlaw.store, hlaw.mailer⟩
    obtain ⟨task, rfl, hstored⟩ := hlaw.stored receipt hreceipt
    exact ⟨_, ⟨rfl, encoded, rfl, rfl, rfl⟩, hstored⟩
  | _ =>
    exact ⟨by rintro _ ⟨⟩, ⟨by rintro ⟨_, ⟨⟩⟩, fun hne => absurd rfl hne⟩, nofun, rfl, rfl⟩

/-- What it means that a deployment acknowledges a submission if and only if it stores the task. -/
structure AcknowledgesStored (w : World) (cancelled : Bool) : Prop where
  /-- Submissions by type and payload: how they end, and what it means that they do. -/
  submit : ∀ (distributor : Distributor) kind content options,
    Submitted distributor w kind content options
      (run cancelled (distributor.submit kind content options) w) ∧
    AcknowledgedIfStored w (Asks distributor kind content options)
      (run cancelled (distributor.submit kind content options) w)
  /-- A typed payload is submitted by its type. -/
  distribute : ∀ (distributor : Distributor) payload options,
    Submitted distributor w Verification.taskKind (.document payload.toJson) options
      (run cancelled (distributor.distribute payload options) w) ∧
    AcknowledgedIfStored w
      (Asks distributor Verification.taskKind (.document payload.toJson) options)
      (run cancelled (distributor.distribute payload options) w)
  /-- Prepared tasks. -/
  submitTask : ∀ task, Handed w task (run cancelled (submitTask task) w) ∧
    AcknowledgedIfStored w
      (fun stored =>
        stored = task.markPending (run cancelled (Distributor.submitTask task) w).2.now)
      (run cancelled (Distributor.submitTask task) w)

/-- **A submission is acknowledged if and only if its task is stored.**  Whatever the broker holds
and whatever fault awaits it, the submitter of a task learns that it was accepted exactly if the
broker has the task afterwards, as it was asked for, and nothing else of the broker has changed. -/
theorem submissions_acknowledged (halone : w.Alone) (hbroker : w.broker.WellFormed)
    (cancelled : Bool) : AcknowledgesStored w cancelled := by
  have hsubmit := submitted_submit halone hbroker cancelled
  have hhanded := handed_submitTask halone hbroker cancelled
  exact {
    submit := fun _ _ _ _ => ⟨hsubmit _ _ _ _, (hsubmit _ _ _ _).acknowledged⟩
    distribute := fun _ _ _ => ⟨hsubmit _ _ _ _, (hsubmit _ _ _ _).acknowledged⟩
    submitTask := fun _ => ⟨hhanded _, (hhanded _).acknowledged⟩ }

/-- A deployment with a task in a queue of one place, where the next call of the broker will be
late and fail. -/
def fullDeployment : World :=
  (World.start 0 (Trace.run ⟨1, Duration.ofSeconds 30, 4, 4, .crashes⟩
    [.enqueue (Task.create "t1" "task:x" [] 3 .epoch) .epoch]).broker (.empty 60000)
    ⟨"Post", "post@example.com", fun _ => true, []⟩).addFault .enqueue ⟨5, .queue .queueEmpty⟩

/-- There it holds as well. -/
theorem full_deployment_acknowledges : fullDeployment.Alone ∧ fullDeployment.broker.WellFormed ∧
    AcknowledgesStored fullDeployment false :=
  have halone : fullDeployment.Alone := .inl rfl
  have hbroker : fullDeployment.broker.WellFormed := Trace.run_wellFormed _ _
  ⟨halone, hbroker, submissions_acknowledged halone hbroker false⟩

end Distributor
end WorkQueue
