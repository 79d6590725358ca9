import WorkQueue.Proofs.Verification.Execution

/-!
# From a signup to a verified account

A signup stores the account and submits a verification task (`log_of_createUser`), at any site that
can come about and in the midst of whatever others do there.  When it succeeds, the task waits in
the urgent queue under a time that is ten seconds ahead of what the clock has shown (`Accepted`).

From there on the parts of the way have been proved by themselves: a deferred task is not delivered
before its time, an execution of a verification task makes a record and mails its link
(`Verification.Execution.succeeds`), and the link of a record works once (`Works`).  The main
statement, `signup_leads_to_verification`, puts them together.  It does not say that the task is
claimed some day: there may be no worker.
-/

namespace WorkQueue
namespace Accounts

open Broker Procedure Site

variable {distributor : Distributor} {params : NewUser} {user : User} {site later : Site}
  {acts : List Act} {log : List Answered}

/-! ## What a signup asks for -/

/-- The verification task of an account: `reading` is the time from which its delay counts. -/
def verificationTask (distributor : Distributor) (username id : String) (reading made : Instant) :
    Task :=
  Task.withOptions id Verification.taskKind (Verification.Payload.encode ⟨username⟩)
    (verifyEmailOptions reading) distributor.defaultMaxRetry made

/-- The names of a verification task are in order, and its payload is that of the account. -/
lemma check_verification (payload : Verification.Payload) (reading : Instant) :
    Distributor.check Verification.taskKind (.document payload.toJson)
      (verifyEmailOptions reading) = .ok payload.encode := by
  have hkind : Text.isBlankText Verification.taskKind = false := by decide
  have hqueue : Text.isBlankText criticalQueue = false := by decide
  simp [Distributor.check, hkind, hqueue, verifyEmailOptions, TaskOptions.onQueue,
    TaskOptions.withMaxRetry, TaskOptions.delayedBy, TaskOptions.notBefore, Content.document,
    Except.mapError, Verification.Payload.encode]

/-- A submission that succeeds draws an id, looks at the clock, and puts the task into its queue. -/
lemma log_of_distribute {username : String} {reading : Instant} {receipt : Receipt}
    (h : Ends (distributor.distribute ⟨username⟩ (verifyEmailOptions reading)) log (.ok receipt)) :
    ∃ id made, log = [⟨.freshId, id⟩, ⟨.clock, made⟩,
      ⟨.enqueue (verificationTask distributor username id reading made), .ok ()⟩] := by
  simp only [Distributor.distribute, Distributor.submit, check_verification,
    Distributor.submitTask, ends_request_iff] at h
  obtain ⟨id, log, rfl, made, log, rfl, accepted, log, rfl, h⟩ := h
  cases accepted with
  | error error =>
    obtain ⟨-, h⟩ := ends_pure_iff.mp h
    cases h
  | ok =>
    obtain ⟨rfl, -⟩ := ends_pure_iff.mp h
    exact ⟨id, made, rfl⟩

/-- A signup that succeeds stores the account, and then it submits the verification task. -/
lemma log_of_createUser (h : Ends (createUser distributor params) log (.ok user)) :
    ∃ reading id made, log =
      [⟨.createUser params, .ok user⟩, ⟨.clock, reading⟩, ⟨.freshId, id⟩, ⟨.clock, made⟩,
       ⟨.enqueue (verificationTask distributor user.username id reading made), .ok ()⟩] := by
  simp only [createUser, ends_request_iff] at h
  obtain ⟨stored, log, rfl, h⟩ := h
  cases stored with
  | error error =>
    obtain ⟨-, h⟩ := ends_pure_iff.mp h
    cases h
  | ok stored =>
    obtain ⟨reading, log, rfl, hsubmit⟩ := ends_request_iff.mp h
    obtain ⟨first, receipt, rest, hfirst, hrest, rfl⟩ := ends_bind_iff.mp hsubmit
    cases receipt with
    | error error =>
      obtain ⟨-, h⟩ := ends_pure_iff.mp hrest
      cases h
    | ok receipt =>
      obtain ⟨rfl, hstored⟩ := ends_pure_iff.mp hrest
      cases hstored
      obtain ⟨id, made, rfl⟩ := log_of_distribute hfirst
      exact ⟨reading, id, made, rfl⟩

/-- Every such log is one of a signup that succeeds. -/
lemma createUser_ends (distributor : Distributor) (params : NewUser) (user : User)
    (reading made : Instant) (id : String) :
    Ends (createUser distributor params)
      [⟨.createUser params, .ok user⟩, ⟨.clock, reading⟩, ⟨.freshId, id⟩, ⟨.clock, made⟩,
       ⟨.enqueue (verificationTask distributor user.username id reading made), .ok ()⟩]
      (.ok user) := by
  refine ends_request_iff.mpr ⟨Except.ok user, _, rfl, ends_request_iff.mpr ⟨reading, _, rfl, ?_⟩⟩
  refine ends_bind_iff.mpr ⟨_, .ok (Receipt.ofTask
    (verificationTask distributor user.username id reading made)), [], ?_, .done _,
    (List.append_nil _).symm⟩
  simp only [Distributor.distribute, Distributor.submit, check_verification]
  exact .ask _ (.ask _ (.ask _ (.done _)))

/-! ## Signups -/

/-- A signup that succeeds, at a site. -/
structure Signup (distributor : Distributor) (params : NewUser) (site : Site) where
  user : User
  log : List Answered
  ends : Ends (createUser distributor params) log (.ok user)
  /-- What is done until the signup ends, by the submitter and by others. -/
  acts : List Act
  after : Site
  serves : site.Serves log acts after

/-- What is so right after a task was accepted. -/
structure Accepted (task : Task) (site : Site) : Prop where
  queued : site.broker.holding task.id = .queued (task.markPending site.now)
  deferred : site.broker.Deferred task.id task.eligibleAt
  carried : ∃ earlier, Carries earlier task site.broker []

lemma accepted_of_enqueue (hsite : site.Reachable) {task : Task}
    (h : site.Answers (.enqueue task) (.ok ())) :
    Accepted task (site.apply (.broker (.enqueue task site.now))) := by
  have hb := hsite.wellFormed
  have haccepted : Except.ok () = (site.broker.enqueue task site.now).map fun _ => () := h
  cases henqueue : site.broker.enqueue task site.now with
  | error error =>
    rw [henqueue] at haccepted
    cases haccepted
  | ok next =>
    have hserve : site.broker.serve (.enqueue task site.now) = (.ok none, next) := by
      rw [serve, henqueue]
      rfl
    have htransition := Transition.of_serve hserve
    have hbroker : (site.apply (.broker (.enqueue task site.now))).broker = next := by
      rw [apply, hserve]
    refine ⟨?_, ?_, site.broker.finished, ?_⟩
    · rw [hbroker, apply_now]
      have hpassage := htransition.passage hb task.id
      generalize site.broker.holding task.id = before at hpassage
      generalize next.holding task.id = after at hpassage ⊢
      cases hpassage with
      | aside silent | lapsed silent => exact absurd rfl (silent.enqueued task rfl)
      | enqueued => rfl
    · rw [hbroker]
      cases htransition
      exact ⟨_, (mem_push hb.queues_sorted).mpr (.inl rfl), rfl, Instant.le_refl _⟩
    · exact hbroker ▸ carries_submitted hb htransition

namespace Signup

variable (signup : Signup distributor params site)

/-- What a signup has done. -/
lemma outcome (hsite : site.Reachable) :
    ∃ reading id made, site.now ≤ reading ∧ reading ≤ signup.after.now ∧
      signup.user = ⟨params.username, params.fullName, params.email, false, signup.user.createdAt⟩ ∧
      submissions signup.log =
        [verificationTask distributor signup.user.username id reading made] ∧
      (∃ verified, Table.get? signup.user.username signup.after.store.users =
        some { signup.user with isEmailVerified := verified }) ∧
      Accepted (verificationTask distributor signup.user.username id reading made)
        signup.after := by
  obtain ⟨reading, id, made, hlog⟩ := log_of_createUser signup.ends
  have hserves := signup.serves
  simp only [hlog, serves_cons_iff, serves_nil_iff] at hserves
  obtain ⟨first, asked, _, hfirst, hstored, ⟨second, read, _, hsecond, hreading, ⟨third, drawn, _,
    hthird, -, ⟨fourth, dated, _, hfourth, -, ⟨fifth, last, _, hfifth, haccepted, ⟨-, hafter⟩, -⟩,
    -⟩, -⟩, -⟩, -⟩ := hserves
  obtain ⟨huser, hmem⟩ := answers_createUser hstored
  have hcreated : Reachable (asked.apply (.store (.createUser params asked.now))) :=
    (hsite.leadsTo hfirst).leadsTo (leadsTo_request asked (.createUser params))
  have hlater : read.LeadsTo (third ++ fourth ++ fifth) last := (hthird.trans hfourth).trans hfifth
  have hwhole := hsecond.trans hlater
  obtain ⟨verified, hkept⟩ := (hwhole.extends hcreated).users _ _ hmem
  have hread : reading = read.now := hreading
  have hearly : site.now ≤ reading := by
    have hnext := hsecond.now_le
    rw [foldl_apply_now] at hnext
    exact hread ▸ Instant.le_trans hfirst.now_le hnext
  refine ⟨reading, id, made, hearly, ?_, ?_, ?_, ?_, ?_⟩
  · rw [hafter, foldl_apply_now]
    exact hread ▸ hlater.now_le
  · rw [huser]
  · rw [hlog]
    rfl
  · rw [hafter]
    exact ⟨_, hkept⟩
  · rw [hafter]
    exact accepted_of_enqueue (hcreated.leadsTo hwhole) haccepted

end Signup

/-! ## From the signup to the account -/

/-- No claim returns a deferred task before its time. -/
lemma due_le_of_claim {id : String} {due : Instant} {order : ReturnOrder} {weights : QueueWeights}
    {words : List UInt32} {delivered : Task} (hsite : site.Reachable)
    (hdeferred : site.broker.Deferred id due) (hlater : site.LeadsTo acts later)
    (hclaim : (later.broker.serve (.claim order weights words later.now)).1 = .ok (some delivered))
    (hid : delivered.id = id) : due ≤ later.now := by
  have hwhole : site.LeadsTo (acts ++ [.broker (.claim order weights words later.now)])
      (later.apply (.broker (.claim order weights words later.now))) :=
    hlater.trans (.act (by rintro time ⟨⟩; rfl) (.refl _))
  have hsteady := hwhole.steady.1
  have hcalls : calls (acts ++ [.broker (.claim order weights words later.now)]) =
      calls acts ++ [.claim order weights words later.now] := by
    simp [calls, Act.call?]
  have hmem : (⟨.claim order weights words later.now, .ok (some delivered)⟩ : Exchange) ∈
      (Trace.onward site.broker
        (calls acts ++ [.claim order weights words later.now])).history := by
    rw [Trace.onward_concat, Trace.extend, ← hlater.broker_eq, hclaim]
    exact List.mem_append_right _ (List.mem_singleton_self _)
  rw [hcalls] at hsteady
  exact Trace.le_of_deferred hsite.wellFormed hdeferred hsteady hmem rfl hid

/-- Whether a task waits at a site for its execution, and is to verify an account. -/
structure Awaits (task : Task) (due : Instant) (user : User) (site : Site) : Prop where
  urgent : task.queue = criticalQueue
  queued : site.broker.holding task.id = .queued (task.markPending site.now)
  /-- No claim returns it before it is due. -/
  deferred : ∀ acts later order weights words delivered, site.LeadsTo acts later →
    (later.broker.serve (.claim order weights words later.now)).1 = .ok (some delivered) →
      delivered.id = task.id → due ≤ later.now
  executed : ∀ (baseUrl : String) (execution : Verification.Execution baseUrl task site),
    execution.Succeeds user

/-- What it means that a signup leads to a verified account. -/
structure LeadsToVerification (signup : Signup distributor params site) : Prop where
  account : signup.user =
    ⟨params.username, params.fullName, params.email, false, signup.user.createdAt⟩
  /-- It has submitted one task, which is due ten seconds after a time that the clock has shown
  meanwhile, and which is to verify the account. -/
  task : ∃ task reading, submissions signup.log = [task] ∧
    site.now ≤ reading ∧ reading ≤ signup.after.now ∧
    Awaits task (reading.after (Duration.ofSeconds 10)) signup.user signup.after

/-- **A signup leads to a verified account.**  Whatever is in the store and in the broker, and
whatever others do before, meanwhile and afterwards, the task of a signup that succeeds is not
delivered before its delay is over; and a worker that claims it then, and is neither stopped nor too
slow, finishes it and has mailed one message, to the address of the new account.  The link in it
verifies the account at its first use, and at no other. -/
theorem signup_leads_to_verification (hsite : site.Reachable)
    (signup : Signup distributor params site) : LeadsToVerification signup := by
  obtain ⟨reading, id, made, hearly, hlate, huser, hsubmitted, ⟨verified, hkept⟩, haccepted⟩ :=
    signup.outcome hsite
  have hafter := hsite.leadsTo signup.serves.leadsTo
  obtain ⟨earlier, hcarries⟩ := haccepted.carried
  refine ⟨huser, _, reading, hsubmitted, hearly, hlate, {
    urgent := rfl
    queued := haccepted.queued
    deferred := fun _ _ _ _ _ _ hlater hclaim hid =>
      due_le_of_claim hafter haccepted.deferred hlater hclaim hid
    executed := fun _ execution => execution.succeeds hafter hkept rfl rfl hcarries }⟩

/-! ### The first signup -/

/-- A site where nobody has signed up yet. -/
def firstSite : Site :=
  .start .epoch ⟨4, Duration.ofSeconds 30, 4, 4, .crashes⟩ 60000000000
    ⟨"Post", "post@example.com", fun _ => true, []⟩

/-- Somebody who signs up. -/
def alice : NewUser := ⟨"alice", "Alice", "alice@example.com"⟩

/-- The account, unverified. -/
def aliceAccount : User := ⟨"alice", "Alice", "alice@example.com", false, .epoch⟩

/-- Alice signs up alone. -/
def aliceSignup : Signup ⟨3⟩ alice firstSite where
  user := aliceAccount
  log := _
  ends := createUser_ends ⟨3⟩ alice aliceAccount .epoch .epoch "t1"
  acts := _
  after := _
  serves := .cons (.refl _) rfl (.cons (.refl _) rfl (.cons (.refl _) trivial (.cons (.refl _) rfl
    (.cons (.refl _) rfl (.nil _)))))

/-- The task of the signup. -/
def aliceTask : Task := verificationTask ⟨3⟩ "alice" "t1" .epoch .epoch

/-- The end of its delay. -/
def aliceDue : Instant := Instant.epoch.after (Duration.ofSeconds 10)

/-- The record that the execution makes. -/
def aliceRecord : VerifyEmail :=
  ⟨1, "alice", "alice@example.com", "abcdefghijklmnopqrstuvwxyz012345", false, aliceDue,
    .ofMillis 70000⟩

open Verification in
/-- What the handler asks for, and the answers. -/
def aliceLog : List Answered :=
  opening "alice" aliceAccount aliceRecord.secretCode (.ok aliceRecord)
    [⟨.cancelled, false⟩,
     ⟨.send (message "https://example.com" aliceAccount aliceRecord), .ok ()⟩]

open Verification in
/-- The task is executed as soon as it is due. -/
def aliceExecution : Verification.Execution "https://example.com" aliceTask aliceSignup.after where
  before := []
  claimed := { aliceSignup.after with now := aliceDue }
  waits := .wait (by decide) (.refl _)
  alone := by simp [calls, Trace.onward, History.Unsubmitted, History.enqueued]
  order := .listed
  weights := .single criticalQueue
  words := []
  delivered := { aliceTask with state := .running, lease := some 1, updatedAt := aliceDue }
  claims := rfl
  same := rfl
  log := aliceLog
  result := .ok ()
  ends := Attempt.ends (.mailed (Payload.decode_encode ⟨"alice"⟩)) _
  during := _
  handled := _
  serves := .cons (.refl _) rfl (.cons (.refl _) ⟨rfl, List.all_eq_true.mp (by decide)⟩
    (.cons (.refl _) ⟨rfl, rfl⟩ (.cons (.refl _) trivial (.cons (.refl _) rfl (.nil _)))))
  uncancelled := by
    rintro (_ | ⟨_, _ | ⟨_, _ | ⟨_, _ | ⟨_, _ | ⟨_, ⟨⟩⟩⟩⟩⟩⟩)
  after := []
  reporting := _
  reports := .refl _
  sole := by rintro call ⟨⟩
  inTime := by decide

/-- Alice is told of her link, and it works. -/
theorem alice_is_verified :
    firstSite.Reachable ∧ LeadsToVerification aliceSignup ∧
      aliceExecution.Succeeds aliceAccount := by
  have hsite : firstSite.Reachable := ⟨_, _, _, _, [], .refl _⟩
  have hsignup := signup_leads_to_verification hsite aliceSignup
  obtain ⟨task, reading, hsubmitted, -, -, hawaits⟩ := hsignup.task
  cases hsubmitted
  exact ⟨hsite, hsignup, hawaits.executed _ aliceExecution⟩

end Accounts
end WorkQueue
