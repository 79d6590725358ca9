import WorkQueue.Proofs.Accounts.Visits
import WorkQueue.Proofs.Broker.Envelope
import WorkQueue.Proofs.Fleet.Duty
import WorkQueue.Proofs.Site
import WorkQueue.Proofs.Verification.Handler
import WorkQueue.Proofs.Verification.Payload

/-!
# Executions of verification tasks

An execution of a verification task begins with a claim and ends with a report, and it is the only
one that reports under its claim.  In between the handler runs at a site where the account of the
task is known.  Others go on there as they like: they sign up, follow links, and claim and submit
tasks.

Two things are kept in the meantime.  The claim lasts, since it has not lapsed (`lease_onward`), and
so the report is accepted.  The account stays in the store, so that no answer can turn the handler
away: of the six ways in which an attempt can go only the one is left in which a message is sent
(`announced_of_serves`).  That the handler reads the name which the submission has written is
`Payload.decode_encode`.

The main statement is `Execution.succeeds`.
-/

namespace WorkQueue
namespace Verification

open Broker Procedure Site

variable {baseUrl : String} {task : Task} {site : Site}

/-- An execution of a task that was submitted at a site: a worker claims the task, runs the handler
of verification tasks to its end, and comes to report before the claim lapses.  There may have been
others before it. -/
structure Execution (baseUrl : String) (task : Task) (site : Site) where
  /-- What is done before the claim. -/
  before : List Act
  claimed : Site
  waits : site.LeadsTo before claimed
  /-- No other task was submitted under its id. -/
  alone : (Trace.onward site.broker (calls before)).history.Unsubmitted task.id
  order : ReturnOrder
  weights : QueueWeights
  words : List UInt32
  delivered : Task
  claims : (claimed.broker.serve (.claim order weights words claimed.now)).1 = .ok (some delivered)
  same : delivered.id = task.id
  log : List Answered
  result : Except HandlerError Unit
  /-- The handler runs, and its requests are answered truthfully. -/
  ends : Ends (handler baseUrl (Delivery.ofTask delivered) delivered) log result
  /-- What is done meanwhile. -/
  during : List Act
  handled : Site
  serves : (claimed.apply (.broker (.claim order weights words claimed.now))).Serves log during
    handled
  /-- It is not told to stop. -/
  uncancelled : ⟨.cancelled, true⟩ ∉ log
  /-- What is done between the end of the handler and the report. -/
  after : List Act
  reporting : Site
  reports : handled.LeadsTo after reporting
  /-- Nobody else reports under the claim. -/
  sole : ∀ call ∈ calls (during ++ after), ∀ report, call.report? = some report →
    report.id = delivered.id → report.lease ≠ delivered.lease
  inTime : reporting.now < claimed.now.after claimed.broker.limits.visibilityTimeout

/-! ## The claim lasts -/

/-- A claim stays as long as no other claim finds that it has lapsed, and nobody reports under
it. -/
lemma lease_onward {b : Broker} {lease : Lease} {id : String} {called : List Call}
    (hb : b.WellFormed) (hget : Table.get? id b.leases = some lease)
    (htime : ∀ call ∈ called, call.reading < lease.expiresAt)
    (hsole : ∀ call ∈ called, ∀ report, call.report? = some report → report.id = id →
      report.lease ≠ some lease.token) :
    Table.get? id (Trace.onward b called).broker.leases = some lease := by
  induction called generalizing b with
  | nil => exact hget
  | cons call rest ih =>
    have htransition := serve_transition b call
    rw [Trace.onward_cons]
    refine ih (htransition.wellFormed hb) ?_
      (fun other hother => htime other (List.mem_cons_of_mem _ hother))
      (fun other hother => hsole other (List.mem_cons_of_mem _ hother))
    refine (htransition.get?_leases hb).mpr (.inl ⟨hget, ?_⟩)
    rintro (⟨report, hreported, htoken⟩ | ⟨order, weights, words, now, hcall, hle⟩)
    · -- A report that is accepted under the token is on the task of the claim.
      obtain ⟨hreport, owned, howns⟩ := htransition.owns_of_spent hreported
      have hsame : owned.token = lease.token :=
        Option.some.inj (howns.2.symm.trans htoken)
      exact hsole call List.mem_cons_self report hreport (hb.token_inj howns.1 hget hsame) htoken
    · have hlate := htime call List.mem_cons_self
      have hcall' : call = .claim order weights words now := hcall
      rw [hcall'] at hlate
      exact absurd hle (Int.not_le.mpr hlate)

/-! ## The handler at a site -/

section Handler

variable {later : Site} {acts : List Act} {owner user : User} {record : VerifyEmail}
  {secretCode : String} {answer : Except StoreError VerifyEmail} {log rest : List Answered}
  {result : Except HandlerError Unit}

/-- What is so after the first exchanges of an attempt: the account is the one that the task names,
there is a new record in the store, and the rest of the exchanges is still to come. -/
structure Opened (owner user : User) (record : VerifyEmail) (rest : List Answered)
    (acts : List Act) (later : Site) : Prop where
  same : ∃ verified, user = { owner with isEmailVerified := verified }
  presentable : Accounts.Presentable record
  owned : record.username = owner.username
  unused : record.isUsed = false
  served : ∃ (made : Site) (before further : List Act), made.Reachable ∧
    record ∈ made.store.records ∧ made.Serves rest further later ∧ acts = before ++ further

/-- Where the account is known, the first exchanges of an attempt find it and make a record. -/
lemma opened_of_serves (hsite : site.Reachable)
    (howner : Table.get? owner.username site.store.users = some owner)
    (h : site.Serves (opening owner.username user secretCode answer rest) acts later) :
    ∃ record, answer = .ok record ∧ Opened owner user record rest acts later := by
  simp only [opening, serves_cons_iff] at h
  obtain ⟨first, looked, _, hfirst, hfound, ⟨second, drawn, _, hsecond, hdrawn, ⟨third, middle,
    further, hthird, hanswer, hrest, rfl⟩, rfl⟩, rfl⟩ := h
  obtain ⟨verified, hlooked⟩ := (hfirst.extends hsite).users _ owner howner
  cases answers_getUser hlooked hfound
  -- The account is still there when the record is made.
  have hwhole : site.LeadsTo (first ++ second ++ third) middle :=
    (hfirst.trans hsecond).trans hthird
  have howned : Table.has owner.username middle.store.users = true :=
    (hwhole.extends hsite).has (by rw [Table.has, howner]; rfl)
  obtain ⟨record, next, hadded, hrecord, hmem⟩ := answers_createVerifyEmail howned hanswer
  obtain ⟨expiredAt, -, rfl, -⟩ := Store.addRecord?_some hadded
  have hid : 0 < (middle.store.records.length : Int) + 1 := by omega
  let request : Request := .createVerifyEmail ⟨owner.username, owner.email, secretCode⟩
  exact ⟨_, hrecord, {
    same := ⟨_, rfl⟩
    presentable := ⟨hid, hdrawn.1, hdrawn.2⟩
    owned := rfl
    unused := rfl
    served := ⟨_, first ++ second ++ third ++ requestActs middle.now request, further,
      (hsite.leadsTo hwhole).leadsTo (leadsTo_request middle request), hmem, hrest,
      by simp [requestActs, request]⟩ }⟩

/-- What an attempt has done that succeeds. -/
structure Announced (baseUrl : String) (task : Task) (owner : User) (log : List Answered)
    (acts : List Act) (later : Site) (user : User) (record : VerifyEmail) : Prop where
  made : Made task log user record
  accepted : accepted log = [message baseUrl user record]
  sent : message baseUrl user record ∈ later.mailer.sent
  same : ∃ verified, user = { owner with isEmailVerified := verified }
  presentable : Accounts.Presentable record
  owned : record.username = owner.username
  unused : record.isUsed = false
  stays : Store.uses record (storeCalls acts) = [] → record ∈ later.store.records

/-- Where the account is known, an attempt that nobody stops announces a new record to it. -/
lemma announced_of_serves {task : Task} (hsite : site.Reachable)
    (howner : Table.get? owner.username site.store.users = some owner)
    (hdecoded : Payload.decode task.payload = .ok ⟨owner.username⟩)
    (hattempt : Attempt baseUrl task log result) (hserves : site.Serves log acts later)
    (huncancelled : ⟨.cancelled, true⟩ ∉ log) :
    result = .ok () ∧ ∃ user record, Announced baseUrl task owner log acts later user record := by
  cases hattempt with
  | unreadable undecoded =>
    rw [hdecoded] at undecoded
    cases undecoded
  | @unknown payload error decoded =>
    rw [hdecoded] at decoded
    cases decoded
    obtain ⟨before, looked, rest, hbefore, hfound, -, -⟩ := serves_cons_iff.mp hserves
    obtain ⟨verified, hlooked⟩ := (hbefore.extends hsite).users _ owner howner
    cases answers_getUser hlooked hfound
  | unrecorded decoded =>
    rw [hdecoded] at decoded
    cases decoded
    obtain ⟨record, hanswer, -⟩ := opened_of_serves hsite howner hserves
    cases hanswer
  | stopped => exact absurd (by simp [opening]) huncancelled
  | unsent decoded =>
    rw [hdecoded] at decoded
    cases decoded
    obtain ⟨record, -, hopened⟩ := opened_of_serves hsite howner hserves
    obtain ⟨made, before, further, -, -, hrest, -⟩ := hopened.served
    simp only [serves_cons_iff] at hrest
    obtain ⟨-, -, -, -, -, ⟨-, last, -, -, hsent, -⟩, -⟩ := hrest
    cases hsent
  | @mailed payload user secretCode record decoded =>
    have hmade : Made task (opening payload.username user secretCode (.ok record)
        [⟨.cancelled, false⟩, ⟨.send (message baseUrl user record), .ok ()⟩]) user record :=
      ⟨payload, secretCode, decoded, rfl, rfl⟩
    rw [hdecoded] at decoded
    cases decoded
    obtain ⟨_, ⟨⟩, hopened⟩ := opened_of_serves hsite howner hserves
    obtain ⟨made, before, further, hreachable, hmem, hrest, rfl⟩ := hopened.served
    have hsent : message baseUrl user record ∈ later.mailer.sent := by
      simp only [serves_cons_iff, serves_nil_iff] at hrest
      obtain ⟨-, -, -, -, -, ⟨-, last, -, -, -, ⟨-, rfl⟩, -⟩, -⟩ := hrest
      exact List.mem_append_right _ (List.mem_singleton_self _)
    refine ⟨rfl, user, record, {
      made := hmade
      accepted := rfl
      sent := hsent
      same := hopened.same
      presentable := hopened.presentable
      owned := hopened.owned
      unused := hopened.unused
      stays := fun huses => ?_ }⟩
    refine Accounts.stays_of_unused hreachable hrest.leadsTo hmem ?_
    simp only [Store.uses, storeCalls, List.filterMap_append, List.append_eq_nil_iff] at huses
    exact huses.2

end Handler

/-! ## From the claim to the report -/

namespace Execution

variable (execution : Execution baseUrl task site)

/-- The site right after the claim. -/
def start : Site :=
  execution.claimed.apply
    (.broker (.claim execution.order execution.weights execution.words execution.claimed.now))

lemma reachable_claimed (hsite : site.Reachable) : execution.claimed.Reachable :=
  hsite.leadsTo execution.waits

lemma claimed_leadsTo_start :
    execution.claimed.LeadsTo
      [.broker (.claim execution.order execution.weights execution.words execution.claimed.now)]
      execution.start :=
  .act (by rintro time ⟨⟩; rfl) (.refl _)

lemma reachable_start (hsite : site.Reachable) : execution.start.Reachable :=
  (execution.reachable_claimed hsite).leadsTo execution.claimed_leadsTo_start

/-- The claim holds the envelope that it returned when the worker reports. -/
lemma owns (hsite : site.Reachable) :
    ∃ lease, execution.reporting.broker.Owns execution.delivered lease ∧
      lease.task = execution.delivered := by
  have hb := (execution.reachable_claimed hsite).wellFormed
  have htransition := serve_transition execution.claimed.broker
    (.claim execution.order execution.weights execution.words execution.claimed.now)
  rw [execution.claims] at htransition
  obtain ⟨lease, hget, htask, hexpires⟩ := htransition.lease_of_delivered rfl
  have hstart := htransition.wellFormed hb
  have htoken : execution.delivered.lease = some lease.token :=
    htask ▸ hstart.lease_token hget
  have hlater := execution.serves.leadsTo.trans execution.reports
  refine ⟨lease, ⟨?_, htoken⟩, htask⟩
  rw [hlater.broker_eq]
  refine lease_onward hstart hget (fun call hcall => ?_) fun call hcall report hreport hid => ?_
  · have hreading := (hlater.steady.2 call hcall).2
    exact Int.lt_of_le_of_lt hreading (hexpires ▸ execution.inTime)
  · rw [← htoken]
    exact execution.sole call hcall report hreport hid

/-- What the claim returns is the envelope that was submitted. -/
lemma envelope (hsite : site.Reachable) {earlier : List Task}
    (hcarries : Carries earlier task site.broker []) :
    execution.delivered.envelope = task.envelope := by
  obtain ⟨hwell, -, hrest⟩ := carries_onward hsite.wellFormed hcarries (calls execution.before)
  obtain ⟨hclaimed, -⟩ := hrest execution.alone
  rw [← execution.waits.broker_eq] at hwell hclaimed
  have htransition := serve_transition execution.claimed.broker
    (.claim execution.order execution.weights execution.words execution.claimed.now)
  rw [execution.claims] at htransition
  exact (htransition.answer_continues hwell execution.same hclaimed.held).envelope

/-- The report that a task is done is accepted. -/
lemma acknowledged (hsite : site.Reachable) :
    ∃ next, Report.complete.perform execution.reporting.broker execution.delivered
        execution.reporting.now =
          (.ok (execution.delivered.markCompleted execution.reporting.now), next) ∧
      next.holding execution.delivered.id = .nowhere := by
  obtain ⟨lease, howns, hcopy⟩ := execution.owns hsite
  have hcounts : Report.complete.Counts execution.delivered :=
    Report.counts_of_final (fun _ _ => Report.noConfusion) execution.delivered
  have hperform := Report.perform_of_owns howns hcopy hcounts execution.reporting.now
  obtain ⟨answer, hserve, -⟩ := Report.serve_of_perform hperform
  refine ⟨_, hperform, ?_⟩
  have hb := ((execution.reachable_start hsite).leadsTo
    (execution.serves.leadsTo.trans execution.reports)).wellFormed
  have hpassage := (Transition.of_serve hserve).passage hb execution.delivered.id
  rw [holding_of_lease howns.1] at hpassage
  generalize Broker.holding _ execution.delivered.id = after at hpassage ⊢
  cases hpassage with
  | aside silent | lapsed silent => exact absurd rfl (silent.spent execution.delivered rfl)
  | acked => rfl

/-- What it means that an execution succeeds for an account. -/
structure Succeeds (execution : Execution baseUrl task site) (user : User) : Prop where
  ok : execution.result = .ok ()
  /-- A worker of a pool that has the handler reports that the task is done. -/
  reported : ∀ (pool : Pool) (draw : Nat),
    pool.registry.resolve? taskKind = some (handler baseUrl) →
      pool.reportOn draw execution.delivered (.returned execution.result) = .complete
  /-- The report is accepted, and the task is finished then. -/
  acknowledged : ∃ next,
    Report.complete.perform execution.reporting.broker execution.delivered
      execution.reporting.now =
        (.ok (execution.delivered.markCompleted execution.reporting.now), next) ∧
    next.holding execution.delivered.id = .nowhere
  /-- So it is in a deployment: a worker whose handler has ended so reports in its next step that
  the task is done, and tells of it when the broker has filed the task. -/
  worked : ∀ (pool : Pool) (w : World) (number dueMs : Nat),
    w.broker = execution.reporting.broker → w.now = execution.reporting.now →
    w.cancelled = false → w.faults = [] →
    w.workers[number]? = some (.executing execution.delivered dueMs
      (.ended (.returned execution.result))) →
      World.Did pool number w
        [.calls .complete,
         .files (Report.complete.perform execution.reporting.broker execution.delivered
          execution.reporting.now).2,
         .tells (TaskEvent.ofTask (execution.delivered.markCompleted execution.reporting.now)
          .completed)] .ready
        (w.step pool (.worker number))
  /-- The execution sends one message.  It goes to the address of the account, and the link in it
  is that of the record which the execution has made. -/
  mailed : ∃ email account record, accepted execution.log = [email] ∧
    email ∈ execution.handled.mailer.sent ∧ Made execution.delivered execution.log account record ∧
    Announces baseUrl user record email ∧
    Accounts.Works record user execution.during execution.handled

/-- Every execution of a verification task succeeds if the account is in the store when the task is
submitted. -/
theorem succeeds (hsite : site.Reachable) {user : User} {verified : Bool}
    (huser : Table.get? user.username site.store.users =
      some { user with isEmailVerified := verified })
    (hkind : task.kind = taskKind) (hpayload : task.payload = Payload.encode ⟨user.username⟩)
    {earlier : List Task}
    (hcarries : Carries earlier task site.broker []) : execution.Succeeds user := by
  have henvelope := execution.envelope hsite hcarries
  have hdelivered : execution.delivered.kind = taskKind :=
    (congrArg Envelope.kind henvelope).trans hkind
  have hencoded : execution.delivered.payload = Payload.encode ⟨user.username⟩ :=
    (congrArg Envelope.payload henvelope).trans hpayload
  have hdecoded : Payload.decode execution.delivered.payload = .ok ⟨user.username⟩ :=
    hencoded ▸ Payload.decode_encode _
  have hstart := execution.reachable_start hsite
  have hready : site.LeadsTo _ execution.start :=
    execution.waits.trans execution.claimed_leadsTo_start
  obtain ⟨owner, howner, hsame⟩ : ∃ owner : User,
      Table.get? owner.username execution.start.store.users = some owner ∧
      ∃ verified, owner = { user with isEmailVerified := verified } := by
    obtain ⟨since, howner⟩ := (hready.extends hsite).users _ _ huser
    exact ⟨{ user with isEmailVerified := verified || since }, howner, _, rfl⟩
  obtain ⟨_, rfl⟩ := hsame
  obtain ⟨hok, account, record, hannounced⟩ := announced_of_serves hstart howner hdecoded
    (attempt_of_ends execution.ends) execution.serves execution.uncancelled
  have hhandled := execution.serves.leadsTo
  obtain ⟨again, hlater⟩ := (hhandled.extends hstart).users _ _ howner
  have hworks : Accounts.Works record user execution.during execution.handled :=
    Accounts.works_of_stays (hstart.leadsTo hhandled) hannounced.presentable hannounced.unused
      (by rw [hannounced.owned]; exact hlater) hannounced.stays
  refine ⟨hok, fun pool draw hregistered => ?_, execution.acknowledged hsite,
    fun pool w number dueMs hbroker hnow hgoing hfaults hphase => ?_, _, account, record,
    hannounced.accepted, hannounced.sent, hannounced.made, ?_, hworks⟩
  · rw [Pool.reportOn, hdelivered, hregistered, hok]
    rfl
  · obtain ⟨lease, howns, hcopy⟩ := execution.owns hsite
    rw [← hbroker] at howns
    rw [hok] at hphase
    rw [← hbroker, ← hnow]
    exact World.did_stepWorker_of_done pool hphase hgoing hfaults howns hcopy
  · obtain ⟨_, rfl⟩ := hannounced.same
    exact announces_message baseUrl _ record

end Execution

end Verification
end WorkQueue
