import WorkQueue.Proofs.Accounts.Signup
import WorkQueue.Proofs.Submission

/-!
# How a signup ends

A signup writes twice, first to the store and then to the broker, and there is no transaction around
the two.  Either write can be refused, and a fault can strike either.  Still a signup ends in one of
three ways (`SignsUp`): the account is stored and its verification task waits in its queue; or
neither has happened; or the account is stored and there is no task.  Nothing else of the store and
of the broker changes, and there is no task without its account.

`signup_ends` says so of every state of the store and the broker and of every fault.
-/

namespace WorkQueue

open Broker World

namespace Store

variable {store next : Store} {params : NewUser} {user : User} {now : Instant}
  {error : StoreError}

/-- Whether the name or the address of a new account is taken. -/
def Taken (store : Store) (params : NewUser) : Prop :=
  Table.has params.username store.users = true ∨
    ∃ entry ∈ store.users, entry.2.email = params.email

/-- What a store does that takes an account in. -/
structure Joins (before after : Store) (params : NewUser) (user : User) : Prop where
  free : ¬ before.Taken params
  /-- The account is what was asked for, and it is not verified. -/
  made : user = ⟨params.username, params.fullName, params.email, false, user.createdAt⟩
  found : after.getUser params.username = .ok user
  /-- The other accounts are as they were. -/
  others : ∀ name, params.username ≠ name → after.getUser name = before.getUser name
  records : after.records = before.records
  lifetime : after.lifetime = before.lifetime

lemma joins_of_createUser (h : store.createUser params now = .ok (user, next)) :
    Joins store next params user := by
  obtain ⟨hname, hemail, rfl, rfl⟩ := createUser_ok h
  have hfree : ¬ store.Taken params := by
    rintro (htaken | ⟨entry, hentry, hsame⟩)
    · simp [Table.has, hname] at htaken
    · exact hemail entry hentry hsame
  refine ⟨hfree, rfl, ?_, fun name hother => ?_, rfl, rfl⟩
  · simp only [getUser, Table.get?_put, if_true]
  · simp only [getUser, Table.get?_put, if_neg hother]

/-- An account is refused for one reason alone, that its name or its address is taken. -/
lemma taken_of_createUser (h : store.createUser params now = .error error) :
    store.Taken params ∧ ∃ constraint, error = .uniqueViolation constraint := by
  simp only [createUser] at h
  split at h
  · next hname =>
    cases h
    exact ⟨.inl hname, _, rfl⟩
  · split at h
    · next hemail =>
      cases h
      obtain ⟨entry, hentry, hsame⟩ := List.any_eq_true.mp hemail
      exact ⟨.inr ⟨entry, hentry, by simpa using hsame⟩, _, rfl⟩
    · cases h

end Store

namespace Accounts

variable {w later final : World} {cancelled : Bool} {distributor : Distributor} {params : NewUser}
  {user : User} {task : Task} {outcome : Finish (Except AccountError User)}

/-! ## The three ways -/

/-- Whether an envelope is that of the verification task of an account, deferred by ten seconds from
a time between two moments. -/
structure Verifies (task : Task) (user : User) (earliest latest : Instant) : Prop where
  kind : task.kind = "task:send_verification_email"
  payload : Verification.Payload.decode task.payload = .ok ⟨user.username⟩
  queue : task.queue = "critical"
  state : task.state = .pending
  maxRetry : task.maxRetry = 10
  retryCount : task.retryCount = 0
  processAt : ∃ reading, earliest ≤ reading ∧ reading ≤ latest ∧
    task.processAt = some (reading.after (Duration.ofSeconds 10))

/-- How a signup can end. -/
inductive SignsUp (w : World) (params : NewUser) : Finish (Except AccountError User) → Prop
  /-- The account is stored, and its verification task waits in its queue. -/
  | welcomed {user : User} {task : Task} {final : World}
      (account : w.store.Joins final.store params user)
      (stored : Takes w.broker final.broker task) (envelope : Verifies task user w.now final.now) :
      SignsUp w params (.ok (.ok user), final)
  /-- The store has refused or failed, and nothing has changed. -/
  | refused {cause : StoreError} {final : World}
      (why : w.awaiting .createUser = .store cause ∨
        w.store.Taken params ∧ ∃ constraint, cause = .uniqueViolation constraint)
      (store : final.store = w.store) (broker : final.broker = w.broker) :
      SignsUp w params (.ok (.error (.store cause)), final)
  /-- The account is stored, but the broker has refused the task or failed, and is as it was. -/
  | stranded {user : User} {task : Task} {refusal : Refusal} {final : World}
      (account : w.store.Joins final.store params user)
      (why : Distributor.Rejects w task refusal) (broker : final.broker = w.broker) :
      SignsUp w params (.ok (.error (.distribute (.enqueue refusal))), final)
  /-- The caller crashes by a fault of the store, and nothing has changed. -/
  | crashedEarly {message : String} {final : World}
      (fault : w.awaiting .createUser = .crash message) (store : final.store = w.store)
      (broker : final.broker = w.broker) : SignsUp w params (.error message, final)
  /-- The caller crashes by a fault of the broker; the account is stored. -/
  | crashedLate {user : User} {message : String} {final : World}
      (account : w.store.Joins final.store params user)
      (fault : w.awaiting .enqueue = .crash message) (broker : final.broker = w.broker) :
      SignsUp w params (.error message, final)

/-! ## The two writes -/

/-- What becomes of a signup when its account is stored and its task was submitted. -/
def concluded (user : User) :
    Finish (Except QueueError Receipt) → Finish (Except AccountError User)
  | (.ok (.ok _), final) => (.ok (.ok user), final)
  | (.ok (.error error), final) => (.ok (.error (.distribute error)), final)
  | (.error message, final) => (.error message, final)

/-- What becomes of a signup when the store has answered. -/
def enrolled (distributor : Distributor) (cancelled : Bool) :
    Except StoreError User × World → Finish (Except AccountError User)
  | (.ok user, later) => concluded user
      (run cancelled (distributor.distribute ⟨user.username⟩ (verifyEmailOptions later.now)) later)
  | (.error cause, later) => (.ok (.error (.store cause)), later)

/-- What follows a submission is decided by how it ends. -/
lemma run_concluded (submission : Procedure (Except QueueError Receipt)) (user : User) (w : World) :
    run cancelled (do
      match ← submission with
      | .error error => return .error (.distribute error)
      | .ok _ => return .ok user) w =
    concluded user (run cancelled submission w) := by
  rw [run_bind]
  generalize run cancelled submission w = ended
  obtain ⟨_ | _ | _, final⟩ := ended <;> rfl

/-- A signup waits for the store, and then a fault strikes it or the store is asked. -/
lemma run_createUser (distributor : Distributor) (params : NewUser) (w : World) :
    run cancelled (createUser distributor params) w =
      match w.awaiting .createUser with
      | .crash message => (.error message, w.reach (.createUser params))
      | .store cause => (.ok (.error (.store cause)), w.reach (.createUser params))
      | _ => enrolled distributor cancelled
        ((w.reach (.createUser params)).perform cancelled (.createUser params)) := by
  unfold createUser
  change run cancelled (.ask (.createUser params) _) w = _
  rw [run_ask (.createUser params) nofun nofun nofun, failure_eq rfl]
  cases w.awaiting .createUser with
  | crash message => rfl
  | store cause => rfl
  | none | queue | mail =>
    simp only [attempt, Request.failed?]
    generalize (w.reach (.createUser params)).perform cancelled (.createUser params) = answer
    obtain ⟨_ | user, later⟩ := answer
    · rfl
    · exact (run_clock _ later).trans (run_concluded _ user later)

/-- The submission of a verification task sends the task. -/
lemma handed_distribute (halone : later.Alone) (hbroker : later.broker.WellFormed)
    (cancelled : Bool) (distributor : Distributor) (username : String) :
    Distributor.Handed later
      (verificationTask distributor username later.freshId.1 later.now later.now)
      (run cancelled (distributor.distribute ⟨username⟩ (verifyEmailOptions later.now)) later) :=
  Distributor.handed_submit halone hbroker cancelled (check_verification ⟨username⟩ later.now)

/-- When the account is stored, the end of the submission decides about that of the signup. -/
lemma signsUp_concluded (later : World) {id : String}
    {submitted : Finish (Except QueueError Receipt)}
    (hjoins : w.store.Joins later.store params user) (hbroker : later.broker = w.broker)
    (hawaiting : later.awaiting .enqueue = w.awaiting .enqueue) (hnow : w.now ≤ later.now)
    (hhanded : Distributor.Handed later
      (verificationTask distributor user.username id later.now later.now) submitted) :
    SignsUp w params (concluded user submitted) := by
  cases hhanded with
  | stored takes rest =>
    rw [← rest.store] at hjoins
    rw [hbroker] at takes
    refine .welcomed hjoins takes ?_
    exact ⟨rfl, Verification.Payload.decode_encode _, rfl, rfl, rfl, rfl, later.now, hnow,
      rest.now, rfl⟩
  | rejected why unchanged =>
    rw [← unchanged.store] at hjoins
    exact .stranded hjoins (why.congr hbroker hawaiting) (unchanged.broker.trans hbroker)
  | crashed fault unchanged =>
    rw [← unchanged.store] at hjoins
    exact .crashedLate hjoins (hawaiting ▸ fault) (unchanged.broker.trans hbroker)

/-- A store that is really asked takes the account in or refuses it. -/
lemma signsUp_enrolled (hbroker : w.broker.WellFormed)
    (hasked : Meanwhile (some .createUser) w later) (halone : later.Alone) :
    SignsUp w params
      (enrolled distributor cancelled (later.perform cancelled (.createUser params))) := by
  simp only [perform]
  cases hcreate : later.store.createUser params later.now with
  | error cause =>
    rw [hasked.store] at hcreate
    exact .refused (.inr (Store.taken_of_createUser hcreate)) hasked.store hasked.broker
  | ok created =>
    obtain ⟨user, store⟩ := created
    rw [hasked.store] at hcreate
    have hsound : later.broker.WellFormed := by rwa [hasked.broker]
    have halone' : Alone { later with store := store } := halone
    have hhanded := handed_distribute halone' hsound cancelled distributor user.username
    simp only [enrolled]
    exact signsUp_concluded { later with store := store } (Store.joins_of_createUser hcreate)
      hasked.broker (hasked.awaiting .enqueue (by decide)) hasked.now hhanded

/-- Signups end in one of the ways that are listed. -/
theorem signsUp_createUser (halone : w.Alone) (hbroker : w.broker.WellFormed) (cancelled : Bool)
    (distributor : Distributor) (params : NewUser) :
    SignsUp w params (run cancelled (createUser distributor params) w) := by
  have hasked : Meanwhile (some .createUser) w (w.reach (.createUser params)) := halone.reach rfl
  rw [run_createUser]
  cases hfault : w.awaiting .createUser with
  | crash message => exact .crashedEarly hfault hasked.store hasked.broker
  | store cause => exact .refused (.inl hfault) hasked.store hasked.broker
  | none | queue | mail => exact signsUp_enrolled hbroker hasked (hasked.alone halone)

/-! ## The law -/

/-- What it means that a signup ends well under every failure. -/
structure EndsWell (w : World) (params : NewUser) (outcome : Finish (Except AccountError User)) :
    Prop where
  ending : SignsUp w params outcome
  /-- If no fault awaits the store, it refuses the account if and only if it is taken. -/
  refused_iff : w.awaiting .createUser = .none →
    ((∃ cause, outcome.1 = .ok (.error (.store cause))) ↔ w.store.Taken params)
  /-- There is no new task without its account. -/
  companion : ∀ entry ∈ outcome.2.broker.allEntries, entry ∈ w.broker.allEntries ∨
    ∃ user, outcome.2.store.getUser user.username = .ok user ∧
      Verification.Payload.decode entry.task.payload = .ok ⟨user.username⟩

lemma SignsUp.refused_iff (h : SignsUp w params outcome) (hfault : w.awaiting .createUser = .none) :
    (∃ cause, outcome.1 = .ok (.error (.store cause))) ↔ w.store.Taken params := by
  cases h with
  | welcomed account | stranded account | crashedLate account =>
    exact ⟨by rintro ⟨_, ⟨⟩⟩, fun htaken => absurd htaken account.free⟩
  | refused why =>
    refine ⟨fun _ => ?_, fun _ => ⟨_, rfl⟩⟩
    rcases why with hstruck | ⟨htaken, -⟩
    · rw [hfault] at hstruck
      cases hstruck
    · exact htaken
  | crashedEarly fault =>
    rw [hfault] at fault
    cases fault

lemma SignsUp.companion (h : SignsUp w params outcome) {entry : QueueEntry}
    (hentry : entry ∈ outcome.2.broker.allEntries) : entry ∈ w.broker.allEntries ∨
      ∃ user, outcome.2.store.getUser user.username = .ok user ∧
        Verification.Payload.decode entry.task.payload = .ok ⟨user.username⟩ := by
  cases h with
  | @welcomed user task final account stored envelope =>
    rcases List.mem_cons.mp (stored.entries.mem_iff.mp hentry) with rfl | hold
    · have hname : user.username = params.username := by rw [account.made]
      exact .inr ⟨user, hname ▸ account.found, envelope.payload⟩
    · exact .inl hold
  | refused _ _ broker | stranded _ _ broker | crashedEarly _ _ broker | crashedLate _ _ broker =>
    exact .inl (broker ▸ hentry)

/-- **A signup ends in one of three ways.**  Whatever the store and the broker hold and whatever
faults await them, the account is stored and its task waits in its queue, or neither, or the account
is stored without a task; nobody is told otherwise, and nothing else has changed. -/
theorem signup_ends (halone : w.Alone) (hbroker : w.broker.WellFormed) (cancelled : Bool)
    (distributor : Distributor) (params : NewUser) :
    EndsWell w params (run cancelled (createUser distributor params) w) :=
  have hending := signsUp_createUser halone hbroker cancelled distributor params
  ⟨hending, hending.refused_iff, fun _ => hending.companion⟩

/-- A deployment in which the urgent queue is full and somebody has signed up, and where the store
will be late. -/
def crowdedDeployment : World :=
  (World.start 0 (Trace.run ⟨1, Duration.ofSeconds 30, 4, 4, .crashes⟩
    [.enqueue (verificationTask ⟨3⟩ "alice" "t1" .epoch .epoch) .epoch]).broker
    ⟨[("alice", aliceAccount)], [], 60000⟩
    ⟨"Post", "post@example.com", fun _ => true, []⟩).addFault .createUser ⟨5, .none⟩

/-- There a second signup ends well, too. -/
theorem crowded_signup_ends : crowdedDeployment.Alone ∧ crowdedDeployment.broker.WellFormed ∧
    EndsWell crowdedDeployment ⟨"bob", "Bob", "bob@example.com"⟩
      (run false (createUser ⟨3⟩ ⟨"bob", "Bob", "bob@example.com"⟩) crowdedDeployment) :=
  have halone : crowdedDeployment.Alone := .inl rfl
  have hbroker : crowdedDeployment.broker.WellFormed := Trace.run_wellFormed _ _
  ⟨halone, hbroker, signup_ends halone hbroker false ⟨3⟩ _⟩

end Accounts
end WorkQueue
