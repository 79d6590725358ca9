import WorkQueue.Proofs.Accounts.Store
import WorkQueue.Proofs.Broker.Readiness
import WorkQueue.Proofs.Procedure

/-!
# Sites

A site is a deployment as its clients see it: a clock, a broker, a store and a mailer.  Anybody may
call them at any time, and nothing is assumed about who does, but that each call reads the clock as
it is and that the clock never goes back (`LeadsTo`).

The log of a procedure says what was answered, and not by whom.  `Serves` says that it was this
site: each request was answered as the site was at that moment, with whatever others did in between
(`Answers`).  A procedure that ends with a log that the site has served has run there, without any
fault.
-/

namespace WorkQueue

open Broker Procedure

/-- A clock, a broker, a store and a mailer. -/
structure Site where
  /-- What the clock shows. -/
  now : Instant
  broker : Broker
  traffic : Store.Traffic
  mailer : Mailer

namespace Site

/-- A site where nothing was done yet. -/
def start (now : Instant) (limits : BrokerLimits) (lifetime : Int) (mailer : Mailer) : Site :=
  ⟨now, empty limits, ⟨.lasting lifetime, []⟩, mailer⟩

/-- The store of a site. -/
def store (site : Site) : Store := site.traffic.store

/-! ## What anybody does -/

/-- A call of the broker, of the store or of the mailer. -/
inductive Act where
  | broker (call : Broker.Call)
  | store (call : Store.Call)
  | send (email : OutgoingEmail)

namespace Act

/-- What the clock reads at an act, if it is looked at. -/
def reading? : Act → Option Instant
  | .broker call => some call.reading
  | .store call => call.reading?
  | .send _ => none

/-- The call of the broker that an act is. -/
def call? : Act → Option Broker.Call
  | .broker call => some call
  | _ => none

/-- The call of the store that an act is. -/
def storeCall? : Act → Option Store.Call
  | .store call => some call
  | _ => none

end Act

/-- The calls of the broker among some acts. -/
def calls (acts : List Act) : List Broker.Call := acts.filterMap (·.call?)

/-- The calls of the store among some acts. -/
def storeCalls (acts : List Act) : List Store.Call := acts.filterMap (·.storeCall?)

/-- The site after an act. -/
def apply (site : Site) : Act → Site
  | .broker call => { site with broker := (site.broker.serve call).2 }
  | .store call => { site with traffic := site.traffic.apply call }
  | .send email =>
    match site.mailer.send email with
    | .ok mailer => { site with mailer }
    | .error _ => site

/-- `site.LeadsTo acts later` says that the site becomes the later one by the acts of anybody, one
after the other, with a clock that goes on in between. -/
inductive LeadsTo : Site → List Act → Site → Prop
  | refl (site : Site) : LeadsTo site [] site
  | wait {site later : Site} {acts : List Act} {time : Instant} (le : site.now ≤ time)
      (rest : LeadsTo { site with now := time } acts later) : LeadsTo site acts later
  | act {site later : Site} {act : Act} {acts : List Act}
      (timely : ∀ time, act.reading? = some time → time = site.now)
      (rest : LeadsTo (site.apply act) acts later) : LeadsTo site (act :: acts) later

variable {site middle later : Site} {acts more : List Act} {act : Act}

@[simp] lemma apply_now (site : Site) (act : Act) : (site.apply act).now = site.now := by
  cases act with
  | broker | store => rfl
  | send email =>
    simp only [apply]
    split <;> rfl

@[simp] lemma foldl_apply_now (site : Site) (acts : List Act) :
    (acts.foldl apply site).now = site.now := by
  induction acts generalizing site with
  | nil => rfl
  | cons act acts ih => rw [List.foldl_cons, ih, apply_now]

lemma apply_broker (site : Site) (act : Act) :
    (site.apply act).broker = (Trace.onward site.broker act.call?.toList).broker := by
  cases act with
  | broker | store => rfl
  | send email =>
    simp only [apply]
    split <;> rfl

lemma apply_traffic (site : Site) (act : Act) :
    (site.apply act).traffic = site.traffic.onward act.storeCall?.toList := by
  cases act with
  | broker | store => rfl
  | send email =>
    simp only [apply]
    split <;> rfl

namespace LeadsTo

lemma trans (h : site.LeadsTo acts middle) (h' : middle.LeadsTo more later) :
    site.LeadsTo (acts ++ more) later := by
  induction h with
  | refl => exact h'
  | wait le _ ih => exact .wait le (ih h')
  | act timely _ ih => exact .act timely (ih h')

lemma now_le (h : site.LeadsTo acts later) : site.now ≤ later.now := by
  induction h with
  | refl => exact Instant.le_refl _
  | wait le _ ih => exact Instant.le_trans le ih
  | act _ _ ih => rwa [apply_now] at ih

/-- The broker of a site is called by nobody but those who act there. -/
lemma broker_eq (h : site.LeadsTo acts later) :
    later.broker = (Trace.onward site.broker (calls acts)).broker := by
  induction h with
  | refl => rfl
  | wait _ _ ih => exact ih
  | @act site later act acts _ _ ih =>
    rw [ih, apply_broker]
    cases act with
    | store | send => rfl
    | broker call => exact (congrArg Trace.broker (Trace.onward_cons _ call (calls acts))).symm

/-- Neither is the store. -/
lemma traffic_eq (h : site.LeadsTo acts later) :
    later.traffic = site.traffic.onward (storeCalls acts) := by
  induction h with
  | refl => rfl
  | wait _ _ ih => exact ih
  | @act site later act acts _ _ ih =>
    rw [ih, apply_traffic]
    cases act <;> rfl

/-- The clock reads at each act a time in between, and it does not go back from one to the next. -/
lemma steady (h : site.LeadsTo acts later) :
    Steady (calls acts) ∧
      ∀ call ∈ calls acts, site.now ≤ call.reading ∧ call.reading ≤ later.now := by
  induction h with
  | refl => exact ⟨List.Pairwise.nil, by simp [calls]⟩
  | wait le _ ih =>
    exact ⟨ih.1, fun call hcall => ⟨Instant.le_trans le (ih.2 call hcall).1, (ih.2 call hcall).2⟩⟩
  | @act site later act acts timely rest ih =>
    obtain ⟨hsteady, hbounds⟩ := ih
    rw [apply_now] at hbounds
    cases act with
    | store | send => exact ⟨hsteady, hbounds⟩
    | broker call =>
      have hnow : call.reading = site.now := timely _ rfl
      refine ⟨List.pairwise_cons.mpr ⟨fun other hother => ?_, hsteady⟩, fun other hother => ?_⟩
      · exact hnow ▸ (hbounds other hother).1
      · rcases List.mem_cons.mp hother with rfl | hother
        · have hlater := rest.now_le
          rw [apply_now] at hlater
          exact ⟨hnow ▸ Instant.le_refl _, hnow ▸ hlater⟩
        · exact hbounds other hother

end LeadsTo

/-! ## What can be reached -/

/-- Whether a site can come about. -/
def Reachable (site : Site) : Prop :=
  ∃ now limits lifetime mailer acts, (start now limits lifetime mailer).LeadsTo acts site

namespace Reachable

lemma leadsTo (h : site.Reachable) (hlater : site.LeadsTo acts later) : later.Reachable := by
  obtain ⟨now, limits, lifetime, mailer, before, hbefore⟩ := h
  exact ⟨now, limits, lifetime, mailer, before ++ acts, hbefore.trans hlater⟩

lemma wellFormed (h : site.Reachable) : site.broker.WellFormed := by
  obtain ⟨now, limits, lifetime, mailer, before, hbefore⟩ := h
  rw [hbefore.broker_eq]
  exact Trace.run_wellFormed limits (calls before)

/-- The store of a site is one that clients have come to. -/
lemma awaits_sound (h : site.Reachable) : site.traffic.Awaits ∧ site.store.Sound := by
  obtain ⟨now, limits, lifetime, mailer, before, hbefore⟩ := h
  rw [store, hbefore.traffic_eq]
  obtain ⟨hawaits, hsound, -⟩ := (Store.Traffic.awaits_lasting lifetime).onward
    (Store.sound_lasting lifetime) (storeCalls before)
  exact ⟨hawaits, hsound⟩

end Reachable

/-- A site that can come about loses nothing that is in its store. -/
lemma LeadsTo.extends (h : site.LeadsTo acts later) (hsite : site.Reachable) :
    later.store.Extends site.store := by
  obtain ⟨hawaits, hsound⟩ := hsite.awaits_sound
  rw [store, h.traffic_eq]
  exact (hawaits.onward hsound (storeCalls acts)).2.2

/-! ## What procedures are answered -/

/-- What a request does at a site.  A record is made at the moment at which it is added; accounts
stay, so that it does not matter how long before its own was looked up. -/
def requestActs (now : Instant) : Request → List Act
  | .createUser params => [.store (.createUser params now)]
  | .createVerifyEmail params => [.store (.createVerifyEmail params now)]
  | .verifyEmail id secretCode => [.store (.verifyEmail id secretCode now)]
  | .enqueue task => [.broker (.enqueue task now)]
  | .send email => [.send email]
  | _ => []

/-- Whether an answer is what the site has to say to a request.  A secret has the length that was
asked for and consists of letters and digits; ids, and whether a procedure is to stop, are left
open.  Whoever asks for a record and crashes is not answered. -/
def Answers (site : Site) : (request : Request) → request.Answer → Prop
  | .clock, time => time = site.now
  | .secret length, code => code.length = length ∧ ∀ c ∈ code.toList, c.isAlphanum = true
  | .getUser username, answer => answer = site.store.getUser username
  | .createUser params, answer => answer = (site.store.createUser params site.now).map (·.1)
  | .createVerifyEmail params, answer =>
    site.store.crashes params site.now = false ∧
      answer = (site.store.createVerifyEmail params site.now).map (·.1)
  | .verifyEmail id secretCode, answer =>
    answer = (site.store.verifyEmail id secretCode site.now).map (·.1)
  | .enqueue task, answer => answer = (site.broker.enqueue task site.now).map fun _ => ()
  | .send email, answer => answer = (site.mailer.send email).map fun _ => ()
  | _, _ => True

/-- `site.Serves log acts later` says that the requests of the log were answered at the site, one
after the other, and which acts, of its own and of others, have made the site the later one. -/
inductive Serves : Site → List Answered → List Act → Site → Prop
  | nil (site : Site) : Serves site [] [] site
  | cons {site middle later : Site} {item : Answered} {log : List Answered} {before rest : List Act}
      (others : site.LeadsTo before middle) (truthful : middle.Answers item.request item.answer)
      (served : Serves ((requestActs middle.now item.request).foldl apply middle) log rest later) :
      Serves site (item :: log) (before ++ requestActs middle.now item.request ++ rest) later

variable {log : List Answered}

lemma serves_nil_iff : site.Serves [] acts later ↔ acts = [] ∧ later = site := by
  constructor
  · rintro ⟨⟩
    exact ⟨rfl, rfl⟩
  · rintro ⟨rfl, rfl⟩
    exact .nil later

lemma serves_cons_iff {item : Answered} :
    site.Serves (item :: log) acts later ↔ ∃ before middle rest, site.LeadsTo before middle ∧
      middle.Answers item.request item.answer ∧
      ((requestActs middle.now item.request).foldl apply middle).Serves log rest later ∧
      acts = before ++ requestActs middle.now item.request ++ rest := by
  constructor
  · rintro (_ | ⟨others, truthful, served⟩)
    exact ⟨_, _, _, others, truthful, served, rfl⟩
  · rintro ⟨before, middle, rest, others, truthful, served, rfl⟩
    exact .cons others truthful served

/-- The acts of a request read the clock as it is. -/
lemma leadsTo_request (site : Site) (request : Request) :
    site.LeadsTo (requestActs site.now request)
      ((requestActs site.now request).foldl apply site) := by
  cases request with
  | createUser | createVerifyEmail | verifyEmail | enqueue =>
    exact .act (by rintro time ⟨⟩; rfl) (.refl _)
  | send => exact .act (by rintro time ⟨⟩) (.refl _)
  | _ => exact .refl _

lemma Serves.leadsTo (h : site.Serves log acts later) : site.LeadsTo acts later := by
  induction h with
  | nil => exact .refl _
  | cons others _ _ ih => exact (others.trans (leadsTo_request _ _)).trans ih

/-! ## What the store of a site answers -/

lemma answers_getUser {username : String} {user : User} {answer : Except StoreError User}
    (huser : Table.get? username site.store.users = some user)
    (h : site.Answers (.getUser username) answer) : answer = .ok user := by
  have hanswer : answer = site.store.getUser username := h
  rw [hanswer, Store.getUser, huser]

lemma answers_createUser {params : NewUser} {user : User}
    (h : site.Answers (.createUser params) (.ok user)) :
    user = ⟨params.username, params.fullName, params.email, false, site.now⟩ ∧
      Table.get? user.username (site.apply (.store (.createUser params site.now))).store.users =
        some user := by
  have hanswer : Except.ok user = (site.store.createUser params site.now).map (·.1) := h
  cases hcreate : site.store.createUser params site.now with
  | error error =>
    rw [hcreate] at hanswer
    cases hanswer
  | ok made =>
    rw [hcreate] at hanswer
    cases hanswer
    obtain ⟨-, -, huser, hnext⟩ := Store.createUser_ok hcreate
    refine ⟨huser, ?_⟩
    change Table.get? _ (site.traffic.settle (site.store.createUser _ _)).store.users = _
    rw [hcreate]
    change Table.get? _ made.2.users = _
    rw [hnext, Table.get?_put, if_pos rfl]

lemma answers_createVerifyEmail {params : NewVerifyEmail} {answer : Except StoreError VerifyEmail}
    (howned : Table.has params.username site.store.users = true)
    (h : site.Answers (.createVerifyEmail params) answer) :
    ∃ record next, site.store.addRecord? params site.now = some (record, next) ∧
      answer = .ok record ∧
      record ∈ (site.apply (.store (.createVerifyEmail params site.now))).store.records := by
  obtain ⟨hstands, hanswer⟩ := h
  rw [Store.crashes, howned, Bool.true_and] at hstands
  obtain ⟨⟨record, next⟩, hadded⟩ :=
    Option.isSome_iff_exists.mp (Option.isNone_eq_false_iff.mp hstands)
  have hcreate : site.store.createVerifyEmail params site.now = .ok (record, next) := by
    rw [Store.createVerifyEmail, if_pos howned, hadded]
  refine ⟨record, next, hadded, by rw [hanswer, hcreate]; rfl, ?_⟩
  change _ ∈ (site.traffic.settle (site.store.createVerifyEmail _ _)).store.records
  rw [hcreate]
  obtain ⟨-, -, -, hnext⟩ := Store.addRecord?_some hadded
  change record ∈ next.records
  rw [hnext]
  exact List.mem_append_right _ (List.mem_singleton_self _)

end Site
end WorkQueue
