import WorkQueue.Proofs.Site
import WorkQueue.Simulation.Run

/-!
# Simulated deployments as sites

A simulated deployment has a clock, a broker, a store and a mailer, and it carries out requests on
these.  That is what a site does (`perform_site`, `perform_answers`): its answers are truthful, and
the secrets that it draws have the length that was asked for and consist of letters and digits.

So a procedure that a deployment without faults and without a pool runs to its end is served by the
site of the deployment (`run_serves`), and everything that holds of procedures that are served holds
of it.
-/

namespace WorkQueue

open Procedure Site

/-! ## Secrets -/

namespace Generator

lemma length_take (count : Nat) (g : Generator) : (g.take count).1.length = count := by
  induction count generalizing g with
  | zero => rfl
  | succ count ih => rw [take, List.length_cons, ih]

lemma isAlphanum_alphanumeric (word : UInt64) : (alphanumeric word).isAlphanum = true := by
  have hall : ∀ c ∈ alphanumerics, c.isAlphanum = true := List.all_eq_true.mp (by decide)
  rw [alphanumeric, List.getD_eq_getElem?_getD]
  cases hget : alphanumerics[word.toNat % 62]? with
  | none => rfl
  | some c => exact hall c (List.mem_of_getElem? hget)

lemma secret_spec (length : Nat) (g : Generator) :
    (g.secret length).1.length = length ∧
      ∀ c ∈ (g.secret length).1.toList, c.isAlphanum = true := by
  rw [secret]
  refine ⟨by simp [length_take], fun c hc => ?_⟩
  simp only [String.toList_ofList, List.mem_map] at hc
  obtain ⟨word, -, rfl⟩ := hc
  exact isAlphanum_alphanumeric word

end Generator

namespace World

variable {w final : World} {cancelled : Bool} {α : Type} {result : α}

/-- A deployment as a site. -/
def site (w : World) : Site := ⟨w.now, w.broker, ⟨w.store, []⟩, w.mailer⟩

/-! ## Requests -/

/-- A random id changes nothing but the generator and the list of such ids. -/
lemma freshId_eq (w : World) : ∃ id generator, w.freshId =
    (id, { w with generator := generator, freshIds := id :: w.freshIds }) := by
  delta freshId
  generalize w.generator.uuid = drawn
  exact ⟨drawn.1, drawn.2, rfl⟩

/-- A deployment answers truthfully, unless the caller crashes. -/
lemma perform_answers (w : World) (cancelled : Bool) (request : Request)
    (hstands : w.crash? request = none) :
    w.site.Answers request (w.perform cancelled request).1 := by
  cases request with
  | visit | freshId | cancelled | pause | compute | awaitCancel => trivial
  | clock | getUser => rfl
  | secret length => exact w.generator.secret_spec length
  | createUser params =>
    simp only [perform, Answers, site, Site.store]
    cases w.store.createUser params w.now <;> rfl
  | createVerifyEmail params =>
    have hkept : w.store.crashes params w.now = false := by simpa [crash?] using hstands
    refine ⟨hkept, ?_⟩
    simp only [perform, site, Site.store]
    cases w.store.createVerifyEmail params w.now <;> rfl
  | verifyEmail id secretCode =>
    simp only [perform, Answers, site, Site.store]
    cases w.store.verifyEmail id secretCode w.now <;> rfl
  | enqueue task =>
    simp only [perform, Answers, site, enqueue]
    cases w.broker.enqueue task w.now <;> rfl
  | send email =>
    simp only [perform, Answers, site]
    cases w.mailer.send email <;> rfl

/-- What a deployment does for a request is what its site does. -/
lemma perform_site (w : World) (cancelled : Bool) (request : Request) :
    (w.perform cancelled request).2.site =
      (requestActs w.site.now request).foldl apply w.site := by
  cases request with
  | createUser params =>
    simp only [perform, site, requestActs, List.foldl, apply, Store.Traffic.apply]
    cases w.store.createUser params w.now <;> rfl
  | createVerifyEmail params =>
    simp only [perform, site, requestActs, List.foldl, apply, Store.Traffic.apply]
    cases w.store.createVerifyEmail params w.now <;> rfl
  | verifyEmail id secretCode =>
    simp only [perform, site, requestActs, List.foldl, apply, Store.Traffic.apply]
    cases w.store.verifyEmail id secretCode w.now <;> rfl
  | enqueue task =>
    simp only [perform, site, enqueue, requestActs, List.foldl, apply, Broker.serve]
    cases w.broker.enqueue task w.now <;> rfl
  | send email =>
    simp only [perform, site, requestActs, List.foldl, apply]
    cases w.mailer.send email <;> rfl
  | freshId =>
    obtain ⟨id, generator, hfresh⟩ := w.freshId_eq
    change w.freshId.2.site = _
    rw [hfresh]
    rfl
  | secret => simp only [perform, site, now, requestActs, List.foldl]
  | visit | clock | cancelled | pause | compute | awaitCancel | getUser => rfl

/-! ## Procedures -/

/-- Whether nothing disturbs a deployment: no fault waits for a call, and there is no pool. -/
structure Calm (w : World) : Prop where
  faults : w.faults = []
  pool : w.pool = none

lemma Calm.perform (h : w.Calm) (cancelled : Bool) (request : Request) :
    (w.perform cancelled request).2.Calm := by
  cases request with
  | createUser params =>
    simp only [World.perform]
    split <;> exact ⟨h.faults, h.pool⟩
  | createVerifyEmail params =>
    simp only [World.perform]
    split <;> exact ⟨h.faults, h.pool⟩
  | verifyEmail id secretCode =>
    simp only [World.perform]
    split <;> exact ⟨h.faults, h.pool⟩
  | enqueue task =>
    simp only [World.perform, enqueue]
    cases w.broker.enqueue task w.now <;> exact ⟨h.faults, h.pool⟩
  | send email =>
    simp only [World.perform]
    split <;> exact ⟨h.faults, h.pool⟩
  | freshId =>
    obtain ⟨id, generator, hfresh⟩ := w.freshId_eq
    change w.freshId.2.Calm
    rw [hfresh]
    exact ⟨h.faults, h.pool⟩
  | visit | secret | clock | cancelled | pause | compute | awaitCancel | getUser =>
    exact ⟨h.faults, h.pool⟩

/-- Noting a request changes neither the site nor the calm. -/
lemma note_site (w : World) (request : Request) : (w.note request).site = w.site := by
  cases request with
  | enqueue task =>
    simp only [note, noteSubmission]
    split <;> rfl
  | _ => rfl

lemma Calm.note (h : w.Calm) (request : Request) : (w.note request).Calm := by
  cases request with
  | enqueue task =>
    simp only [World.note, noteSubmission]
    split <;> exact ⟨h.faults, h.pool⟩
  | _ => exact ⟨h.faults, h.pool⟩

/-- No fault strikes a request of a calm deployment. -/
lemma Calm.beginRequest (h : w.Calm) (request : Request) :
    w.beginRequest request = (.none, w.note request) := by
  simp only [World.beginRequest, takeFault, (h.note request).faults, List.find?_nil]
  split <;> rfl

/-- A request that no failure strikes is carried out, unless the caller crashes. -/
lemma attempt_none (w : World) (cancelled : Bool) (request : Request) :
    w.attempt cancelled .none request =
      match w.crash? request with
      | some message => (.error message, w)
      | none => (.ok (w.perform cancelled request).1, (w.perform cancelled request).2) := by
  have hnone : request.failed? .none = none := by cases request <;> rfl
  cases hcrash : w.crash? request with
  | some message => simp only [attempt, hnone, hcrash]
  | none => simp only [attempt, hnone, hcrash]

/-- Waiting makes a calm deployment older, and nothing else. -/
lemma Calm.wait (h : w.Calm) (millis : Nat) :
    (w.wait millis).Calm ∧ w.site.LeadsTo [] (w.wait millis).site := by
  rw [World.wait, h.pool]
  refine ⟨⟨h.faults, rfl⟩, .wait (Instant.ofMillis_le_ofMillis ?_) (.refl _)⟩
  push_cast
  omega

/-- A request of a calm deployment that asks for no time is carried out at once, unless the caller
crashes. -/
lemma Calm.run_ask (h : w.Calm) (cancelled : Bool) {request : Request}
    {next : request.Answer → Procedure α} (hpause : ∀ millis, request ≠ .pause millis)
    (hcompute : ∀ millis, request ≠ .compute millis) :
    run cancelled (.ask request next) w =
      match (w.note request).crash? request with
      | some message => (.error message, w.note request)
      | none => run cancelled (next ((w.note request).perform cancelled request).1)
          ((w.note request).perform cancelled request).2 := by
  cases request with
  | pause millis => exact absurd rfl (hpause millis)
  | compute millis => exact absurd rfl (hcompute millis)
  | awaitCancel => rfl
  | _ =>
    rw [run, h.beginRequest]
    · simp only [Fault.none, ↓reduceIte, attempt_none]
      cases (w.note _).crash? _ <;> rfl
    all_goals nofun

/-- **A procedure that a calm deployment runs is served by its site.** -/
theorem run_serves (h : w.Calm) {procedure : Procedure α}
    (hrun : run cancelled procedure w = (.ok result, final)) :
    ∃ log acts, Ends procedure log result ∧ w.site.Serves log acts final.site := by
  induction procedure generalizing w with
  | done given =>
    cases hrun
    exact ⟨[], [], .done _, .nil _⟩
  | crash message => cases hrun
  | ask request next ih =>
    by_cases htime : ∃ millis, request = .pause millis ∨ request = .compute millis
    · obtain ⟨millis, rfl | rfl⟩ := htime
      · obtain ⟨hcalm, hlater⟩ := h.wait millis
        obtain ⟨log, acts, hends, hserves⟩ := ih () hcalm hrun
        exact ⟨⟨.pause millis, ()⟩ :: log, acts, .ask _ hends, .cons hlater trivial hserves⟩
      · obtain ⟨hcalm, hlater⟩ := h.wait millis
        obtain ⟨log, acts, hends, hserves⟩ := ih () hcalm hrun
        exact ⟨⟨.compute millis, ()⟩ :: log, acts, .ask _ hends, .cons hlater trivial hserves⟩
    · simp only [not_exists, not_or, forall_and] at htime
      rw [h.run_ask cancelled htime.1 htime.2] at hrun
      split at hrun
      · cases hrun
      · next hstands =>
        obtain ⟨log, acts, hends, hserves⟩ :=
          ih _ ((h.note request).perform cancelled request) hrun
        rw [perform_site, note_site] at hserves
        have hanswer := (w.note request).perform_answers cancelled request hstands
        rw [note_site] at hanswer
        exact ⟨_, _, .ask _ hends, .cons (.refl _) hanswer hserves⟩

end World
end WorkQueue
