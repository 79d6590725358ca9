import WorkQueue.Proofs.Simulation.Site

/-!
# Requests under faults

When a deployment carries a request out, a fault may strike it: the request is late, its caller
crashes, or it is answered with an error and nothing is done.  What strikes the next call of an
operation is known beforehand (`awaiting`).  A request then goes in two parts: it waits for its turn
(`reach`), and is attempted (`run_ask`).

A deployment is `Alone` if nothing else happens while a request waits for its turn: there is no
pool, or no request is late.  Then the deployment that a request reaches is the one that it was made
in, at a later time (`Alone.reach`).
-/

namespace WorkQueue
namespace World

variable {α β : Type} {w later final : World} {cancelled : Bool} {operation other : Operation}
  {request : Request}

/-! ## Turns -/

/-- The failure that strikes a request. -/
def failure (w : World) (request : Request) : Failure :=
  (w.beginRequest request).1.failure

/-- The deployment when a request has its turn. -/
def reach (w : World) (request : Request) : World :=
  let begun := w.beginRequest request
  if begun.1.delayMs = 0 then begun.2 else begun.2.wait begun.1.delayMs

/-- A request waits for its turn and is attempted. -/
lemma run_ask (request : Request) {next : request.Answer → Procedure α}
    (hpause : ∀ millis, request ≠ .pause millis) (hcompute : ∀ millis, request ≠ .compute millis)
    (hawait : request ≠ .awaitCancel) (w : World) :
    run cancelled (.ask request next) w =
      match (w.reach request).attempt cancelled (w.failure request) request with
      | (.ok answer, later) => run cancelled (next answer) later
      | (.error message, later) => (.error message, later) := by
  cases request with
  | pause millis => exact absurd rfl (hpause millis)
  | compute millis => exact absurd rfl (hcompute millis)
  | awaitCancel => exact absurd rfl hawait
  | _ =>
    rw [run]
    · rfl
    all_goals
      intros
      contradiction

/-- A procedure followed by another runs as the other one does after the first. -/
lemma run_bind (procedure : Procedure β) (next : β → Procedure α) (w : World) :
    run cancelled (procedure >>= next) w =
      match run cancelled procedure w with
      | (.ok result, later) => run cancelled (next result) later
      | (.error message, later) => (.error message, later) := by
  induction procedure generalizing w with
  | done result => rfl
  | crash message => rfl
  | ask request rest ih =>
    change run cancelled (.ask request fun answer => rest answer >>= next) w = _
    by_cases htime : ∃ millis, request = .pause millis ∨ request = .compute millis
    · obtain ⟨millis, rfl | rfl⟩ := htime
      · exact ih () (w.wait millis)
      · exact ih () (w.wait millis)
    · simp only [not_exists, not_or, forall_and] at htime
      by_cases hawait : request = .awaitCancel
      · subst hawait
        exact ih () w
      · rw [run_ask request htime.1 htime.2 hawait, run_ask request htime.1 htime.2 hawait]
        cases (w.reach request).attempt cancelled (w.failure request) request with
        | mk answer later =>
          cases answer with
          | error message => rfl
          | ok answer => exact ih answer later

/-- The time is told at once. -/
lemma run_clock (next : Request.clock.Answer → Procedure α) (w : World) :
    run cancelled (Procedure.request .clock >>= next) w = run cancelled (next w.now) w :=
  rfl

/-- A random id is made at once. -/
lemma run_freshId (next : Request.freshId.Answer → Procedure α) (w : World) :
    run cancelled (Procedure.request .freshId >>= next) w =
      run cancelled (next w.freshId.1) w.freshId.2 := by
  change run cancelled (.ask .freshId next) w = _
  have hreach : w.reach .freshId = w := rfl
  have hfailure : w.failure .freshId = .none := rfl
  rw [run_ask .freshId nofun nofun nofun, hreach, hfailure, attempt_none]
  rfl

@[simp] lemma now_freshId (w : World) : w.freshId.2.now = w.now := by
  obtain ⟨id, generator, hfresh⟩ := w.freshId_eq
  rw [hfresh]
  rfl

/-! ## Faults -/

/-- The failure that waits for the next call of an operation. -/
def awaiting (w : World) (operation : Operation) : Failure :=
  match w.faults.find? fun entry => entry.1 = operation with
  | none => .none
  | some entry => entry.2.failure

lemma takeFault_failure (w : World) (operation : Operation) :
    (w.takeFault operation).1.failure = w.awaiting operation := by
  unfold takeFault awaiting
  cases w.faults.find? fun entry => entry.1 = operation <;> rfl

/-- A fault that strikes was waiting. -/
lemma takeFault_mem (w : World) (operation : Operation) :
    (w.takeFault operation).1 = .none ∨ (operation, (w.takeFault operation).1) ∈ w.faults := by
  unfold takeFault
  cases hfind : w.faults.find? fun entry => entry.1 = operation with
  | none => exact .inl rfl
  | some entry =>
    obtain ⟨found, fault⟩ := entry
    obtain rfl : found = operation := by simpa using List.find?_some hfind
    exact .inr (List.mem_of_find?_eq_some hfind)

/-- A fault that struck one operation does not hide those for others. -/
lemma find?_eraseP {faults : List (Operation × Fault)} (h : operation ≠ other) :
    (faults.eraseP fun entry => entry.1 = operation).find? (fun entry => entry.1 = other) =
      faults.find? fun entry => entry.1 = other := by
  induction faults with
  | nil => rfl
  | cons entry rest ih =>
    by_cases hentry : entry.1 = operation
    · rw [List.eraseP_cons_of_pos (by simpa using hentry), List.find?_cons_of_neg]
      simpa [hentry] using h
    · rw [List.eraseP_cons_of_neg (by simpa using hentry), List.find?_cons, List.find?_cons, ih]

lemma beginRequest_eq (h : request.operation? = some operation) (w : World) :
    w.beginRequest request = (w.note request).takeFault operation := by
  simp only [beginRequest, h]

/-! ## A deployment that is left alone -/

/-- Whether nothing happens while a request waits for its turn. -/
def Alone (w : World) : Prop :=
  w.pool = none ∨ ∀ entry ∈ w.faults, entry.2.delayMs = 0

/-- Whether a deployment is another one at a later time, where at most the faults for one operation
have struck. -/
structure Meanwhile (operation : Option Operation) (w later : World) : Prop where
  broker : later.broker = w.broker
  store : later.store = w.store
  mailer : later.mailer = w.mailer
  now : w.now ≤ later.now
  awaiting : ∀ other, operation ≠ some other → later.awaiting other = w.awaiting other
  alone : w.Alone → later.Alone

namespace Meanwhile

variable {operation : Option Operation}

protected lemma refl (operation : Option Operation) (w : World) : Meanwhile operation w w :=
  ⟨rfl, rfl, rfl, Instant.le_refl _, fun _ _ => rfl, id⟩

protected lemma trans (h : Meanwhile operation w later) (h' : Meanwhile operation later final) :
    Meanwhile operation w final where
  broker := h'.broker.trans h.broker
  store := h'.store.trans h.store
  mailer := h'.mailer.trans h.mailer
  now := Instant.le_trans h.now h'.now
  awaiting other hother := (h'.awaiting other hother).trans (h.awaiting other hother)
  alone := h'.alone ∘ h.alone

/-- Where no fault has struck, none has struck of any operation. -/
lemma widen (h : Meanwhile none w later) (operation : Option Operation) :
    Meanwhile operation w later :=
  ⟨h.broker, h.store, h.mailer, h.now, fun other _ => h.awaiting other nofun, h.alone⟩

end Meanwhile

lemma meanwhile_note (w : World) (request : Request) : Meanwhile none w (w.note request) := by
  cases request with
  | enqueue task =>
    simp only [note, noteSubmission]
    split
    · exact ⟨rfl, rfl, rfl, Instant.le_refl _, fun _ _ => rfl, id⟩
    · exact .refl none w
  | createVerifyEmail => exact ⟨rfl, rfl, rfl, Instant.le_refl _, fun _ _ => rfl, id⟩
  | _ => exact .refl none w

lemma meanwhile_takeFault (w : World) (operation : Operation) :
    Meanwhile (some operation) w (w.takeFault operation).2 := by
  unfold takeFault
  split
  · exact .refl _ w
  · refine ⟨rfl, rfl, rfl, Instant.le_refl _, fun other hother => ?_, fun halone => ?_⟩
    · simp only [awaiting, find?_eraseP fun heq => hother (congrArg some heq)]
    · exact halone.imp id fun h entry hentry => h entry (List.mem_of_mem_eraseP hentry)

/-- Without a pool nothing but the clock moves during a wait. -/
lemma meanwhile_wait (hpool : w.pool = none) (millis : Nat) :
    Meanwhile none w (w.wait millis) := by
  rw [wait, hpool]
  refine ⟨rfl, rfl, rfl, Instant.ofMillis_le_ofMillis ?_, fun _ _ => rfl, fun _ => .inl rfl⟩
  push_cast
  omega

lemma meanwhile_freshId (w : World) : Meanwhile none w w.freshId.2 := by
  obtain ⟨id, generator, hfresh⟩ := w.freshId_eq
  rw [hfresh]
  exact ⟨rfl, rfl, rfl, Instant.le_refl _, fun _ _ => rfl, fun h => h⟩

/-- What strikes a request is what awaits its operation. -/
lemma failure_eq (h : request.operation? = some operation) (w : World) :
    w.failure request = w.awaiting operation := by
  rw [failure, beginRequest_eq h, takeFault_failure]
  exact (meanwhile_note w request).awaiting operation nofun

/-- If a request is late, there is no pool. -/
lemma Alone.pool_of_late (halone : w.Alone) (hlate : (w.takeFault operation).1.delayMs ≠ 0) :
    (w.takeFault operation).2.pool = none := by
  rcases halone with hpool | hprompt
  · unfold takeFault
    split
    · exact hpool
    · exact hpool
  · rcases w.takeFault_mem operation with hnone | hmem
    · exact absurd (congrArg Fault.delayMs hnone) hlate
    · exact absurd (hprompt _ hmem) hlate

/-- **A request that is left alone reaches the deployment that it was made in**, at a later
time. -/
theorem Alone.reach (halone : w.Alone) (h : request.operation? = some operation) :
    Meanwhile (some operation) w (w.reach request) := by
  have hnoted := meanwhile_note w request
  have hbegun := (hnoted.widen (some operation)).trans
    (meanwhile_takeFault (w.note request) operation)
  simp only [World.reach, beginRequest_eq h]
  split
  · exact hbegun
  · next hlate =>
    have hpool := (hnoted.alone halone).pool_of_late hlate
    exact hbegun.trans ((meanwhile_wait hpool _).widen _)

end World
end WorkQueue
