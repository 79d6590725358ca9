import WorkQueue.Proofs.Fleet.Deployment
import WorkQueue.Proofs.Table

/-!
# What handlers come to

A worker executes the procedure of a handler that is registered for the type of its task
(`Pool.Engages`).  The procedure is carried out piece by piece, and between two pieces the worker
has only what is left of it.  `Leads` says what a procedure can come to when a deployment answers
its requests, and `Execution.Of` that an execution is one of a procedure: what it goes on with, or
how it has ended, is what the procedure comes to.  Driving a handler keeps that (`resume_of`).

A handler can compute for a while instead of waiting, and then nothing can stop it.  `Yields` says
of a procedure that it never does.
-/

namespace WorkQueue

/-! ## Procedures -/

/-- The requests that only take time. -/
inductive Request.TakesTime : Request → Prop
  | pause (millis : Nat) : TakesTime (.pause millis)
  | compute (millis : Nat) : TakesTime (.compute millis)
  | awaitCancel : TakesTime .awaitCancel

/-- Whether a procedure comes to another one when its requests are answered as deployments answer
them. -/
inductive Procedure.Leads {α : Type} (start : Procedure α) : Procedure α → Prop
  | refl : Leads start start
  | waited {request : Request} {next : request.Answer → Procedure α} (takesTime : request.TakesTime)
      (leads : Leads start (.ask request next)) (answer : request.Answer) :
      Leads start (next answer)
  | answered {request : Request} {next : request.Answer → Procedure α} {w w' : World}
      {cancelled : Bool} {failure : Failure} {answer : request.Answer}
      (leads : Leads start (.ask request next))
      (answers : w.attempt cancelled failure request = (.ok answer, w')) :
      Leads start (next answer)

/-- Whether a procedure never computes for a while. -/
def Procedure.Yields {α : Type} (start : Procedure α) : Prop :=
  ∀ millis next, ¬ start.Leads (.ask (.compute millis) next)

section Yields

variable {α : Type} {request : Request} {next : request.Answer → Procedure α}
  {procedure : Procedure α}

/-- A procedure comes to no other one after its end. -/
lemma Procedure.Leads.of_done {result : α} (h : Leads (.done result) procedure) :
    procedure = .done result := by
  induction h with
  | refl => rfl
  | waited _ _ _ ih => cases ih
  | answered _ _ ih => cases ih

/-- A procedure that asks for something comes only to what follows an answer. -/
lemma Procedure.Leads.of_ask (h : Leads (.ask request next) procedure) :
    procedure = .ask request next ∨ ∃ answer, (next answer).Leads procedure := by
  induction h with
  | refl => exact .inl rfl
  | waited takesTime _ answer ih =>
    rcases ih with heq | ⟨first, hleads⟩
    · cases heq
      exact .inr ⟨answer, .refl⟩
    · exact .inr ⟨first, hleads.waited takesTime answer⟩
  | answered _ answers ih =>
    rcases ih with heq | ⟨first, hleads⟩
    · cases heq
      exact .inr ⟨_, .refl⟩
    · exact .inr ⟨first, hleads.answered answers⟩

lemma Procedure.yields_done (result : α) : (done result).Yields := by
  intro millis rest hleads
  cases hleads.of_done

lemma Procedure.yields_ask (hrequest : ∀ millis, request ≠ .compute millis)
    (hnext : ∀ answer, (next answer).Yields) : (ask request next).Yields := by
  intro millis rest hleads
  rcases hleads.of_ask with heq | ⟨answer, hrest⟩
  · cases heq
    exact hrequest millis rfl
  · exact hnext answer millis rest hrest

end Yields

/-- Whether an execution of a procedure can end so.  Only a crash can have another cause than the
procedure itself: one of its requests was struck by a fault, or could not be carried out. -/
inductive Ending.Of (start : Procedure (Except HandlerError Unit)) : Ending → Prop
  | returned {result : Except HandlerError Unit} (leads : start.Leads (.done result)) :
      Of start (.returned result)
  | crashed {message : String} (execution : Nat) (leads : start.Leads (.crash message)) :
      Of start (.crashed execution message)
  | struck {request : Request} {next : request.Answer → Procedure (Except HandlerError Unit)}
      {w w' : World} {cancelled : Bool} {failure : Failure} {message : String} (execution : Nat)
      (leads : start.Leads (.ask request next))
      (strikes : w.attempt cancelled failure request = (.error message, w')) :
      Of start (.crashed execution message)

/-- Whether a handler that goes on so is on the way of a procedure. -/
inductive Resumption.Of (start : Procedure (Except HandlerError Unit)) : Resumption → Prop
  | run {rest : Procedure (Except HandlerError Unit)} (leads : start.Leads rest) :
      Of start (.run rest)
  | attempt {request : Request} {next : request.Answer → Procedure (Except HandlerError Unit)}
      (failure : Failure) (leads : start.Leads (.ask request next)) :
      Of start (.attempt failure request next)

/-- Whether an execution is one of a procedure: it is about to begin, or it is where the procedure
asks for time, or where a request is answered late, or it has ended as the procedure has. -/
inductive Execution.Of (start : Procedure (Except HandlerError Unit)) : Execution → Prop
  | begins : Of start (.suspended (.run start) .time)
  | pauses {millis : Nat}
      {next : (Request.pause millis).Answer → Procedure (Except HandlerError Unit)}
      (leads : start.Leads (.ask (.pause millis) next)) (asked : millis ≠ 0) :
      Of start (.suspended (.run (next ())) .time)
  | late {request : Request} {next : request.Answer → Procedure (Except HandlerError Unit)}
      (failure : Failure) (leads : start.Leads (.ask request next))
      (answered : ¬ request.TakesTime) : Of start (.suspended (.attempt failure request next) .time)
  | awaits {next : Request.awaitCancel.Answer → Procedure (Except HandlerError Unit)}
      (leads : start.Leads (.ask .awaitCancel next)) :
      Of start (.suspended (.run (next ())) .cancel)
  | computes {millis : Nat}
      {next : (Request.compute millis).Answer → Procedure (Except HandlerError Unit)}
      (leads : start.Leads (.ask (.compute millis) next)) (asked : millis ≠ 0) (untilMs : Nat) :
      Of start (.suspended (.run (next ())) (.computing untilMs))
  | ended {ending : Ending} (of : ending.Of start) : Of start (.ended ending)

namespace World

variable {start procedure : Procedure (Except HandlerError Unit)} {w w' : World} {cancelled : Bool}

/-! ## Driving a handler -/

/-- What a handler that has stopped is doing at a time. -/
def Pause.execution (nowMs : Nat) : Pause → Execution
  | .ended ending => .ended ending
  | .sleeping _ rest => .suspended rest .time
  | .awaitingCancel rest => .suspended rest .cancel
  | .computing millis rest => .suspended (.run rest) (.computing (nowMs + millis))

/-- A handler that is driven stays on the way of its procedure.  The induction is on what is left of
it. -/
lemma drive_of (execution nowMs : Nat) (h : start.Leads procedure) (w : World) :
    Execution.Of start ((drive cancelled execution procedure w).1.execution nowMs) := by
  induction procedure generalizing w with
  | done result => exact .ended (.returned h)
  | crash message => exact .ended (.crashed execution h)
  | ask request next ih =>
    by_cases hpause : ∃ millis, request = .pause millis
    · obtain ⟨millis, rfl⟩ := hpause
      have hnext : start.Leads (next ()) := h.waited (.pause millis) ()
      unfold drive
      split
      · exact ih () hnext w
      · next hasked => exact .pauses h hasked
    by_cases hcompute : ∃ millis, request = .compute millis
    · obtain ⟨millis, rfl⟩ := hcompute
      unfold drive
      split
      · exact ih () (h.waited (.compute millis) ()) w
      · next hasked => exact .computes h hasked _
    by_cases hcancel : request = .awaitCancel
    · subst hcancel
      unfold drive
      split
      · exact ih () (h.waited .awaitCancel ()) w
      · exact .awaits h
    rw [drive_ask cancelled execution next w (not_exists.mp hpause) (not_exists.mp hcompute)
      hcancel]
    generalize w.beginRequest request = begun
    obtain ⟨fault, w'⟩ := begun
    simp only
    split
    · cases hattempt : w'.attempt cancelled fault.failure request with
      | mk answer w'' =>
        cases answer with
        | ok answer => exact ih answer (h.answered hattempt) w''
        | error message => exact .ended (.struck execution h hattempt)
    · refine .late fault.failure h fun htakes => ?_
      cases htakes with
      | pause millis => exact hpause ⟨millis, rfl⟩
      | compute millis => exact hcompute ⟨millis, rfl⟩
      | awaitCancel => exact hcancel rfl

lemma resume_of {rest : Resumption} (execution nowMs : Nat) (h : rest.Of start) (w : World) :
    Execution.Of start ((resume cancelled execution rest w).1.execution nowMs) := by
  cases h with
  | run leads => exact drive_of execution nowMs leads w
  | @attempt request next failure leads =>
    unfold resume
    cases hattempt : w.attempt cancelled failure request with
    | mk answer w' =>
      simp only [hattempt]
      cases answer with
      | ok answer => exact drive_of execution nowMs (leads.answered hattempt) w'
      | error message => exact .ended (.struck execution leads hattempt)

end World

/-! ## Executions -/

variable {start : Procedure (Except HandlerError Unit)}

/-- What an execution goes on with is on the way of its procedure. -/
lemma Execution.Of.resumption {rest : Resumption} {waiting : Waiting}
    (h : Execution.Of start (.suspended rest waiting)) : rest.Of start := by
  cases h with
  | begins => exact .run .refl
  | pauses leads => exact .run (leads.waited (.pause _) ())
  | late failure leads => exact .attempt failure leads
  | awaits leads => exact .run (leads.waited .awaitCancel ())
  | computes leads => exact .run (leads.waited (.compute _) ())

/-- A procedure that never computes for a while can be stopped wherever it is. -/
lemma Procedure.Yields.not_computing (h : start.Yields) {rest : Resumption} {untilMs : Nat} :
    ¬ Execution.Of start (.suspended rest (.computing untilMs)) := by
  rintro (_ | _ | _ | _ | ⟨leads⟩)
  exact h _ _ leads

/-! ## Registries -/

/-- A handler that a registry resolves a type to is registered for it. -/
lemma Registry.mem_of_resolve? {registry : Registry} {kind : String} {handler : Handler}
    (h : registry.resolve? kind = some handler) : (kind, handler) ∈ registry.handlers :=
  Table.mem_of_get? h

/-- A type is resolved to no handler exactly if none is registered for it. -/
lemma Registry.resolve?_eq_none_iff {registry : Registry} {kind : String} :
    registry.resolve? kind = none ↔ ∀ handler, (kind, handler) ∉ registry.handlers := by
  rw [resolve?, Table.get?_eq_none_iff]
  constructor
  · exact fun h handler hmem => h _ hmem rfl
  · rintro h ⟨name, handler⟩ hmem rfl
    exact h handler hmem

/-- Whether an execution of a task is the beginning of that by the handler of a pool. -/
inductive Pool.Begins (pool : Pool) (task : Task) : Execution → Prop
  | intro {handler : Handler} (resolves : pool.registry.resolve? task.kind = some handler) :
      Begins pool task (.suspended (.run (handler (Delivery.ofTask task) task)) .time)

/-- Whether an execution of a task is one of a handler that the pool has for the type of the
task. -/
def Pool.Engages (pool : Pool) (task : Task) (execution : Execution) : Prop :=
  ∃ handler, (task.kind, handler) ∈ pool.registry.handlers ∧
    execution.Of (handler (Delivery.ofTask task) task)

lemma Pool.Begins.engages {pool : Pool} {task : Task} {execution : Execution}
    (h : pool.Begins task execution) : pool.Engages task execution := by
  obtain ⟨hresolve⟩ := h
  exact ⟨_, Registry.mem_of_resolve? hresolve, .begins⟩

/-- Whether the execution of a task can end so for a worker of a pool: as the procedure of a handler
that is registered for the type of the task ends, or because the worker does not wait any longer. -/
inductive Pool.Concludes (pool : Pool) (task : Task) : Ending → Prop
  | own {handler : Handler} {ending : Ending}
      (registered : (task.kind, handler) ∈ pool.registry.handlers)
      (of : ending.Of (handler (Delivery.ofTask task) task)) : Concludes pool task ending
  | timedOut : Concludes pool task .timedOut
  | interrupted : Concludes pool task .interrupted

/-- What a worker finds when it looks at a handler that is engaged. -/
lemma Pool.Engages.concludes {pool : Pool} {task : Task} {execution : Execution} {ending : Ending}
    {dueMs nowMs : Nat} (h : pool.Engages task execution)
    (hended : execution.outcome? dueMs nowMs = some ending) : pool.Concludes task ending := by
  obtain ⟨handler, hregistered, hof⟩ := h
  cases execution with
  | ended =>
    cases hended
    cases hof with
    | ended of => exact .own hregistered of
  | suspended =>
    simp only [Execution.outcome?] at hended
    split at hended
    · cases hended
      exact .timedOut
    · cases hended

/-- A handler that goes on stays engaged. -/
lemma Pool.Engages.onward {pool : Pool} {task : Task} {rest : Resumption} {waiting : Waiting}
    {execution : Execution} (h : pool.Engages task (.suspended rest waiting))
    (honward : ∀ start, rest.Of start → execution.Of start) : pool.Engages task execution := by
  obtain ⟨handler, hregistered, hof⟩ := h
  exact ⟨handler, hregistered, honward _ hof.resumption⟩

end WorkQueue
