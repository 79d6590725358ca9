import Mathlib.Tactic.Lemma
import WorkQueue.Procedure

/-!
# Runs of procedures

A procedure leaves open how its requests are answered, and so does `Ends`: a run is a log of
requests with any answers at all, and the result in which the procedure ends when it gets them.
What holds of every run holds under every store, mailer and broker, and under every failure of
theirs.

A procedure can also crash, and then it ends in no result.  One that `Settles` never does, however
its requests are answered.
-/

namespace WorkQueue
namespace Procedure

/-- A request with an answer. -/
structure Answered where
  request : Request
  answer : request.Answer

/-- `Ends procedure log result` says that the procedure makes the requests of the log, one after the
other, and ends in the result if they are answered as they are there. -/
inductive Ends {α : Type} : Procedure α → List Answered → α → Prop
  | done (result : α) : Ends (.done result) [] result
  | ask {request : Request} {next : request.Answer → Procedure α} {log : List Answered} {result : α}
      (answer : request.Answer) (rest : Ends (next answer) log result) :
      Ends (.ask request next) (⟨request, answer⟩ :: log) result

/-- Whether a procedure ends in a result, however its requests are answered. -/
inductive Settles {α : Type} : Procedure α → Prop
  | done (result : α) : Settles (.done result)
  | ask {request : Request} {next : request.Answer → Procedure α}
      (rest : ∀ answer, Settles (next answer)) : Settles (.ask request next)

variable {α : Type} {log : List Answered} {result : α}

lemma ends_pure_iff {given : α} :
    Ends (pure given) log result ↔ log = [] ∧ given = result := by
  constructor
  · rintro ⟨⟩
    exact ⟨rfl, rfl⟩
  · rintro ⟨rfl, rfl⟩
    exact .done given

lemma ends_request_iff {r : Request} {next : r.Answer → Procedure α} :
    Ends (request r >>= next) log result ↔
      ∃ answer rest, log = ⟨r, answer⟩ :: rest ∧ Ends (next answer) rest result := by
  constructor
  · rintro (_ | ⟨answer, rest⟩)
    exact ⟨answer, _, rfl, rest⟩
  · rintro ⟨answer, rest, rfl, hrest⟩
    exact .ask answer hrest

/-- A procedure followed by another ends as the second one does with the result of the first. -/
lemma ends_bind_iff {β : Type} {procedure : Procedure β} {next : β → Procedure α} :
    Ends (procedure >>= next) log result ↔
      ∃ first middle rest, Ends procedure first middle ∧ Ends (next middle) rest result ∧
        log = first ++ rest := by
  constructor
  · intro h
    induction procedure generalizing log with
    | done middle => exact ⟨[], middle, log, .done middle, h, rfl⟩
    | crash => cases h
    | ask request rest ih =>
      obtain ⟨⟩ | ⟨answer, hrest⟩ := h
      obtain ⟨first, middle, last, hfirst, hlast, rfl⟩ := ih answer hrest
      exact ⟨⟨request, answer⟩ :: first, middle, last, .ask answer hfirst, hlast, rfl⟩
  · rintro ⟨first, middle, rest, hfirst, hrest, rfl⟩
    induction hfirst with
    | done => exact hrest
    | ask answer _ ih => exact .ask answer (ih hrest)

/-! ## What a log tells -/

namespace Answered

/-- The name and the answer of a look-up of an account. -/
@[simp] def lookUp? : Answered → Option (String × Except StoreError User)
  | ⟨.getUser username, answer⟩ => some (username, answer)
  | _ => none

/-- What a new verification record was asked for with, and the answer. -/
@[simp] def recording? : Answered → Option (NewVerifyEmail × Except StoreError VerifyEmail)
  | ⟨.createVerifyEmail params, answer⟩ => some (params, answer)
  | _ => none

/-- A message that was handed to the mailer, and the answer. -/
@[simp] def sending? : Answered → Option (OutgoingEmail × Except MailError Unit)
  | ⟨.send email, answer⟩ => some (email, answer)
  | _ => none

/-- A message that the mailer accepted. -/
@[simp] def accepted? : Answered → Option OutgoingEmail
  | ⟨.send email, .ok _⟩ => some email
  | _ => none

/-- A task that the broker accepted. -/
@[simp] def submitted? : Answered → Option Task
  | ⟨.enqueue task, .ok _⟩ => some task
  | _ => none

end Answered

/-- The look-ups of accounts in order. -/
def lookUps (log : List Answered) : List (String × Except StoreError User) :=
  log.filterMap (·.lookUp?)

/-- The new verification records that were asked for, in order. -/
def recordings (log : List Answered) : List (NewVerifyEmail × Except StoreError VerifyEmail) :=
  log.filterMap (·.recording?)

/-- The messages that were handed to the mailer, in order. -/
def sendings (log : List Answered) : List (OutgoingEmail × Except MailError Unit) :=
  log.filterMap (·.sending?)

/-- The messages that the mailer accepted, in order. -/
def accepted (log : List Answered) : List OutgoingEmail :=
  log.filterMap (·.accepted?)

/-- The tasks that the broker accepted, in order. -/
def submissions (log : List Answered) : List Task :=
  log.filterMap (·.submitted?)

variable {item : Answered}

@[simp] lemma lookUps_nil : lookUps [] = [] := rfl

@[simp] lemma recordings_nil : recordings [] = [] := rfl

@[simp] lemma sendings_nil : sendings [] = [] := rfl

@[simp] lemma accepted_nil : accepted [] = [] := rfl

@[simp] lemma lookUps_cons : lookUps (item :: log) = item.lookUp?.toList ++ lookUps log := by
  simp only [lookUps, List.filterMap_cons]
  cases item.lookUp? <;> rfl

@[simp] lemma recordings_cons :
    recordings (item :: log) = item.recording?.toList ++ recordings log := by
  simp only [recordings, List.filterMap_cons]
  cases item.recording? <;> rfl

@[simp] lemma sendings_cons : sendings (item :: log) = item.sending?.toList ++ sendings log := by
  simp only [sendings, List.filterMap_cons]
  cases item.sending? <;> rfl

@[simp] lemma accepted_cons : accepted (item :: log) = item.accepted?.toList ++ accepted log := by
  simp only [accepted, List.filterMap_cons]
  cases item.accepted? <;> rfl

end Procedure
end WorkQueue
