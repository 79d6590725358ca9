import Mathlib.Tactic.Lemma
import WorkQueue.Proofs.Procedure
import WorkQueue.Verification.Handler

/-!
# What an attempt at a verification task does

The handler of verification tasks asks three collaborators for something, each of which can fail in
several ways, and in between it looks whether it is to stop.  `Attempt` lists the ways in which it
can go, one constructor for each, with all exchanges and the result, and `attempt_of_ends` says that
there is no other.  Nothing is assumed about the answers: the store may say anything of any account,
and the mailer may refuse whatever it likes.

The main statement is `mails_on_success`: an attempt succeeds exactly if the mailer accepted a
message, and that message is about the record that the same attempt has made, whatever records
earlier attempts have left behind.
-/

namespace WorkQueue
namespace Verification

open Procedure

variable {baseUrl : String} {delivery : Delivery} {task : Task} {log : List Answered}
  {result : Except HandlerError Unit}

/-! ## The ways an attempt can go -/

/-- The exchanges of an attempt that looks the account up, finds it, and asks for a record. -/
def opening (username : String) (user : User) (secretCode : String)
    (answer : Except StoreError VerifyEmail) (rest : List Answered) : List Answered :=
  ⟨.getUser username, .ok user⟩ :: ⟨.secret secretLength, secretCode⟩ ::
    ⟨.createVerifyEmail ⟨user.username, user.email, secretCode⟩, answer⟩ :: rest

/-- The ways in which an attempt at a verification task can go. -/
inductive Attempt (baseUrl : String) (task : Task) :
    List Answered → Except HandlerError Unit → Prop
  | unreadable {fault : Json.Fault} (undecoded : Payload.decode task.payload = .error fault) :
      Attempt baseUrl task []
        (.error (.skipRetry
          ("failed to decode task payload: " ++ (QueueError.encoding fault).message)))
  | unknown {payload : Payload} {error : StoreError}
      (decoded : Payload.decode task.payload = .ok payload) :
      Attempt baseUrl task [⟨.getUser payload.username, .error error⟩]
        (.error (lookUpError payload.username error))
  | unrecorded {payload : Payload} {user : User} {secretCode : String} {error : StoreError}
      (decoded : Payload.decode task.payload = .ok payload) :
      Attempt baseUrl task (opening payload.username user secretCode (.error error) [])
        (.error (.retry ("failed to create verify email: " ++ error.message)))
  | stopped {payload : Payload} {user : User} {secretCode : String} {record : VerifyEmail}
      (decoded : Payload.decode task.payload = .ok payload) :
      Attempt baseUrl task
        (opening payload.username user secretCode (.ok record) [⟨.cancelled, true⟩])
        (.error .cancelled)
  | unsent {payload : Payload} {user : User} {secretCode : String} {record : VerifyEmail}
      {error : MailError} (decoded : Payload.decode task.payload = .ok payload) :
      Attempt baseUrl task
        (opening payload.username user secretCode (.ok record)
          [⟨.cancelled, false⟩, ⟨.send (message baseUrl user record), .error error⟩])
        (.error (sendError error))
  | mailed {payload : Payload} {user : User} {secretCode : String} {record : VerifyEmail}
      (decoded : Payload.decode task.payload = .ok payload) :
      Attempt baseUrl task
        (opening payload.username user secretCode (.ok record)
          [⟨.cancelled, false⟩, ⟨.send (message baseUrl user record), .ok ()⟩])
        (.ok ())

/-- An attempt goes in one of these ways. -/
lemma attempt_of_ends (h : Ends (handler baseUrl delivery task) log result) :
    Attempt baseUrl task log result := by
  cases hdecode : Payload.decode task.payload with
  | error fault =>
    simp only [handler, decodePayload, hdecode, ends_pure_iff] at h
    obtain ⟨rfl, rfl⟩ := h
    exact .unreadable hdecode
  | ok payload =>
    simp only [handler, decodePayload, hdecode, ends_request_iff] at h
    obtain ⟨found, log, rfl, h⟩ := h
    cases found with
    | error error =>
      obtain ⟨rfl, rfl⟩ := ends_pure_iff.mp h
      exact .unknown hdecode
    | ok user =>
      simp only [mailLink, ends_request_iff] at h
      obtain ⟨secretCode, log, rfl, made, log', rfl, h⟩ := h
      cases made with
      | error error =>
        obtain ⟨rfl, rfl⟩ := ends_pure_iff.mp h
        exact .unrecorded hdecode
      | ok record =>
        obtain ⟨stop, log, rfl, hstop⟩ := ends_request_iff.mp h
        cases stop with
        | true =>
          obtain ⟨rfl, rfl⟩ := ends_pure_iff.mp hstop
          exact .stopped hdecode
        | false =>
          obtain ⟨sent, log, rfl, hsent⟩ := ends_request_iff.mp hstop
          cases sent with
          | error error =>
            obtain ⟨rfl, rfl⟩ := ends_pure_iff.mp hsent
            exact .unsent hdecode
          | ok =>
            obtain ⟨rfl, rfl⟩ := ends_pure_iff.mp hsent
            exact .mailed hdecode

/-- Every one of these ways is one in which an attempt can go. -/
lemma Attempt.ends (h : Attempt baseUrl task log result) (delivery : Delivery) :
    Ends (handler baseUrl delivery task) log result := by
  cases h with
  | unreadable undecoded =>
    simp only [handler, decodePayload, undecoded]
    exact .done _
  | unknown decoded =>
    simp only [handler, decodePayload, decoded]
    exact .ask _ (.done _)
  | unrecorded decoded =>
    simp only [handler, decodePayload, decoded]
    exact .ask _ (.ask _ (.ask _ (.done _)))
  | stopped decoded =>
    simp only [handler, decodePayload, decoded]
    exact .ask _ (.ask _ (.ask _ (.ask _ (.done _))))
  | unsent decoded =>
    simp only [handler, decodePayload, decoded]
    exact .ask _ (.ask _ (.ask _ (.ask _ (.ask _ (.done _)))))
  | mailed decoded =>
    simp only [handler, decodePayload, decoded]
    exact .ask _ (.ask _ (.ask _ (.ask _ (.ask _ (.done _)))))

/-- However its requests are answered, the handler ends in a result. -/
lemma settles_handler (baseUrl : String) (delivery : Delivery) (task : Task) :
    Settles (handler baseUrl delivery task) := by
  unfold handler
  cases decodePayload task with
  | error error => exact .done _
  | ok payload =>
    refine .ask fun found => ?_
    cases found with
    | error error => exact .done _
    | ok user =>
      refine .ask fun secretCode => .ask fun made => ?_
      cases made with
      | error error => exact .done _
      | ok record =>
        refine .ask fun (stop : Bool) => ?_
        cases stop with
        | true => exact .done _
        | false =>
          refine .ask fun sent => ?_
          cases sent <;> exact .done _

/-! ## What every attempt has in common -/

/-- Whether a log shows that a record was made for an account: the one that the task names, as it
was looked up. -/
def Made (task : Task) (log : List Answered) (user : User) (record : VerifyEmail) : Prop :=
  ∃ payload secretCode, Payload.decode task.payload = .ok payload ∧
    lookUps log = [(payload.username, .ok user)] ∧
    recordings log = [(⟨user.username, user.email, secretCode⟩, .ok record)]

/-- Whether a message announces a record to an account: it goes to the address of the account and to
no other, and its link has the id and the secret of the record. -/
structure Announces (baseUrl : String) (user : User) (record : VerifyEmail)
    (email : OutgoingEmail) : Prop where
  recipients : email.recipients = [user.email] ∧ email.cc = [] ∧ email.bcc = []
  link : ∃ before after,
    email.content = before ++ link baseUrl record.id record.secretCode ++ after

lemma announces_message (baseUrl : String) (user : User) (record : VerifyEmail) :
    Announces baseUrl user record (message baseUrl user record) where
  recipients := ⟨rfl, rfl, rfl⟩
  link := ⟨_, _, rfl⟩

/-- What an attempt at a verification task does, by the log of its exchanges and its result. -/
structure Outcome (baseUrl : String) (task : Task) (log : List Answered)
    (result : Except HandlerError Unit) : Prop where
  /-- It asks for one record at most. -/
  one_recording : (recordings log).length ≤ 1
  /-- It hands one message at most to the mailer. -/
  one_sending : (sendings log).length ≤ 1
  /-- It succeeds if and only if the mailer accepted a message. -/
  ok_iff : result = .ok () ↔ ∃ email, accepted log = [email]
  /-- If it fails, then the mailer accepted none. -/
  silent : ∀ error, result = .error error → accepted log = []
  /-- What it hands to the mailer announces to the account that was looked up the record that was
  made. -/
  faithful : ∀ email answer, (email, answer) ∈ sendings log →
    ∃ user record, Made task log user record ∧ Announces baseUrl user record email
  /-- It gives the task up for good if the payload cannot be read, there is no such account, or the
  mailer refuses the message for good, and only then. -/
  skipRetry_iff : (∃ reason, result = .error (.skipRetry reason)) ↔
    (∃ fault, Payload.decode task.payload = .error fault) ∨
      (∃ username, (username, .error .notFound) ∈ lookUps log) ∨
      ∃ email reason, (email, .error (.rejected reason)) ∈ sendings log
  /-- It is cancelled if it has made a record and is then told to stop, and only then. -/
  cancelled_iff : result = .error .cancelled ↔
    ∃ before params record,
      log = before ++ [⟨.createVerifyEmail params, .ok record⟩, ⟨.cancelled, true⟩]
  /-- It leaves the task to another attempt after every other failure, and only then. -/
  retry_iff : (∃ reason, result = .error (.retry reason)) ↔
    (∃ username error, error ≠ .notFound ∧ (username, .error error) ∈ lookUps log) ∨
      (∃ params error, (params, .error error) ∈ recordings log) ∨
      ∃ email reason, (email, .error (.transient reason)) ∈ sendings log

namespace Attempt

variable (h : Attempt baseUrl task log result)

include h

lemma one_recording : (recordings log).length ≤ 1 := by
  cases h <;> simp [opening]

lemma one_sending : (sendings log).length ≤ 1 := by
  cases h <;> simp [opening]

lemma silent {error : HandlerError} (herror : result = .error error) : accepted log = [] := by
  cases h with
  | mailed => cases herror
  | _ => simp [opening]

/-- An attempt that succeeds has sent the message about the record that it has made. -/
lemma mailed_of_ok (hresult : result = .ok ()) :
    ∃ user record, Made task log user record ∧ accepted log = [message baseUrl user record] := by
  cases h with
  | @mailed payload user secretCode record decoded =>
    exact ⟨user, record, ⟨payload, secretCode, decoded, rfl, rfl⟩, rfl⟩
  | _ => cases hresult

lemma ok_iff : result = .ok () ↔ ∃ email, accepted log = [email] := by
  constructor
  · intro hresult
    obtain ⟨user, record, -, haccepted⟩ := h.mailed_of_ok hresult
    exact ⟨_, haccepted⟩
  · rintro ⟨email, haccepted⟩
    cases hresult : result with
    | ok => rfl
    | error error =>
      rw [h.silent hresult] at haccepted
      cases haccepted

lemma faithful {email : OutgoingEmail} {answer : Except MailError Unit}
    (hsending : (email, answer) ∈ sendings log) :
    ∃ user record, Made task log user record ∧ email = message baseUrl user record := by
  cases h with
  | @unsent payload user secretCode record error decoded
  | @mailed payload user secretCode record decoded =>
    simp only [opening, sendings_cons] at hsending
    refine ⟨user, record, ⟨payload, secretCode, decoded, rfl, rfl⟩, ?_⟩
    exact (by simpa using hsending : _ ∧ _).1
  | _ => simp [opening] at hsending

lemma skipRetry_iff :
    (∃ reason, result = .error (.skipRetry reason)) ↔
      (∃ fault, Payload.decode task.payload = .error fault) ∨
        (∃ username, (username, .error .notFound) ∈ lookUps log) ∨
        ∃ email reason, (email, .error (.rejected reason)) ∈ sendings log := by
  cases h with
  | unreadable undecoded => simp [undecoded]
  | @unknown payload error decoded => cases error <;> simp [decoded, lookUpError]
  | unrecorded decoded | stopped decoded | mailed decoded => simp [decoded, opening]
  | @unsent _ _ _ _ error decoded => cases error <;> simp [decoded, opening, sendError]

lemma cancelled_iff : result = .error .cancelled ↔
    ∃ before params record,
      log = before ++ [⟨.createVerifyEmail params, .ok record⟩, ⟨.cancelled, true⟩] := by
  have hlast : ∀ first : List Answered,
      first.getLast?.map (·.request) ≠ some .cancelled →
      ¬ ∃ before params record,
        first = before ++ [⟨.createVerifyEmail params, .ok record⟩, ⟨.cancelled, true⟩] := by
    rintro _ hne ⟨before, params, record, rfl⟩
    simp at hne
  cases h with
  | @stopped payload user secretCode record =>
    exact iff_of_true rfl ⟨[_, _], _, record, rfl⟩
  | @unknown payload error =>
    exact iff_of_false (by cases error <;> simp [lookUpError]) (hlast _ (by simp))
  | @unsent _ _ _ _ error =>
    exact iff_of_false (by cases error <;> simp [sendError]) (hlast _ (by simp [opening]))
  | _ => exact iff_of_false (by simp) (hlast _ (by simp [opening]))

lemma retry_iff : (∃ reason, result = .error (.retry reason)) ↔
    (∃ username error, error ≠ .notFound ∧ (username, .error error) ∈ lookUps log) ∨
      (∃ params error, (params, .error error) ∈ recordings log) ∨
      ∃ email reason, (email, .error (.transient reason)) ∈ sendings log := by
  cases h with
  | unreadable => simp
  | @unknown payload error => cases error <;> simp [lookUpError]
  | unrecorded | stopped | mailed => simp [opening]
  | @unsent _ _ _ _ error => cases error <;> simp [opening, sendError]

lemma outcome : Outcome baseUrl task log result where
  one_recording := h.one_recording
  one_sending := h.one_sending
  ok_iff := h.ok_iff
  silent _ herror := h.silent herror
  faithful _ _ hsending := by
    obtain ⟨user, record, hmade, rfl⟩ := h.faithful hsending
    exact ⟨user, record, hmade, announces_message baseUrl user record⟩
  skipRetry_iff := h.skipRetry_iff
  cancelled_iff := h.cancelled_iff
  retry_iff := h.retry_iff

end Attempt

/-! ## Attempts one after the other -/

/-- An attempt that came to its end. -/
structure Finished (baseUrl : String) where
  delivery : Delivery
  task : Task
  log : List Answered
  result : Except HandlerError Unit
  ends : Ends (handler baseUrl delivery task) log result

namespace Finished

/-- The messages that the mailer has accepted from attempts one after the other. -/
def mailed (attempts : List (Finished baseUrl)) : List OutgoingEmail :=
  attempts.flatMap fun attempt => accepted attempt.log

lemma mailed_of_failed {attempts : List (Finished baseUrl)}
    (h : ∀ attempt ∈ attempts, attempt.result ≠ .ok ()) : mailed attempts = [] := by
  refine List.flatMap_eq_nil_iff.mpr fun attempt hattempt => ?_
  cases hresult : attempt.result with
  | ok => exact absurd hresult (h attempt hattempt)
  | error error => exact (attempt_of_ends attempt.ends).silent hresult

end Finished

/-- What it means that the handler of verification tasks mails exactly when it succeeds. -/
structure MailsOnSuccess (baseUrl : String) : Prop where
  /-- It always comes to a result. -/
  settles : ∀ delivery task, Settles (handler baseUrl delivery task)
  outcome : ∀ attempt : Finished baseUrl,
    Outcome baseUrl attempt.task attempt.log attempt.result
  /-- Of attempts that fail and a last one that succeeds, the mailer has accepted one message, and
  it announces the record of the last attempt. -/
  series : ∀ (failed : List (Finished baseUrl)) (last : Finished baseUrl),
    (∀ attempt ∈ failed, attempt.result ≠ .ok ()) → last.result = .ok () →
      ∃ email user record, Finished.mailed (failed ++ [last]) = [email] ∧
        Made last.task last.log user record ∧ Announces baseUrl user record email

/-- **Verification tasks are mailed on success alone.**  However the store and the mailer answer,
and whenever the handler is told to stop, an attempt succeeds if and only if the mailer has accepted
a message, to the address of the account and with the link of the record that this attempt has
made. -/
theorem mails_on_success (baseUrl : String) : MailsOnSuccess baseUrl where
  settles := settles_handler baseUrl
  outcome attempt := (attempt_of_ends attempt.ends).outcome
  series failed last hfailed hlast := by
    obtain ⟨user, record, hmade, haccepted⟩ := (attempt_of_ends last.ends).mailed_of_ok hlast
    refine ⟨_, user, record, ?_, hmade, announces_message baseUrl user record⟩
    rw [Finished.mailed, List.flatMap_append, ← Finished.mailed, Finished.mailed_of_failed hfailed]
    simpa using haccepted

end Verification
end WorkQueue
