import WorkQueue.Submission
import WorkQueue.Verification.Handler

/-!
# Accounts

Signing up stores the account and submits a task that mails a verification link, on the urgent queue
and with a short delay.  Following the link uses the record behind it.
-/

namespace WorkQueue

/-- What is wrong with the arguments of a verification. -/
inductive ArgumentProblem where
  /-- The id is no positive number. -/
  | badId
  /-- The secret is too short or too long. -/
  | badSecret
  /-- A problem in words. -/
  | stated (text : String)
  deriving DecidableEq

/-- An error of the accounts. -/
inductive AccountError where
  /-- The store refused. -/
  | store (cause : StoreError)
  /-- An argument is wrong, and the store was not asked. -/
  | invalidArgument (problem : ArgumentProblem)
  /-- The account is there, but its verification task was not accepted. -/
  | distribute (cause : QueueError)
  deriving DecidableEq

namespace Accounts

/-- The budget of retries of verification tasks. -/
def verifyEmailMaxRetry : UInt32 := 10

/-- The delay of verification tasks. -/
def verifyEmailDelay : Duration := Duration.ofSeconds 10

/-- The least length of a secret in octets. -/
def minSecretLength : Nat := Verification.secretLength

/-- The greatest length of a secret in octets. -/
def maxSecretLength : Nat := 128

end Accounts

/-- The wording of a problem with an argument. -/
def ArgumentProblem.message : ArgumentProblem → String
  | .badId => "id must be a positive integer"
  | .badSecret =>
    "secret_code must contain from " ++ toString Accounts.minSecretLength ++ " to " ++
      toString Accounts.maxSecretLength ++ " characters"
  | .stated text => text

/-- The wording of an error of the accounts. -/
def AccountError.message : AccountError → String
  | .store cause => "account store error: " ++ cause.message
  | .invalidArgument problem => "invalid argument: " ++ problem.message
  | .distribute cause => "failed to distribute verify email task: " ++ cause.message

namespace Accounts

/-- The options of verification tasks submitted at `now`. -/
def verifyEmailOptions (now : Instant) : TaskOptions :=
  ((TaskOptions.empty.onQueue criticalQueue).withMaxRetry verifyEmailMaxRetry).delayedBy
    verifyEmailDelay now

/-- Stores an account and submits its verification task.  The account stays when the task is
refused. -/
def createUser (distributor : Distributor) (params : NewUser) :
    Procedure (Except AccountError User) := do
  match ← Procedure.request (.createUser params) with
  | .error error => return .error (.store error)
  | .ok user =>
    let now ← Procedure.request .clock
    match ← distributor.distribute ⟨user.username⟩ (verifyEmailOptions now) with
    | .error error => return .error (.distribute error)
    | .ok _ => return .ok user

/-- What is wrong with the arguments of a verification, if anything. -/
def argumentProblem (id : Int) (secretCode : String) : Option ArgumentProblem :=
  if id ≤ 0 then some .badId
  else if minSecretLength ≤ secretCode.utf8ByteSize && secretCode.utf8ByteSize ≤ maxSecretLength
  then none
  else some .badSecret

/-- Uses the verification record with an id. -/
def verifyEmail (id : Int) (secretCode : String) : Procedure (Except AccountError User) :=
  match argumentProblem id secretCode with
  | some problem => return .error (.invalidArgument problem)
  | none => do
    match ← Procedure.request (.verifyEmail id secretCode) with
    | .error error => return .error (.store error)
    | .ok user => return .ok user

end Accounts

end WorkQueue
