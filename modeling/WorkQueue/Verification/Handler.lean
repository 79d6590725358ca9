import WorkQueue.Procedure
import WorkQueue.Text.Blank
import WorkQueue.Verification.Payload

/-!
# Handler of verification tasks

The handler looks the account up, records a new secret for it, and mails a link that carries the id
of the record and the secret.  What cannot get better is given up at once, and everything else is
left to another attempt.  It stops before mailing when it is told to.
-/

namespace WorkQueue.Verification

/-- The length of the secrets. -/
def secretLength : Nat := 32

/-- The subject of the message. -/
def subject : String := "Please verify your email address"

/-- The link for a verification record below a base address. -/
def link (baseUrl : String) (id : Int) (secretCode : String) : String :=
  Text.dropTrailing '/' baseUrl ++ "/verify_email?id=" ++ toString id ++ "&secret_code=" ++
    secretCode

/-- The body of the message. -/
def content (fullName url : String) : String :=
  "Hello " ++ fullName ++ ",<br/>Thank you for registering with us!<br/>Please <a href=\"" ++ url ++
    "\">click here</a> to verify your email address.<br/>"

/-- The message to an account about a verification record. -/
def message (baseUrl : String) (user : User) (record : VerifyEmail) : OutgoingEmail :=
  OutgoingEmail.plain subject
    (content user.fullName (link baseUrl record.id record.secretCode)) [user.email]

/-- The payload of a task; one that does not decode can never succeed. -/
def decodePayload (task : Task) : Except HandlerError Payload :=
  match Payload.decode task.payload with
  | .ok payload => .ok payload
  | .error fault =>
    .error (.skipRetry ("failed to decode task payload: " ++ (QueueError.encoding fault).message))

/-- What a failed look-up of an account means for the task. -/
def lookUpError (username : String) : StoreError → HandlerError
  | .notFound => .skipRetry ("user " ++ username ++ " doesn't exist")
  | error => .retry ("failed to get user: " ++ error.message)

/-- What a failed sending means for the task. -/
def sendError : MailError → HandlerError
  | .transient reason =>
    .retry ("failed to send verify email: " ++ (MailError.transient reason).message)
  | .rejected reason =>
    .skipRetry ("verify email rejected: " ++ (MailError.rejected reason).message)

/-- Records a secret for an account and mails the link. -/
def mailLink (baseUrl : String) (user : User) : Procedure (Except HandlerError Unit) := do
  let secretCode ← Procedure.request (.secret secretLength)
  match ← Procedure.request (.createVerifyEmail ⟨user.username, user.email, secretCode⟩) with
  | .error error => return .error (.retry ("failed to create verify email: " ++ error.message))
  | .ok record =>
    let stop : Bool ← Procedure.request .cancelled
    if stop then return .error .cancelled
    else
      match ← Procedure.request (.send (message baseUrl user record)) with
      | .error error => return .error (sendError error)
      | .ok () => return .ok ()

/-- The handler of verification tasks, whose links lie below a base address. -/
def handler (baseUrl : String) : Handler := fun _ task =>
  match decodePayload task with
  | .error error => return .error error
  | .ok payload => do
    match ← Procedure.request (.getUser payload.username) with
    | .error error => return .error (lookUpError payload.username error)
    | .ok user => mailLink baseUrl user

end WorkQueue.Verification
