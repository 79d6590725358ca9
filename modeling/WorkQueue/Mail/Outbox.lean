/-!
# Mail

Messages are handed to a mailer, which keeps those that it accepts in the order of their sending.
It refuses a message that goes to no one and one whose attachments are not there.
-/

namespace WorkQueue

/-- A message. -/
structure OutgoingEmail where
  subject : String
  content : String
  recipients : List String
  cc : List String
  bcc : List String
  attachFiles : List String
  deriving DecidableEq

/-- A message without copies and attachments. -/
def OutgoingEmail.plain (subject content : String) (recipients : List String) : OutgoingEmail :=
  ⟨subject, content, recipients, [], [], []⟩

/-- An error of the mailer. -/
inductive MailError where
  /-- Sending again may succeed. -/
  | transient (reason : String)
  /-- The message is refused for good. -/
  | rejected (reason : String)
  deriving DecidableEq

/-- The wording of an error of the mailer. -/
def MailError.message : MailError → String
  | .transient reason => "transient mail failure: " ++ reason
  | .rejected reason => "mail rejected: " ++ reason

/-- A mailer: whom it sends as, which files there are to attach, and what it sent. -/
structure Mailer where
  senderName : String
  senderAddress : String
  hasFile : String → Bool
  sent : List OutgoingEmail

namespace Mailer

/-- Accepts a message or refuses it. -/
def send (mailer : Mailer) (email : OutgoingEmail) : Except MailError Mailer :=
  if email.recipients.isEmpty && email.cc.isEmpty && email.bcc.isEmpty then
    .error (.rejected "message has no recipients")
  else
    match email.attachFiles.find? fun file => !mailer.hasFile file with
    | some missing => .error (.rejected ("failed to attach file " ++ missing))
    | none => .ok { mailer with sent := mailer.sent ++ [email] }

/-- The header that says whom the mailer sends as. -/
def fromHeader (mailer : Mailer) : String :=
  mailer.senderName ++ " <" ++ mailer.senderAddress ++ ">"

end Mailer

end WorkQueue
