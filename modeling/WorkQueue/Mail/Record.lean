import WorkQueue.Json.Access
import WorkQueue.Mail.Outbox

/-!
# Messages as JSON

A message is an object of its fields; lists that are not given are empty.
-/

namespace WorkQueue.OutgoingEmail

/-- A message as a JSON object. -/
def toJson (email : OutgoingEmail) : Json :=
  .object
    [("subject", .text email.subject),
     ("content", .text email.content),
     ("to", .list (email.recipients.map .text)),
     ("cc", .list (email.cc.map .text)),
     ("bcc", .list (email.bcc.map .text)),
     ("attach_files", .list (email.attachFiles.map .text))]

/-- The message that a JSON value is. -/
def ofJson? (value : Json) : Option OutgoingEmail := do
  let texts := Json.withDefault (Json.items? Json.text?) []
  return {
    subject := ← Json.required Json.text? "subject" value
    content := ← Json.required Json.text? "content" value
    recipients := ← texts "to" value
    cc := ← texts "cc" value
    bcc := ← texts "bcc" value
    attachFiles := ← texts "attach_files" value }

end WorkQueue.OutgoingEmail
