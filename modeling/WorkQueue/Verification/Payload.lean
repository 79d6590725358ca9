import WorkQueue.Json.Shape

/-!
# Payload of a verification task

A task that mails a verification link carries the name of the account whose address is to be
confirmed, as a JSON object of one field.
-/

namespace WorkQueue.Verification

open WorkQueue.Json

/-- The type of verification tasks. -/
def taskKind : String := "task:send_verification_email"

/-- The payload of a verification task. -/
structure Payload where
  username : String
  deriving DecidableEq

namespace Payload

/-- A payload as a JSON object. -/
def toJson (payload : Payload) : Json :=
  .object [("username", .text payload.username)]

/-- The octets of a payload. -/
def encode (payload : Payload) : List UInt8 :=
  Text.Utf8.encode payload.toJson.render

/-- The stored form of a payload. -/
def shape : Shape (Option String) Payload where
  members := [⟨"username", fun _ => return some (← readText)⟩]
  blank := none
  complete draft := draft.map Payload.mk

/-- The payload that octets stand for. -/
def decode (octets : List UInt8) : Except Fault Payload :=
  shape.read (Text.Utf8.decode octets)

end Payload

end WorkQueue.Verification
