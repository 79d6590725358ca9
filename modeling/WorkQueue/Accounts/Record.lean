import WorkQueue.Accounts.Store
import WorkQueue.Json.Time

/-!
# Accounts as JSON

The written forms of accounts and of verification records: an object of the fields of each.
-/

namespace WorkQueue

/-- An account as a JSON object. -/
def User.toJson (user : User) : Json :=
  .object
    [("username", .text user.username),
     ("full_name", .text user.fullName),
     ("email", .text user.email),
     ("is_email_verified", .bool user.isEmailVerified),
     ("created_at", .ofInstant user.createdAt)]

/-- A verification record as a JSON object. -/
def VerifyEmail.toJson (record : VerifyEmail) : Json :=
  .object
    [("id", .integer record.id),
     ("username", .text record.username),
     ("email", .text record.email),
     ("secret_code", .text record.secretCode),
     ("is_used", .bool record.isUsed),
     ("created_at", .ofInstant record.createdAt),
     ("expired_at", .ofInstant record.expiredAt)]

end WorkQueue
