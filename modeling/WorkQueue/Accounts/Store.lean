import WorkQueue.Table
import WorkQueue.Time.Instant

/-!
# Store of accounts

Accounts have a name and an address, both unique.  A verification record binds a secret to an
account for a while; showing the secret once, in time, marks the address of the account as verified.
An operation that fails leaves the store as it was, and so does one whose caller crashes: whoever
makes a record that would expire when no instant is left does.
-/

namespace WorkQueue

/-- A registered account. -/
structure User where
  username : String
  fullName : String
  email : String
  isEmailVerified : Bool
  createdAt : Instant
  deriving DecidableEq

/-- What is needed for a new account. -/
structure NewUser where
  username : String
  fullName : String
  email : String
  deriving DecidableEq

/-- An address waiting to be confirmed. -/
structure VerifyEmail where
  id : Int
  username : String
  email : String
  secretCode : String
  isUsed : Bool
  createdAt : Instant
  expiredAt : Instant
  deriving DecidableEq

/-- What is needed for a new verification record. -/
structure NewVerifyEmail where
  username : String
  email : String
  secretCode : String
  deriving DecidableEq

/-- An error of the store. -/
inductive StoreError where
  /-- There is no such record. -/
  | notFound
  /-- The value of a unique field is taken. -/
  | uniqueViolation (constraint : String)
  /-- The store failed. -/
  | unavailable (reason : String)
  /-- The secret is not that of the record. -/
  | secretMismatch
  /-- The record is too old. -/
  | linkExpired
  /-- The record was used before. -/
  | linkUsed
  deriving DecidableEq

/-- The wording of an error of the store. -/
def StoreError.message : StoreError → String
  | .notFound => "record not found"
  | .uniqueViolation constraint => "unique violation: " ++ constraint
  | .unavailable reason => "store unavailable: " ++ reason
  | .secretMismatch => "verification secret does not match"
  | .linkExpired => "verification link expired"
  | .linkUsed => "verification link already used"

/-- The accounts by name, the verification records in the order of their making, and how many
nanoseconds a record is valid. -/
structure Store where
  users : Table User
  records : List VerifyEmail
  lifetime : Int

namespace Store

/-- How many milliseconds a record is valid unless the store says otherwise. -/
def standardLifetime : Int := 15 * 60 * 1000

/-- A store without accounts whose records are valid for a number of nanoseconds. -/
def lasting (lifetime : Int) : Store := ⟨[], [], lifetime⟩

/-- A store without accounts whose records are valid for a number of milliseconds. -/
def empty (millis : Int) : Store := lasting (millis * 1000000)

/-- The account with a name. -/
def getUser (store : Store) (username : String) : Except StoreError User :=
  match Table.get? username store.users with
  | some user => .ok user
  | none => .error .notFound

/-- Adds an account whose name and address are free. -/
def createUser (store : Store) (params : NewUser) (now : Instant) :
    Except StoreError (User × Store) :=
  if Table.has params.username store.users then .error (.uniqueViolation "users_pkey")
  else if store.users.any fun entry => entry.2.email == params.email then
    .error (.uniqueViolation "users_email_key")
  else
    let user : User := ⟨params.username, params.fullName, params.email, false, now⟩
    .ok (user, { store with users := Table.put user.username user store.users })

/-- Adds a verification record without looking for its account, unless there is no instant at which
it would expire. -/
def addRecord? (store : Store) (params : NewVerifyEmail) (now : Instant) :
    Option (VerifyEmail × Store) := do
  let expiredAt ← now.shift? store.lifetime
  let record : VerifyEmail :=
    { id := store.records.length + 1
      username := params.username
      email := params.email
      secretCode := params.secretCode
      isUsed := false
      createdAt := now
      expiredAt }
  return (record, { store with records := store.records ++ [record] })

/-- Whether whoever adds a verification record of an account crashes. -/
def crashes (store : Store) (params : NewVerifyEmail) (now : Instant) : Bool :=
  Table.has params.username store.users && (store.addRecord? params now).isNone

/-- The message of such a crash. -/
def crashMessage : String := "`DateTime + TimeDelta` overflowed"

/-- Adds a verification record of an account.  A crash is shown to the code outside the pool as an
error that says so. -/
def createVerifyEmail (store : Store) (params : NewVerifyEmail) (now : Instant) :
    Except StoreError (VerifyEmail × Store) :=
  if Table.has params.username store.users then
    match store.addRecord? params now with
    | some made => .ok made
    | none => .error (.unavailable crashMessage)
  else .error .notFound

/-- The records with the one of an id marked as used. -/
def useRecord (id : Int) (records : List VerifyEmail) : List VerifyEmail :=
  records.map fun record => if record.id = id then { record with isUsed := true } else record

/-- Uses the record with an id and marks the address of its account as verified. -/
def verifyEmail (store : Store) (id : Int) (secretCode : String) (now : Instant) :
    Except StoreError (User × Store) :=
  match store.records.find? fun record => record.id = id with
  | none => .error .notFound
  | some record =>
    if record.secretCode ≠ secretCode then .error .secretMismatch
    else if record.isUsed then .error .linkUsed
    else if record.expiredAt ≤ now then .error .linkExpired
    else
      match Table.get? record.username store.users with
      | none => .error .notFound
      | some user =>
        let user := { user with isEmailVerified := true }
        .ok (user,
          { store with
            users := Table.put record.username user store.users
            records := useRecord record.id store.records })

/-- The records of an account, oldest first. -/
def verifyEmailsFor (store : Store) (username : String) : List VerifyEmail :=
  store.records.filter fun record => record.username == username

end Store

end WorkQueue
