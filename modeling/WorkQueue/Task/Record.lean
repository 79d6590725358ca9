import WorkQueue.Json.Shape
import WorkQueue.Json.Time
import WorkQueue.Task.Basic
import WorkQueue.Text.Numeral

/-!
# Tasks as JSON

The stored form of a task is a JSON object of its fields.  `toJson` writes it and `ofText` reads
it; the token of a claim is left out when there is none, and all other fields are always there.
-/

namespace WorkQueue.Task

open WorkQueue.Json

/-! ## Writing -/

/-- The token of a claim as a field, if there is one. -/
def leaseField (lease : Option Nat) : List (String × Json) :=
  match lease with
  | some token => [("lease_id", .natural token)]
  | none => []

/-- A task as a JSON object. -/
def toJson (task : Task) : Json :=
  .object <|
    [("id", .text task.id),
     ("task_type", .text task.kind),
     ("payload", .list (task.payload.map fun octet => .natural octet.toNat)),
     ("queue", .text task.queue),
     ("max_retry", .natural task.maxRetry.toNat),
     ("retry_count", .natural task.retryCount.toNat),
     ("process_at", .ofOption ofInstant task.processAt),
     ("state", .text task.state.name),
     ("last_error", .ofOption .text task.lastError)] ++
    leaseField task.lease ++
    [("created_at", ofInstant task.createdAt),
     ("updated_at", ofInstant task.updatedAt)]

/-- A task as text. -/
def render (task : Task) : String :=
  task.toJson.render

/-! ## Reading -/

/-- The fields of a task that were read so far. -/
structure Draft where
  id : Option String
  kind : Option String
  payload : Option (List UInt8)
  queue : Option String
  maxRetry : Option UInt32
  retryCount : Option UInt32
  processAt : Option Instant
  state : Option TaskState
  lastError : Option String
  lease : Option Nat
  createdAt : Option Instant
  updatedAt : Option Instant

/-- A draft without any field. -/
def Draft.blank : Draft :=
  ⟨none, none, none, none, none, none, none, none, none, none, none, none⟩

/-- The task of a draft that has every field that a task cannot do without. -/
def Draft.complete (draft : Draft) : Option Task := do
  return {
    id := ← draft.id
    kind := ← draft.kind
    payload := ← draft.payload
    queue := ← draft.queue
    maxRetry := ← draft.maxRetry
    retryCount := ← draft.retryCount
    processAt := draft.processAt
    state := ← draft.state
    lastError := draft.lastError
    lease := draft.lease
    createdAt := ← draft.createdAt
    updatedAt := ← draft.updatedAt }

/-- Reads a count. -/
def readCount : Reader UInt32 := do
  return UInt32.ofNat (← readNatural Text.bound32)

/-- Reads an instant. -/
def readInstant : Reader Instant :=
  readParsed Timestamp.read

/-- The fields of a task and how they are read. -/
def members : List (Member Draft) :=
  [⟨"id", fun d => return { d with id := some (← readText) }⟩,
   ⟨"task_type", fun d => return { d with kind := some (← readText) }⟩,
   ⟨"payload", fun d => return { d with payload := some (← readOctets) }⟩,
   ⟨"queue", fun d => return { d with queue := some (← readText) }⟩,
   ⟨"max_retry", fun d => return { d with maxRetry := some (← readCount) }⟩,
   ⟨"retry_count", fun d => return { d with retryCount := some (← readCount) }⟩,
   ⟨"process_at", fun d => return { d with processAt := ← readNullable readInstant }⟩,
   ⟨"state", fun d => return { d with state := some (← readChoice TaskState.ofName?) }⟩,
   ⟨"last_error", fun d => return { d with lastError := ← readNullable readText }⟩,
   ⟨"lease_id", fun d => return { d with lease := ← readNullable (readNatural Text.bound64) }⟩,
   ⟨"created_at", fun d => return { d with createdAt := some (← readInstant) }⟩,
   ⟨"updated_at", fun d => return { d with updatedAt := some (← readInstant) }⟩]

/-- The stored form of a task. -/
def shape : Shape Draft Task where
  members := members
  blank := Draft.blank
  complete := Draft.complete

/-- The task that a text stands for. -/
def ofText (text : String) : Except Fault Task :=
  shape.read (Text.symbols text)

end WorkQueue.Task
