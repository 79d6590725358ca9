import WorkQueue.Json.Time
import WorkQueue.Procedure
import WorkQueue.Task.Options
import WorkQueue.Text.Blank
import WorkQueue.Verification.Payload

/-!
# Submission of tasks

A submission ends when the broker has accepted the task or refused it; it says nothing about the
task's execution.  Before the broker is asked, the names are checked and the payload is encoded.
-/

namespace WorkQueue

/-- What a submitter learns about an accepted task. -/
structure Receipt where
  id : String
  queue : String
  maxRetry : UInt32
  processAt : Option Instant
  deriving DecidableEq

/-- The receipt of a task. -/
def Receipt.ofTask (task : Task) : Receipt :=
  ⟨task.id, task.queue, task.maxRetry, task.processAt⟩

/-- A receipt as a JSON object. -/
def Receipt.toJson (receipt : Receipt) : Json :=
  .object
    [("id", .text receipt.id),
     ("queue", .text receipt.queue),
     ("max_retry", .natural receipt.maxRetry.toNat),
     ("process_at", .ofOption .ofInstant receipt.processAt)]

/-- A payload that is handed over: what comes of encoding it, its octets or a fault.  A submission
looks at nothing else of it. -/
structure Content where
  encode : Except Json.Fault (List UInt8)

namespace Content

/-- A document as a payload. -/
def document (value : Json) : Content :=
  ⟨.ok (Text.Utf8.encode value.render)⟩

/-- A key of a mapping as the name of a field.  Texts, integers, truth values and finite numbers can
be names. -/
def fieldName? : Json → Option String
  | .text s => some s
  | .integer n => some (toString n)
  | .bool value => some (toString value)
  | .real x => if x.isNaN || x.isInfinite then none else some (String.ofList (Json.writeReal x))
  | _ => none

/-- A mapping whose keys may be of any kind as a payload.  One key that cannot be the name of a
field is a fault of the whole. -/
def mapping (entries : List (Json × Json)) : Content :=
  let fields := entries.mapM fun entry => do
    return (← fieldName? entry.1, entry.2)
  match fields with
  | some fields => document (.object fields)
  | none => ⟨.error .malformed⟩

end Content

/-- Where tasks are submitted: the budget of retries of those that name none. -/
structure Distributor where
  defaultMaxRetry : UInt32

namespace Distributor

/-- Whether the names of a submission are in order, and the octets of its payload. -/
def check (kind : String) (content : Content) (options : TaskOptions) :
    Except QueueError (List UInt8) :=
  if Text.isBlankText kind then .error (.enqueue .blankKind)
  else if (options.queue.map Text.isBlankText).getD false then .error (.enqueue .blankQueue)
  else content.encode.mapError .encoding

/-- What a refusal of the broker is to the submitter. -/
def refusal : QueueError → QueueError
  | .enqueue refusal => .enqueue refusal
  | other => .enqueue (.stated other.message)

/-- Submits a prepared task. -/
def submitTask (task : Task) : Procedure (Except QueueError Receipt) := do
  match ← Procedure.request (.enqueue task) with
  | .ok () => return .ok (Receipt.ofTask task)
  | .error error => return .error (refusal error)

/-- Makes a task out of a payload and submits it. -/
def submit (distributor : Distributor) (kind : String) (content : Content)
    (options : TaskOptions) : Procedure (Except QueueError Receipt) :=
  match check kind content options with
  | .error error => return .error error
  | .ok payload => do
    let id ← Procedure.request .freshId
    let now ← Procedure.request .clock
    submitTask (Task.withOptions id kind payload options distributor.defaultMaxRetry now)

/-- Submits a verification task. -/
def distribute (distributor : Distributor) (payload : Verification.Payload)
    (options : TaskOptions) : Procedure (Except QueueError Receipt) :=
  distributor.submit Verification.taskKind (.document payload.toJson) options

end Distributor

end WorkQueue
