import WorkQueue.Json.Access
import WorkQueue.Time.Timestamp

/-!
# Time in JSON

An instant is written as a timestamp, and a length of time as a list of its whole seconds and its
further nanoseconds.
-/

namespace WorkQueue.Json

/-- An instant as a value. -/
def ofInstant (t : Instant) : Json :=
  .text (Timestamp.render t)

/-- A length of time as a value. -/
def ofDuration (d : Duration) : Json :=
  .list [natural d.seconds, natural d.subNanos]

/-- The length of time that a value is. -/
def duration? (value : Json) : Option Duration :=
  (pair? natural? natural? value).map fun (seconds, nanos) => Duration.ofParts seconds nanos

end WorkQueue.Json
