import WorkQueue.Binary64.Basic
import WorkQueue.Time.Duration

/-!
# Delays before retries

The delay before a retry doubles with every retry that was made, up to a greatest delay, and is
lengthened at random by at most a share of itself, so that tasks that failed together do not come
back together.
-/

namespace WorkQueue

/-- How long to wait before a retry. -/
structure RetryPolicy where
  /-- The delay before the first retry. -/
  base : Duration
  /-- The greatest delay. -/
  limit : Duration
  /-- The share of a delay by which it may be lengthened. -/
  jitter : Binary64

namespace RetryPolicy

/-- How often a delay doubles at most. -/
def maxDoublings : Nat := 31

/-- A policy; the jitter is moved into the interval from zero to one. -/
def make (base limit : Duration) (jitter : Binary64) : RetryPolicy where
  base := base
  limit := limit
  jitter := Binary64.clamp Binary64.zero Binary64.one jitter

/-- A policy without jitter. -/
def fixed (base limit : Duration) : RetryPolicy :=
  make base limit Binary64.zero

/-- One second, doubling up to ten minutes, with a fifth of jitter. -/
def standard : RetryPolicy :=
  make (Duration.ofSeconds 1) (Duration.ofSeconds 600) ⟨0x3FC999999999999A⟩

/-- The delay after `retryCount` retries, without jitter. -/
def baseBackoff (policy : RetryPolicy) (retryCount : Nat) : Duration :=
  match policy.base.scale? (Nat.pow 2 (min retryCount maxDoublings)) with
  | some delay => delay.shorter policy.limit
  | none => policy.limit

/-- The greatest draw of a lengthening. -/
def drawLimit : Nat := Nat.pow 2 53

/-- The lengthening of a delay for a draw from zero to `drawLimit`: that share of the jitter,
rounded to whole nanoseconds. -/
def lengthening (policy : RetryPolicy) (delay : Duration) (draw : Nat) : Duration :=
  let (num, den) := policy.jitter.ratio
  Duration.ofNanos
    (Binary64.roundToEven (delay.nanos * num * min draw drawLimit) (den * drawLimit))

/-- A delay lengthened by `extra`, up to the greatest delay. -/
def lengthened (policy : RetryPolicy) (delay extra : Duration) : Duration :=
  (delay.add extra).shorter policy.limit

/-- The delay after `retryCount` retries, for a draw from zero to `drawLimit`. -/
def backoff (policy : RetryPolicy) (retryCount draw : Nat) : Duration :=
  let delay := policy.baseBackoff retryCount
  if policy.jitter.isZero || delay.nanos = 0 then delay
  else policy.lengthened delay (policy.lengthening delay draw)

/-- Whether two policies are the same. -/
def same (a b : RetryPolicy) : Bool :=
  decide (a.base = b.base) && decide (a.limit = b.limit) && a.jitter.same b.jitter

end RetryPolicy

end WorkQueue
