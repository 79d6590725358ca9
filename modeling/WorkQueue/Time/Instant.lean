import WorkQueue.Time.Duration

/-!
# Instants

A point of time is a second counted from the start of 1970 and the nanoseconds since that second.
A leap second is kept in the second before it, with a thousand million nanoseconds or more; the
order is by seconds first, so that it stands where it belongs.  Seconds range over the years from
-262143 to 262142, and an instant that would come later is the latest one.
-/

namespace WorkQueue

/-- The first second of the year -262143. -/
def earliestSecond : Int := -8334601228800

/-- The last second of the year 262142. -/
def latestSecond : Int := 8210266876799

/-- A point of time. -/
structure Instant where
  second : Int
  nano : Nat
  le_second : earliestSecond ≤ second
  second_le : second ≤ latestSecond
  nano_lt : nano < 2000000000
  deriving DecidableEq

namespace Instant

/-- The place of an instant in the order of time. -/
def rank (t : Instant) : Int :=
  t.second * 2000000000 + t.nano

instance : LE Instant := ⟨fun a b => a.rank ≤ b.rank⟩

instance : LT Instant := ⟨fun a b => a.rank < b.rank⟩

instance (a b : Instant) : Decidable (a ≤ b) := inferInstanceAs (Decidable (a.rank ≤ b.rank))

instance (a b : Instant) : Decidable (a < b) := inferInstanceAs (Decidable (a.rank < b.rank))

/-- The latest instant. -/
def latest : Instant :=
  ⟨latestSecond, 999999999, by decide, by decide, by decide⟩

/-- The earliest instant. -/
def earliest : Instant :=
  ⟨earliestSecond, 0, by decide, by decide, by decide⟩

/-- The start of 1970. -/
def epoch : Instant :=
  ⟨0, 0, by decide, by decide, by decide⟩

instance : Inhabited Instant := ⟨epoch⟩

/-- The instant with a second and nanoseconds, if it is in range. -/
def make? (second : Int) (nano : Nat) : Option Instant :=
  if h : earliestSecond ≤ second ∧ second ≤ latestSecond ∧ nano < 2000000000 then
    some ⟨second, nano, h.1, h.2.1, h.2.2⟩
  else none

/-- The instant a number of nanoseconds after the start of 1970, or the nearest one in range. -/
def ofNanos (n : Int) : Instant :=
  match make? (n / 1000000000) (n % 1000000000).toNat with
  | some t => t
  | none => if n < 0 then earliest else latest

/-- The instant a number of milliseconds after the start of 1970. -/
def ofMillis (n : Int) : Instant :=
  ofNanos (n * 1000000)

/-- The instant `d` after `t`, or the latest one if that would be later still. -/
def after (t : Instant) (d : Duration) : Instant :=
  let nanos := t.nano + d.nanos
  match make? (t.second + nanos / 1000000000) (nanos % 1000000000) with
  | some later => later
  | none => latest

/-- The instant a number of nanoseconds after `t`, or before it if the number is negative, if it is
in range. -/
def shift? (t : Instant) (nanos : Int) : Option Instant :=
  let reached := t.second * 1000000000 + t.nano + nanos
  make? (reached / 1000000000) (reached % 1000000000).toNat

end Instant

end WorkQueue
