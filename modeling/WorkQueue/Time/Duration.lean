/-!
# Lengths of time

A length of time is a number of nanoseconds below `2 ^ 64` seconds.  Arithmetic that would leave the
range either says so (`scale?`) or stops at the greatest length (`ofNanos`).  `describe` writes a
length in the largest of four units that it fills.
-/

namespace WorkQueue

/-- The nanoseconds of a second. -/
def nanosPerSecond : Nat := 1000000000

/-- The nanoseconds of a millisecond. -/
def nanosPerMilli : Nat := 1000000

/-- A length of time in nanoseconds, less than `2 ^ 64` seconds. -/
structure Duration where
  nanos : Nat
  nanos_lt : nanos < 18446744073709551616 * 1000000000
  deriving DecidableEq

namespace Duration

/-- No time. -/
def zero : Duration := ⟨0, by decide⟩

/-- The greatest length. -/
def longest : Duration := ⟨18446744073709551616 * 1000000000 - 1, by decide⟩

instance : Inhabited Duration := ⟨zero⟩

instance : LE Duration := ⟨fun a b => a.nanos ≤ b.nanos⟩

instance : LT Duration := ⟨fun a b => a.nanos < b.nanos⟩

instance (a b : Duration) : Decidable (a ≤ b) := inferInstanceAs (Decidable (a.nanos ≤ b.nanos))

instance (a b : Duration) : Decidable (a < b) := inferInstanceAs (Decidable (a.nanos < b.nanos))

/-! ## Construction -/

/-- A length of `n` nanoseconds, unless that is out of range. -/
def ofNanos? (n : Nat) : Option Duration :=
  if h : n < 18446744073709551616 * 1000000000 then some ⟨n, h⟩ else none

/-- A length of `n` nanoseconds, or the greatest length if that is less. -/
def ofNanos (n : Nat) : Duration :=
  (ofNanos? n).getD longest

/-- A length of `n` seconds. -/
def ofSeconds (n : Nat) : Duration :=
  ofNanos (n * nanosPerSecond)

/-- A length of `n` milliseconds. -/
def ofMillis (n : Nat) : Duration :=
  ofNanos (n * nanosPerMilli)

/-- A length of whole seconds and further nanoseconds. -/
def ofParts (seconds nanos : Nat) : Duration :=
  ofNanos (seconds * nanosPerSecond + nanos)

/-! ## Parts -/

/-- The whole seconds of a length. -/
def seconds (d : Duration) : Nat :=
  d.nanos / nanosPerSecond

/-- The nanoseconds beyond the whole seconds of a length. -/
def subNanos (d : Duration) : Nat :=
  d.nanos % nanosPerSecond

/-- The whole milliseconds of a length. -/
def millis (d : Duration) : Nat :=
  d.nanos / nanosPerMilli

/-! ## Arithmetic -/

/-- A length taken `factor` times, unless that is out of range. -/
def scale? (d : Duration) (factor : Nat) : Option Duration :=
  ofNanos? (d.nanos * factor)

/-- The sum of two lengths, or the greatest length if that is less. -/
def add (a b : Duration) : Duration :=
  ofNanos (a.nanos + b.nanos)

/-- The lesser of two lengths. -/
def shorter (a b : Duration) : Duration :=
  if a ≤ b then a else b

/-! ## Writing -/

/-- A number of units as text: whole units, then a point and the fraction without its trailing
zeros, if there is one.  A unit holds `10 ^ places` nanoseconds. -/
def describeIn (places : Nat) (unit : String) (nanos : Nat) : String :=
  let whole := Nat.toDigits 10 (nanos / Nat.pow 10 places)
  let rest := Nat.toDigits 10 (nanos % Nat.pow 10 places)
  let fraction := List.replicate (places - rest.length) '0' ++ rest
  let shown := (fraction.reverse.dropWhile (· == '0')).reverse
  let point := if shown.isEmpty then [] else '.' :: shown
  String.ofList (whole ++ point) ++ unit

/-- A length in seconds, milliseconds, microseconds or nanoseconds: the largest unit that it fills,
and nanoseconds for no time at all. -/
def describe (d : Duration) : String :=
  if nanosPerSecond ≤ d.nanos then describeIn 9 "s" d.nanos
  else if nanosPerMilli ≤ d.nanos then describeIn 6 "ms" d.nanos
  else if 1000 ≤ d.nanos then describeIn 3 "µs" d.nanos
  else describeIn 0 "ns" d.nanos

end Duration

end WorkQueue
