import WorkQueue.Text.Blank
import WorkQueue.Text.Numeral
import WorkQueue.Time.Calendar
import WorkQueue.Time.Instant

/-!
# Timestamps

The written form of an instant is a date, a `T`, a time of day and a `Z`, with the fewest of zero,
three, six or nine digits of fraction that are exact.  Reading is more lenient: parts may be short
or stand apart by blanks, the two halves may be joined by a blank, and the time may be given with an
offset from universal time.
-/

namespace WorkQueue.Timestamp

open WorkQueue.Text WorkQueue.Calendar

/-! ## Writing -/

/-- The digits of a number, padded with zeros to `width`. -/
def padded (width n : Nat) : List Char :=
  let digits := Nat.toDigits 10 n
  List.replicate (width - digits.length) '0' ++ digits

/-- A year: four digits, or a sign and at least five characters outside the range of four. -/
def writeYear (year : Int) : List Char :=
  if 0 ≤ year ∧ year ≤ 9999 then padded 4 year.toNat
  else (if year < 0 then '-' else '+') :: padded 4 year.natAbs

/-- The fraction of a second, with its point. -/
def writeFraction (nano : Nat) : List Char :=
  if nano = 0 then []
  else if nano % 1000000 = 0 then '.' :: padded 3 (nano / 1000000)
  else if nano % 1000 = 0 then '.' :: padded 6 (nano / 1000)
  else '.' :: padded 9 nano

/-- An instant as text, in universal time. -/
def write (t : Instant) : List Char :=
  let date := ofDayNumber (t.second / 86400)
  let ofDay := (t.second % 86400).toNat
  let (second, nano) :=
    if 1000000000 ≤ t.nano then (ofDay % 60 + 1, t.nano - 1000000000) else (ofDay % 60, t.nano)
  writeYear date.year ++ '-' :: padded 2 date.month ++ '-' :: padded 2 date.day ++
    'T' :: padded 2 (ofDay / 3600) ++ ':' :: padded 2 (ofDay / 60 % 60) ++
    ':' :: padded 2 second ++ writeFraction nano ++ ['Z']

/-- An instant as a string. -/
def render (t : Instant) : String :=
  String.ofList (write t)

/-! ## Reading -/

/-- The number written by at most `most` digits at the head of a text, and the rest. -/
def number (most : Nat) (s : List Char) : Option (Nat × List Char) :=
  let (n, count, _) := takeDigits (s.take most)
  if count = 0 then none else some (n, s.drop count)

/-- A number of one or two digits between `low` and `high`, after blanks. -/
def field (low high : Nat) (s : List Char) : Option (Nat × List Char) := do
  let (n, rest) ← number 2 (trimStart s)
  if low ≤ n && n ≤ high then some (n, rest) else none

/-- A year, after blanks: up to four digits, or a sign and any number of them. -/
def readYear (s : List Char) : Option (Int × List Char) :=
  match trimStart s with
  | '-' :: rest => (number rest.length rest).map fun (n, rest) => (-(n : Int), rest)
  | '+' :: rest => (number rest.length rest).map fun (n, rest) => ((n : Int), rest)
  | rest => (number 4 rest).map fun (n, rest) => ((n : Int), rest)

/-- What follows the character `c`, which may stand after blanks. -/
def mark (c : Char) (s : List Char) : Option (List Char) :=
  match trimStart s with
  | d :: rest => if d == c then some rest else none
  | [] => none

/-- A date that exists. -/
def readDate (s : List Char) : Option (Date × List Char) := do
  let (year, s) ← readYear s
  let s ← mark '-' s
  let (month, s) ← field 1 12 s
  let s ← mark '-' s
  let (day, s) ← field 1 31 s
  if -262143 ≤ year && year ≤ 262142 && day ≤ monthLength year month then
    some (⟨year, month, day⟩, s)
  else none

/-- The fraction of a second in nanoseconds: nothing, or a point and digits, of which nine count. -/
def readFraction (s : List Char) : Option (Nat × List Char) :=
  match s with
  | '.' :: rest =>
    let (n, count, _) := takeDigits (rest.take 9)
    if count = 0 then none else some (n * Nat.pow 10 (9 - count), (takeDigits rest).2.2)
  | rest => some (0, rest)

/-- A time of day in seconds and nanoseconds; the second 60 is the leap second of its minute. -/
def readTime (s : List Char) : Option (Nat × Nat × List Char) := do
  let (hour, s) ← field 0 23 s
  let s ← mark ':' s
  let (minute, s) ← field 0 59 s
  let s ← mark ':' s
  let (second, s) ← field 0 60 s
  let (nano, s) ← readFraction s
  let ofMinute := hour * 3600 + minute * 60
  if second = 60 then some (ofMinute + 59, nano + 1000000000, s)
  else some (ofMinute + second, nano, s)

/-- Exactly two digits. -/
def twoDigits (s : List Char) : Option (Nat × List Char) :=
  match s with
  | a :: b :: rest => do some ((← digitValue? a) * 10 + (← digitValue? b), rest)
  | _ => none

/-- Hours and minutes of an offset in seconds; between them stand any colons and blanks. -/
def readOffsetLength (s : List Char) : Option (Nat × List Char) := do
  let (hours, s) ← twoDigits s
  let (minutes, s) ← twoDigits (s.dropWhile fun c => c == ':' || isBlank c)
  if hours < 24 && minutes < 60 then some (hours * 3600 + minutes * 60, s) else none

/-- The offset from universal time in seconds: `Z`, `UTC`, or a sign and a length. -/
def readOffset (s : List Char) : Option (Int × List Char) :=
  match s with
  | 'Z' :: rest => some (0, rest)
  | 'z' :: rest => some (0, rest)
  | '+' :: rest => (readOffsetLength rest).map fun (n, rest) => ((n : Int), rest)
  | '-' :: rest => (readOffsetLength rest).map fun (n, rest) => (-(n : Int), rest)
  | '\u2212' :: rest => (readOffsetLength rest).map fun (n, rest) => (-(n : Int), rest)
  | u :: t :: c :: rest =>
    if [u, t, c].map Char.toUpper == ['U', 'T', 'C'] then some (0, rest) else none
  | _ => none

/-- The instant that a text stands for. -/
def read (s : List Char) : Option Instant := do
  let (date, s) ← readDate s
  let s ←
    match s with
    | 'T' :: rest => some rest
    | 't' :: rest => some rest
    | ' ' :: rest => some rest
    | _ => none
  let (second, nano, s) ← readTime s
  let (offset, s) ← readOffset (trimStart s)
  if s.all isBlank then Instant.make? (dayNumber date * 86400 + second - offset) nano else none

end WorkQueue.Timestamp
