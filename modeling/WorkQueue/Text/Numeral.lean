/-!
# Unsigned numerals

Numbers in the environment and in settings are decimal numerals with an optional plus sign and no
other ornament.  `readNat` reads one against a limit and says what is wrong otherwise; a numeral is
refused for its first wrong character before its size is looked at, as long as the digits before
that character are within the limit.
-/

namespace WorkQueue.Text

/-- The number of values of a 32-bit field. -/
def bound32 : Nat := 4294967296

/-- The number of values of a 64-bit field. -/
def bound64 : Nat := 18446744073709551616

/-- Why a text is no numeral for a field. -/
inductive NumeralError where
  | empty
  | invalidDigit
  | tooLarge
  deriving DecidableEq

/-- The wording of a numeral error. -/
def NumeralError.message : NumeralError → String
  | .empty => "cannot parse integer from empty string"
  | .invalidDigit => "invalid digit found in string"
  | .tooLarge => "number too large to fit in target type"

/-- The value of a decimal digit. -/
def digitValue? (c : Char) : Option Nat :=
  if '0' ≤ c && c ≤ '9' then some (c.toNat - 48) else none

/-- The digits at the head of a text, as a number and a count, and the rest of the text. -/
def takeDigits (s : List Char) : Nat × Nat × List Char :=
  let digits := s.takeWhile fun c => (digitValue? c).isSome
  (digits.foldl (fun n c => n * 10 + (digitValue? c).getD 0) 0, digits.length,
    s.drop digits.length)

/-- Reads digits onto `value`, which stays below `bound`. -/
def readDigits (bound : Nat) : Nat → List Char → Except NumeralError Nat
  | value, [] => .ok value
  | value, c :: rest =>
    match digitValue? c with
    | none => .error .invalidDigit
    | some d =>
      if value * 10 + d < bound then readDigits bound (value * 10 + d) rest
      else .error .tooLarge

/-- Reads a numeral whose value is below `bound`. -/
def readNat (bound : Nat) (s : List Char) : Except NumeralError Nat :=
  match s with
  | [] => .error .empty
  | ['+'] => .error .invalidDigit
  | ['-'] => .error .invalidDigit
  | '+' :: digits => readDigits bound 0 digits
  | digits => readDigits bound 0 digits

end WorkQueue.Text
