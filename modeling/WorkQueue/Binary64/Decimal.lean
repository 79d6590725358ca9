import WorkQueue.Binary64.Basic
import WorkQueue.Text.Numeral

/-!
# Decimal texts of binary numbers

`ofDecimal` is the number nearest to a decimal fraction, `read` reads a text, and `render` writes
the shortest decimal that reads back as the number, in positional notation.
-/

namespace WorkQueue.Binary64

open WorkQueue.Text

/-! ## Reading -/

/-- How many decimal digits a natural number has. -/
def digitCount (n : Nat) : Nat :=
  (Nat.toDigits 10 n).length

/-- The number nearest to `digits * 10 ^ exponent`.  Exponents far outside the range of the format
are answered without computing the power. -/
def ofDecimal (negative : Bool) (digits : Nat) (exponent : Int) : Binary64 :=
  let top : Int := exponent + digitCount digits
  if digits = 0 || top < -400 then ofMagnitude negative 0
  else if 400 < top then infinity negative
  else if 0 ≤ exponent then ofRatio negative (digits * Nat.pow 10 exponent.toNat) 1
  else ofRatio negative digits (Nat.pow 10 (-exponent).toNat)

/-- Why a text is no number. -/
inductive DecimalError where
  | empty
  | malformed
  deriving DecidableEq

/-- The wording of a decimal error. -/
def DecimalError.message : DecimalError → String
  | .empty => "cannot parse float from empty string"
  | .malformed => "invalid float literal"

/-- The exponent at the end of a numeral: nothing, or an `e` and a signed number. -/
def readExponent (s : List Char) : Option Int :=
  let unsigned (s : List Char) : Option Nat :=
    match takeDigits s with
    | (n, count, []) => if count = 0 then none else some n
    | _ => none
  match s with
  | [] => some 0
  | c :: rest =>
    if c == 'e' || c == 'E' then
      match rest with
      | '+' :: more => (unsigned more).map Int.ofNat
      | '-' :: more => (unsigned more).map fun n => -(Int.ofNat n)
      | more => (unsigned more).map Int.ofNat
    else none

/-- Reads digits with an optional point and an optional exponent; at least one digit stands before
or after the point. -/
def readPositional (negative : Bool) (s : List Char) : Option Binary64 :=
  let (whole, wholeCount, rest) := takeDigits s
  let (digits, count, places, rest) :=
    match rest with
    | '.' :: more =>
      let (fraction, places, rest) := takeDigits more
      (whole * Nat.pow 10 places + fraction, wholeCount + places, places, rest)
    | rest => (whole, wholeCount, 0, rest)
  if count = 0 then none
  else (readExponent rest).map fun exponent => ofDecimal negative digits (exponent - places)

/-- Whether a text is a word, in any case. -/
def isWord (word : String) (s : List Char) : Bool :=
  s.map Char.toLower == word.toList

/-- Reads a number: a sign, then a word for infinity or for no number, or digits. -/
def read (s : List Char) : Except DecimalError Binary64 :=
  let (negative, body) :=
    match s with
    | '-' :: rest => (true, rest)
    | '+' :: rest => (false, rest)
    | rest => (false, rest)
  if s.isEmpty then .error .empty
  else if isWord "inf" body || isWord "infinity" body then .ok (infinity negative)
  else if isWord "nan" body then .ok notANumber
  else
    match readPositional negative body with
    | some x => .ok x
    | none => .error .malformed

/-! ## Writing -/

/-- The exponent of ten just above a positive number: `10 ^ (e - 1) ≤ num / den < 10 ^ e`. -/
def decimalTop (num den : Nat) : Int :=
  let guess : Int := (digitCount num : Int) - (digitCount den : Int)
  let below (e : Int) : Bool :=
    if 0 ≤ e then num < den * Nat.pow 10 e.toNat else num * Nat.pow 10 (-e).toNat < den
  if below guess then guess else guess + 1

/-- The decimal with `count` digits nearest to a positive finite number, if it or the neighbour on
the other side reads back as that number.  A power of ten is written with one digit. -/
def decimalWith (x : Binary64) (count : Nat) : Option (Nat × Int) :=
  let (num, den) := x.ratio
  let exponent := decimalTop num den - count
  let (n, d) :=
    if 0 ≤ exponent then (num, den * Nat.pow 10 exponent.toNat)
    else (num * Nat.pow 10 (-exponent).toNat, den)
  let low := n / d
  let readsBack (digits : Nat) : Bool :=
    (ofDecimal false digits exponent).magnitudeBits == x.magnitudeBits
  let written (digits : Nat) : Nat × Int :=
    if digits = Nat.pow 10 count then (1, exponent + count) else (digits, exponent)
  let nearer := if 2 * (n % d) < d then low else low + 1
  let other := if 2 * (n % d) < d then low + 1 else low
  if readsBack nearer then some (written nearer)
  else if readsBack other then some (written other)
  else none

/-- The shortest decimal, as digits and an exponent of ten, that reads back as a positive finite
number. -/
def shortest (x : Binary64) : Nat × Int :=
  ((List.range 17).findSome? fun k => decimalWith x (k + 1)).getD (0, 0)

/-- Digits with a power of ten, written out in positional notation. -/
def positional (digits : Nat) (exponent : Int) : List Char :=
  let text := Nat.toDigits 10 digits
  if 0 ≤ exponent then text ++ List.replicate exponent.toNat '0'
  else
    let places := (-exponent).toNat
    let padded := List.replicate (places + 1 - text.length) '0' ++ text
    padded.take (padded.length - places) ++ '.' :: padded.drop (padded.length - places)

/-- A number as text. -/
def render (x : Binary64) : String :=
  if x.isNaN then "NaN"
  else
    let body :=
      if x.isInfinite then "inf".toList
      else if x.isZero then ['0']
      else
        let (digits, exponent) := x.shortest
        positional digits exponent
    String.ofList (if x.isNegative then '-' :: body else body)

end WorkQueue.Binary64
