import WorkQueue.Json.Basic
import WorkQueue.Text.Utf8

/-!
# Reading JSON from left to right

A reader takes symbols off the front of a text and stops at the first thing that is wrong.  What is
wrong is one of three: the text ends early, it is no JSON, or it is JSON of the wrong shape.  This
module reads the tokens; `Json.Shape` reads records of known fields and `Json.Document` whole
values.
-/

namespace WorkQueue.Json

open WorkQueue.Text

/-- What is wrong with a text. -/
inductive Fault where
  /-- The text is JSON, but not of the wanted shape. -/
  | data
  /-- The text is no JSON. -/
  | malformed
  /-- The text ends early. -/
  | truncated
  deriving DecidableEq

/-- A reader of values of one type. -/
abbrev Reader (α : Type) := StateT (List Symbol) (Except Fault) α

/-! ## Blanks and single characters -/

/-- Whether a symbol may stand between tokens. -/
def isSpace : Symbol → Bool
  | .char c => c == ' ' || c == '\n' || c == '\t' || c == '\r'
  | .damaged _ => false

/-- The next symbol that is not a space, which stays unread. -/
def peek : Reader (Option Symbol) := do
  let rest := (← get).dropWhile isSpace
  set rest
  return rest.head?

/-- Takes the next symbol off, whatever it is. -/
def skip : Reader Unit :=
  modify (·.drop 1)

/-- Reads a keyword letter by letter. -/
def keyword : List Char → Reader Unit
  | [] => return
  | c :: more => do
    match ← get with
    | [] => throw .truncated
    | symbol :: rest =>
      if symbol = .char c then
        set rest
        keyword more
      else throw .malformed

/-! ## Texts -/

/-- The value of a hexadecimal digit. -/
def hexValue? (c : Char) : Option Nat :=
  if '0' ≤ c && c ≤ '9' then some (c.toNat - 48)
  else if 'a' ≤ c && c ≤ 'f' then some (c.toNat - 87)
  else if 'A' ≤ c && c ≤ 'F' then some (c.toNat - 55)
  else none

/-- The value of four hexadecimal digits at the head of a text.  Fewer than four octets are an early
end, whatever they are. -/
def hexFour (s : List Symbol) : Except Fault Nat :=
  if (s.take 4).foldl (fun octets symbol => octets + symbol.size) 0 < 4 then .error .truncated
  else
    match s with
    | .char a :: .char b :: .char c :: .char d :: _ =>
      match hexValue? a, hexValue? b, hexValue? c, hexValue? d with
      | some a, some b, some c, some d => .ok (a * 4096 + b * 256 + c * 16 + d)
      | _, _, _, _ => .error .malformed
    | _ => .error .malformed

/-- The character of an escape by code, whose code stands at the head of the text, and how many
symbols the code takes.  Codes of surrogates come in pairs. -/
def escapeByCode (s : List Symbol) : Except Fault (Char × Nat) := do
  let high ← hexFour s
  if 0xDC00 ≤ high && high ≤ 0xDFFF then throw .malformed
  if high < 0xD800 || 0xDBFF < high then return (Char.ofNat high, 4)
  match s.drop 4 with
  | [] => throw .truncated
  | .char '\\' :: [] => throw .truncated
  | .char '\\' :: .char 'u' :: rest =>
    let low ← hexFour rest
    if low < 0xDC00 || 0xDFFF < low then throw .malformed
    return (Char.ofNat (0x10000 + (high - 0xD800) * 1024 + (low - 0xDC00)), 10)
  | _ => throw .malformed

/-- The character that a letter after a backslash stands for. -/
def escapeByLetter? (c : Char) : Option Char :=
  if c == '"' || c == '\\' || c == '/' then some c
  else if c == 'b' then some '\x08'
  else if c == 'f' then some '\x0c'
  else if c == 'n' then some '\n'
  else if c == 'r' then some '\r'
  else if c == 't' then some '\t'
  else none

/-- The character of an escape, and how many symbols after the backslash it takes. -/
def unescape (s : List Symbol) : Except Fault (Char × Nat) :=
  match s with
  | [] => .error .truncated
  | .char 'u' :: rest => (escapeByCode rest).map fun (c, used) => (c, used + 1)
  | .char c :: _ =>
    match escapeByLetter? c with
    | some d => .ok (d, 1)
    | none => .error .malformed
  | .damaged _ :: _ => .error .malformed

/-- The symbols of a text up to its closing quote, and what follows the quote. -/
def textBody : List Symbol → Except Fault (List Symbol × List Symbol)
  | [] => .error .truncated
  | .damaged octets :: rest =>
    (textBody rest).map fun (body, after) => (.damaged octets :: body, after)
  | .char c :: rest =>
    if c == '"' then .ok ([], rest)
    else if c == '\\' then
      match unescape rest with
      | .error fault => .error fault
      | .ok (d, used) =>
        (textBody (rest.drop used)).map fun (body, after) => (.char d :: body, after)
    else if c.toNat < 0x20 then .error .malformed
    else (textBody rest).map fun (body, after) => (.char c :: body, after)
termination_by s => s.length
decreasing_by all_goals simp only [List.length_drop, List.length_cons]; omega

/-- The characters of symbols, if none is damaged. -/
def undamaged : List Symbol → Option (List Char)
  | [] => some []
  | .char c :: rest => (undamaged rest).map (c :: ·)
  | .damaged _ :: _ => none

/-- Reads the rest of a text after its opening quote. -/
def closeText : Reader String := do
  let (body, rest) ← textBody (← get)
  match undamaged body with
  | none => throw .malformed
  | some characters =>
    set rest
    return String.ofList characters

/-! ## Numbers -/

/-- The digits at the head of a text. -/
def leadingDigits (s : List Symbol) : List Nat :=
  match s with
  | .char c :: rest =>
    match digitValue? c with
    | some d => d :: leadingDigits rest
    | none => []
  | _ => []
where
  /-- The value of a decimal digit. -/
  digitValue? (c : Char) : Option Nat :=
    if '0' ≤ c && c ≤ '9' then some (c.toNat - 48) else none

/-- Reads digits onto a significand as long as it stays below `2 ^ 64`; the result is the
significand and how many digits went into it. -/
def absorb : Nat → List Nat → Nat × Nat
  | significand, [] => (significand, 0)
  | significand, d :: rest =>
    if significand * 10 + d < Nat.pow 2 64 then
      let (final, count) := absorb (significand * 10 + d) rest
      (final, count + 1)
    else (significand, 0)

/-- A significand times a power of ten, rounded after each step: the power is at most the 308th, and
smaller numbers are reached by dividing more than once. -/
def scaled (steps : Nat) (significand : Binary64) (exponent : Int) : Except Fault Binary64 :=
  if exponent.natAbs ≤ 308 then
    let power := Binary64.ofNat (Nat.pow 10 exponent.natAbs)
    if 0 ≤ exponent then
      let product := significand.mul power
      if product.isInfinite then .error .malformed else .ok product
    else .ok (significand.div power)
  else if significand.isZero then .ok significand
  else if 0 ≤ exponent then .error .malformed
  else
    match steps with
    | 0 => .ok Binary64.zero
    | steps + 1 => scaled steps (significand.div (Binary64.ofNat (Nat.pow 10 308))) (exponent + 308)

/-- A real number made of a sign, a significand and an exponent of ten. -/
def makeReal (negative : Bool) (significand : Nat) (exponent : Int) : Except Fault Json :=
  (scaled 4 (Binary64.ofNat significand) exponent).map fun x =>
    .real (Binary64.ofMagnitude negative x.magnitudeBits)

/-- Reads an exponent after its letter, and makes the number. -/
def exponentPart (negative : Bool) (significand : Nat) (exponent : Int) : Reader Json := do
  let sign := match ← get with
    | .char '+' :: _ => some false
    | .char '-' :: _ => some true
    | _ => none
  if sign.isSome then skip
  let digits := leadingDigits (← get)
  if digits.isEmpty then
    throw (if (← get).isEmpty then .truncated else .malformed)
  modify (·.drop digits.length)
  let down := sign == some true
  let size : Nat := digits.foldl (fun n d => if n < Nat.pow 2 31 then n * 10 + d else n) 0
  if Nat.pow 2 31 ≤ size then
    if significand ≠ 0 && !down then throw .malformed
    return .real (Binary64.ofMagnitude negative 0)
  else makeReal negative significand (exponent + (if down then -1 else 1) * (size : Int))

/-- Whether an exponent stands at the head of a text. -/
def startsExponent (s : List Symbol) : Bool :=
  match s with
  | .char c :: _ => c == 'e' || c == 'E'
  | _ => false

/-- Makes a number without further fraction, reading its exponent if it has one. -/
def endReal (negative : Bool) (significand : Nat) (exponent : Int) : Reader Json := do
  if startsExponent (← get) then
    skip
    exponentPart negative significand exponent
  else makeReal negative significand exponent

/-- Reads a fraction after its point, and makes the number. -/
def fractionPart (negative : Bool) (significand : Nat) (exponent : Int) : Reader Json := do
  let digits := leadingDigits (← get)
  if digits.isEmpty then
    throw (if (← get).isEmpty then .truncated else .malformed)
  modify (·.drop digits.length)
  let (significand, count) := absorb significand digits
  endReal negative significand (exponent - count)

/-- A number without fraction and exponent: an integer from `-2 ^ 63` on, other than a negative
zero. -/
def wholeNumber (negative : Bool) (significand : Nat) : Json :=
  if !negative then .integer significand
  else if significand = 0 || Nat.pow 2 63 < significand then
    .real (Binary64.ofMagnitude true (Binary64.ofNat significand).magnitudeBits)
  else .integer (-(significand : Int))

/-- Reads a number after its sign; integers beyond `2 ^ 64 - 1` are read as real numbers. -/
def unsignedNumber (negative : Bool) : Reader Json := do
  let text ← get
  let digits := leadingDigits text
  match digits with
  | [] => throw (if text.isEmpty then .truncated else .malformed)
  | 0 :: _ :: _ => throw .malformed
  | _ =>
    set (text.drop digits.length)
    let (significand, count) := absorb 0 digits
    let exponent : Int := (digits.length - count : Nat)
    let rest ← get
    if rest.head? == some (.char '.') then
      skip
      fractionPart negative significand exponent
    else if startsExponent rest || exponent ≠ 0 then endReal negative significand exponent
    else return wholeNumber negative significand

/-- Reads a number; the next symbol is its sign or its first digit. -/
def number : Reader Json := do
  match ← get with
  | .char '-' :: rest =>
    set rest
    unsignedNumber true
  | _ => unsignedNumber false

/-- Whether a number begins with a symbol. -/
def startsNumber (s : Symbol) : Bool :=
  match s with
  | .char c => c == '-' || ('0' ≤ c && c ≤ '9')
  | .damaged _ => false

end WorkQueue.Json
