/-!
# Octets and characters

Payloads are octets.  `decode` splits octets into symbols: a character where one is encoded, and a
damaged symbol for a stretch of octets that encodes none.  Such a stretch is the longest beginning
of an encoding that is there, and one octet otherwise, which is the division that the Unicode
standard recommends for showing damaged text (`lossy`).
-/

namespace WorkQueue.Text

/-- A character of a text, or a stretch of octets that is not one. -/
inductive Symbol where
  | char (c : Char)
  | damaged (octets : Nat)
  deriving DecidableEq

/-- How many octets a symbol takes. -/
def Symbol.size : Symbol → Nat
  | .char c => c.utf8Size
  | .damaged octets => octets

/-- The character of a symbol, and the replacement character for a damaged one. -/
def Symbol.shown : Symbol → Char
  | .char c => c
  | .damaged _ => '\uFFFD'

/-- A text read as symbols, none of which is damaged. -/
def symbols (s : String) : List Symbol :=
  s.toList.map .char

namespace Utf8

/-- Whether an octet continues an encoding. -/
def isTail (b : UInt8) : Bool :=
  0x80 ≤ b && b ≤ 0xBF

/-- Whether `b` may follow the first octet `a` of an encoding of three octets. -/
def secondOfThree (a b : UInt8) : Bool :=
  if a == 0xE0 then 0xA0 ≤ b && b ≤ 0xBF
  else if a == 0xED then 0x80 ≤ b && b ≤ 0x9F
  else isTail b

/-- Whether `b` may follow the first octet `a` of an encoding of four octets. -/
def secondOfFour (a b : UInt8) : Bool :=
  if a == 0xF0 then 0x90 ≤ b && b ≤ 0xBF
  else if a == 0xF4 then 0x80 ≤ b && b ≤ 0x8F
  else isTail b

/-- The character whose code is put together from the payload bits of an encoding. -/
def assemble (lead : Nat) (tails : List UInt8) : Char :=
  Char.ofNat (tails.foldl (fun n b => n * 64 + (b.toNat - 0x80)) lead)

/-- The character at the head of `a :: rest`, if there is one, and how many octets of `rest` belong
to it or to the damaged stretch that is there instead. -/
def first (a : UInt8) (rest : List UInt8) : Option Char × Nat :=
  if a < 0x80 then (some (Char.ofNat a.toNat), 0)
  else if 0xC2 ≤ a && a ≤ 0xDF then
    match rest with
    | b :: _ => if isTail b then (some (assemble (a.toNat - 0xC0) [b]), 1) else (none, 0)
    | [] => (none, 0)
  else if 0xE0 ≤ a && a ≤ 0xEF then
    match rest with
    | b :: c :: _ =>
      if !secondOfThree a b then (none, 0)
      else if !isTail c then (none, 1)
      else (some (assemble (a.toNat - 0xE0) [b, c]), 2)
    | [b] => if secondOfThree a b then (none, 1) else (none, 0)
    | [] => (none, 0)
  else if 0xF0 ≤ a && a ≤ 0xF4 then
    match rest with
    | b :: c :: d :: _ =>
      if !secondOfFour a b then (none, 0)
      else if !isTail c then (none, 1)
      else if !isTail d then (none, 2)
      else (some (assemble (a.toNat - 0xF0) [b, c, d]), 3)
    | [b, c] => if !secondOfFour a b then (none, 0) else if isTail c then (none, 2) else (none, 1)
    | [b] => if secondOfFour a b then (none, 1) else (none, 0)
    | [] => (none, 0)
  else (none, 0)

/-- The symbols that a list of octets stands for. -/
def decode : List UInt8 → List Symbol
  | [] => []
  | a :: rest =>
    let (character, used) := first a rest
    let symbol := match character with
      | some c => .char c
      | none => .damaged (used + 1)
    symbol :: decode (rest.drop used)
termination_by octets => octets.length
decreasing_by simp only [List.length_drop, List.length_cons]; omega

/-- The octets shown as text, each damaged stretch as the replacement character. -/
def lossy (octets : List UInt8) : String :=
  String.ofList ((decode octets).map Symbol.shown)

/-- The octets of a text. -/
def encode (s : String) : List UInt8 :=
  s.toUTF8.toList

end Utf8

end WorkQueue.Text
