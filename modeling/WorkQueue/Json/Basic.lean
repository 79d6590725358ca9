import WorkQueue.Binary64.Decimal
import WorkQueue.Table
import WorkQueue.Text.Quoted

/-!
# JSON values

A JSON value with its numbers kept apart: integers exactly, and all other numbers in the 64-bit
binary format.  The fields of an object stay in the order in which they were put there; `ofFields`
puts them in the order of their names.  `render` writes a value without any blanks.
-/

namespace WorkQueue

/-- A JSON value. -/
inductive Json where
  | null
  | bool (value : Bool)
  | integer (value : Int)
  | real (value : Binary64)
  | text (value : String)
  | list (items : List Json)
  | object (fields : List (String × Json))

namespace Json

instance : Inhabited Json := ⟨null⟩

/-! ## Construction and access -/

/-- A natural number as a value. -/
def natural (n : Nat) : Json :=
  .integer n

/-- A value or null. -/
def ofOption {α : Type} (encode : α → Json) : Option α → Json
  | some a => encode a
  | none => .null

/-- An object of fields in the order of their names; of fields of one name the last remains. -/
def ofFields (fields : List (String × Json)) : Json :=
  .object (Table.ofEntries fields)

/-- The value of the field with a name, if the value is an object that has it. -/
def field? (name : String) : Json → Option Json
  | .object fields => Table.get? name fields
  | _ => none

/-! ## Writing -/

/-- The written form of a character in a text: the quote, the backslash and controls are escaped. -/
def escape (c : Char) : List Char :=
  if c == '"' then ['\\', '"']
  else if c == '\\' then ['\\', '\\']
  else if c == '\n' then ['\\', 'n']
  else if c == '\r' then ['\\', 'r']
  else if c == '\t' then ['\\', 't']
  else if c.toNat == 8 then ['\\', 'b']
  else if c.toNat == 12 then ['\\', 'f']
  else if c.toNat < 0x10 then ['\\', 'u', '0', '0', '0'] ++ Text.hexDigits c.toNat
  else if c.toNat < 0x20 then ['\\', 'u', '0', '0'] ++ Text.hexDigits c.toNat
  else [c]

/-- A text between quotes. -/
def writeText (s : String) : List Char :=
  '"' :: s.toList.flatMap escape ++ ['"']

/-- An integer in decimal digits. -/
def writeInteger (n : Int) : List Char :=
  if n < 0 then '-' :: Nat.toDigits 10 n.natAbs else Nat.toDigits 10 n.natAbs

/-- Digits whose point stands after `point` of them: in positional notation if the point is at most
sixteen places to the right of their start or four to the left, and with an exponent otherwise. -/
def writeDigits (digits : List Char) (point : Int) : List Char :=
  if (digits.length : Int) ≤ point ∧ point ≤ 16 then
    digits ++ List.replicate (point.toNat - digits.length) '0' ++ ['.', '0']
  else if 0 < point ∧ point ≤ 16 then
    digits.take point.toNat ++ '.' :: digits.drop point.toNat
  else if -5 < point ∧ point ≤ 0 then
    '0' :: '.' :: List.replicate (-point).toNat '0' ++ digits
  else
    let fraction := if digits.length ≤ 1 then [] else '.' :: digits.drop 1
    digits.take 1 ++ fraction ++ 'e' :: writeInteger (point - 1)

/-- A number that is not an integer value; what is infinite or no number is written as null. -/
def writeReal (x : Binary64) : List Char :=
  if x.isNaN || x.isInfinite then ['n', 'u', 'l', 'l']
  else
    let magnitude :=
      if x.isZero then ['0', '.', '0']
      else
        let (n, exponent) := x.shortest
        let digits := Nat.toDigits 10 n
        writeDigits digits (exponent + digits.length)
    if x.isNegative then '-' :: magnitude else magnitude

/-- Parts separated by commas. -/
def commas : List (List Char) → List Char
  | [] => []
  | [part] => part
  | part :: rest => part ++ ',' :: commas rest

mutual

/-- A value without blanks. -/
def write : Json → List Char
  | .null => ['n', 'u', 'l', 'l']
  | .bool true => ['t', 'r', 'u', 'e']
  | .bool false => ['f', 'a', 'l', 's', 'e']
  | .integer n => writeInteger n
  | .real x => writeReal x
  | .text s => writeText s
  | .list items => '[' :: commas (writeItems items) ++ [']']
  | .object fields => '{' :: commas (writeFields fields) ++ ['}']

/-- The items of a list, each without blanks. -/
def writeItems : List Json → List (List Char)
  | [] => []
  | item :: rest => write item :: writeItems rest

/-- The fields of an object, each as a name, a colon and a value. -/
def writeFields : List (String × Json) → List (List Char)
  | [] => []
  | (name, value) :: rest => (writeText name ++ ':' :: write value) :: writeFields rest

end

/-- A value as a string. -/
def render (value : Json) : String :=
  String.ofList (write value)

end Json

end WorkQueue
