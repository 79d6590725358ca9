import WorkQueue.Json.Document

/-!
# Records in JSON

Readers for values whose shape is known beforehand.  A record is written as an object of its fields
in any order, or as a list of them in their own order.  In an object, names that are not known are
passed over, a field given twice is an error at its second name, and a field that is not there is an
error at the end, unless the record can do without it.
-/

namespace WorkQueue.Json

open WorkQueue.Text

/-! ## Single values -/

/-- Reads a value in a place where none of its kind may stand: the error is about the shape if the
value is well formed as far as it has to be looked at. -/
def wrongKind {α : Type} : Reader α := do
  match ← peek with
  | none => throw .malformed
  | some symbol =>
    match symbol with
    | .char 'n' => keyword ['n', 'u', 'l', 'l']
    | .char 't' => keyword ['t', 'r', 'u', 'e']
    | .char 'f' => keyword ['f', 'a', 'l', 's', 'e']
    | .char '"' =>
      skip
      let _ ← closeText
    | .char '[' => pure ()
    | .char '{' => pure ()
    | symbol => if startsNumber symbol then let _ ← number else throw .malformed
    throw .data

/-- Reads a text. -/
def readText : Reader String := do
  match ← peek with
  | none => throw .truncated
  | some (.char '"') =>
    skip
    closeText
  | some _ => wrongKind

/-- Reads a text that stands for something. -/
def readParsed {α : Type} (parse : List Char → Option α) : Reader α := do
  match parse (← readText).toList with
  | some value => return value
  | none => throw .data

/-- Reads a natural number below `bound`. -/
def readNatural (bound : Nat) : Reader Nat := do
  match ← peek with
  | none => throw .truncated
  | some symbol =>
    if startsNumber symbol then
      match ← number with
      | .integer n => if 0 ≤ n ∧ n < bound then return n.toNat else throw .data
      | _ => throw .data
    else wrongKind

/-- Reads null as nothing, and all else with a reader. -/
def readNullable {α : Type} (reader : Reader α) : Reader (Option α) := do
  if (← peek) = some (.char 'n') then
    keyword ['n', 'u', 'l', 'l']
    return none
  else return some (← reader)

/-- Reads the end of a list that holds all it can. -/
def closeList : Reader Unit := do
  match ← peek with
  | none => throw .truncated
  | some symbol => if symbol = .char ']' then skip else throw .malformed

/-- Reads octets up to the end of a list of numbers. -/
def readOctetItems : Nat → Bool → Reader (List UInt8)
  | 0, _ => throw .malformed
  | fuel + 1, first => do
    if ← another ']' first then
      let octet ← readNatural 256
      return UInt8.ofNat octet :: (← readOctetItems fuel false)
    else
      closeList
      return []

/-- Reads octets as a list of numbers. -/
def readOctets : Reader (List UInt8) := do
  match ← peek with
  | none => throw .truncated
  | some (.char '[') =>
    skip
    readOctetItems ((← get).length + 1) true
  | some _ => wrongKind

/-- Reads one of several names, as a text or as the only field of an object, which is null. -/
def readChoice {α : Type} (named : String → Option α) : Reader α := do
  let choose : Reader α := do
    match named (← readText) with
    | some value => return value
    | none => throw .data
  match ← peek with
  | none => throw .truncated
  | some (.char '"') => choose
  | some (.char '{') =>
    skip
    let value ← choose
    colon
    match ← peek with
    | none => throw .truncated
    | some (.char 'n') => keyword ['n', 'u', 'l', 'l']
    | some _ => wrongKind
    match ← peek with
    | none => throw .truncated
    | some symbol =>
      if symbol = .char '}' then
        skip
        return value
      else throw .malformed
  | some _ => throw .malformed

/-! ## Records -/

/-- A field of a record that is put together in a draft: its name, and how its value is read into
the draft. -/
structure Member (Draft : Type) where
  name : String
  read : Draft → Reader Draft

/-- A record: its fields in order, a draft without any, and the record of a draft that has all it
needs. -/
structure Shape (Draft α : Type) where
  members : List (Member Draft)
  blank : Draft
  complete : Draft → Option α

namespace Shape

variable {Draft α : Type}

/-- Reads fields by name up to the closing brace of an object.  `seen` are the known names that were
read, and `first` says that no field was. -/
def readByName (shape : Shape Draft α) : Nat → Bool → List String → Draft → Reader Draft
  | 0, _, _, _ => throw .malformed
  | fuel + 1, first, seen, draft => do
    if ← another '}' first then
      let name ← fieldName
      match shape.members.find? (·.name == name) with
      | none =>
        colon
        skipValue
        shape.readByName fuel false seen draft
      | some member =>
        if seen.contains name then throw .data
        colon
        let draft ← member.read draft
        shape.readByName fuel false (name :: seen) draft
    else return draft

/-- Reads fields in order up to the closing bracket of a list. -/
def readInOrder : List (Member Draft) → Bool → Draft → Reader Draft
  | [], _, draft => return draft
  | member :: rest, first, draft => do
    if ← another ']' first then
      let draft ← member.read draft
      readInOrder rest false draft
    else throw .data

/-- The record of a draft, or an error about the shape. -/
def completed (shape : Shape Draft α) (draft : Draft) : Reader α :=
  match shape.complete draft with
  | some record => return record
  | none => throw .data

/-- Reads a record. -/
def reader (shape : Shape Draft α) : Reader α := do
  match ← peek with
  | none => throw .truncated
  | some (.char '{') =>
    skip
    let draft ← shape.readByName ((← get).length + 1) true [] shape.blank
    let record ← shape.completed draft
    skip
    return record
  | some (.char '[') =>
    skip
    let draft ← readInOrder shape.members true shape.blank
    let record ← shape.completed draft
    closeList
    return record
  | some _ => wrongKind

/-- The record that a whole text stands for. -/
def read (shape : Shape Draft α) (text : List Symbol) : Except Fault α :=
  shape.reader.run text

end Shape

end WorkQueue.Json
