import WorkQueue.Settings.Basic
import WorkQueue.Table

/-!
# Assembling settings

The top-level names of a settings file are paths: `queues.default` is the entry `default` of the
table `queues`.  A name that is no path stands for itself.  Names are taken in lower case at every
level, and a table that is given twice is the union of both.  Of values that come under one name the
last one counts.
-/

namespace WorkQueue.Setting

open WorkQueue.Text

/-! ## Paths -/

/-- Whether a character may stand in a part of a path. -/
def isPathChar (c : Char) : Bool :=
  ('a' ≤ c && c ≤ 'z') || ('A' ≤ c && c ≤ 'Z') || ('0' ≤ c && c ≤ '9') || c == '_' || c == '-' ||
    c == ' '

/-- A path: the names of nested tables, and whether it goes on to an item of a list. -/
structure Path where
  names : List String
  intoList : Bool

/-- Whether a text is the index of an item: digits, which may have a minus sign. -/
def isIndex (s : List Char) : Bool :=
  let digits := match s with
    | '-' :: rest => rest
    | rest => rest
  !digits.isEmpty && digits.all fun c => '0' ≤ c && c ≤ '9'

/-- Reads what follows a name in a path: further names after points, and indices in brackets.  What
follows an index does not matter, because there is a list in any case. -/
def pathRest (names : List String) (intoList : Bool) : Nat → List Char → Option Path
  | _, [] => some ⟨names.reverse, intoList⟩
  | 0, _ => none
  | fuel + 1, '.' :: rest =>
    let name := rest.takeWhile isPathChar
    if name.isEmpty then none
    else
      let names := if intoList then names else String.ofList name :: names
      pathRest names intoList fuel (rest.drop name.length)
  | fuel + 1, '[' :: rest =>
    let index := rest.takeWhile (· != ']')
    match rest.drop index.length with
    | ']' :: more => if isIndex index then pathRest names true fuel more else none
    | _ => none
  | _, _ => none

/-- The path that a name stands for; a name that is none stands for itself. -/
def pathOf (name : String) : Path :=
  let characters := name.toList
  let head := characters.takeWhile isPathChar
  let path :=
    if head.isEmpty then none
    else
      pathRest [String.ofList head] false characters.length (characters.drop head.length)
  path.getD ⟨[name], false⟩

/-! ## Tables -/

/-- The entries of a table; what is no table has none. -/
def entries : Setting → Table Setting
  | table t => t
  | _ => []

mutual

/-- What a value makes of the one that was in its place: tables are united, and everything else is
replaced. -/
def merged : Setting → Option Setting → Setting
  | table incoming, old => mergedEntries incoming (old.getD (table []))
  | value, _ => value

/-- A value with entries put into it one after the other, as a table. -/
def mergedEntries : List (String × Setting) → Setting → Setting
  | [], target => target
  | (name, value) :: rest, target =>
    let name := lower name
    let there := target.entries
    mergedEntries rest (table (Table.put name (merged value (Table.get? name there)) there))

end

/-- Puts a value into a table at the end of nested names. -/
def placeAt : List String → Setting → Table Setting → Table Setting
  | [], _, target => target
  | [name], value, target => Table.put name (merged value (Table.get? name target)) target
  | name :: rest, value, target =>
    let inner := ((Table.get? name target).map entries).getD []
    Table.put name (table (placeAt rest value inner)) target

/-- Puts a value into a table under a top-level name. -/
def place (target : Table Setting) (entry : String × Setting) : Table Setting :=
  let path := pathOf (lower entry.1)
  placeAt path.names (if path.intoList then list [] else entry.2) target

/-- The table that top-level entries make up, put in place one after the other. -/
def assemble (entries : List (String × Setting)) : Table Setting :=
  entries.foldl place []

end WorkQueue.Setting
