import WorkQueue.Settings.Basic
import WorkQueue.Table

/-!
# Tables of TOML under construction

A TOML document gives its tables piece by piece: by headers, by headers of further headers, and by
points in names.  A table may be opened by one header only, and points must not add to a table that
has a header; so each table remembers how it came about.
-/

namespace WorkQueue.Setting.Toml

/-- How a table came about. -/
inductive Origin where
  /-- It is on the way to a table with a header. -/
  | implied
  /-- It is on the way to a name with points. -/
  | dotted
  /-- It has a header, or is the whole document. -/
  | header
  deriving DecidableEq

/-- What stands under a name: a value, a table, or the tables of an array, the last one last. -/
inductive Node where
  | value (setting : Setting)
  | table (origin : Origin) (entries : List (String × Node))
  | array (tables : List (List (String × Node)))

/-- Changes the table at the end of a path below a table.  Tables that are not there come about;
`dotted` says that the path is one of points in a name. -/
def within (dotted : Bool)
    (change : Origin → Table Node → Option (Origin × Table Node)) :
    List String → Origin → Table Node → Option (Origin × Table Node)
  | [], origin, entries => change origin entries
  | name :: rest, origin, entries =>
    match Table.get? name entries with
    | none => do
      let (inner, below) ← within dotted change rest (if dotted then .dotted else .implied) []
      some (origin, Table.put name (.table inner below) entries)
    | some (.value _) => none
    | some (.table inner below) =>
      if dotted && inner = .header then none
      else do
        let (inner, below) ← within dotted change rest inner below
        some (origin, Table.put name (.table inner below) entries)
    | some (.array tables) =>
      match tables.getLast? with
      | none => none
      | some last => do
        let (_, below) ← within dotted change rest .header last
        some (origin, Table.put name (.array (tables.dropLast ++ [below])) entries)

/-- The document with a change made at the end of a path of headers. -/
def atHeader (path : List String)
    (change : Origin → Table Node → Option (Origin × Table Node)) (document : Table Node) :
    Option (Table Node) :=
  (within false change path .header document).map (·.2)

/-- Opens the table of a header, given by the path before its last name and that name. -/
def openTable (path : List String) (name : String) : Table Node → Option (Table Node) :=
  atHeader path fun origin entries =>
    match Table.get? name entries with
    | none => some (origin, Table.put name (.table .header []) entries)
    | some (.table .implied below) => some (origin, Table.put name (.table .header below) entries)
    | some _ => none

/-- Opens the next table of an array of tables. -/
def openItem (path : List String) (name : String) : Table Node → Option (Table Node) :=
  atHeader path fun origin entries =>
    match Table.get? name entries with
    | none => some (origin, Table.put name (.array [[]]) entries)
    | some (.array tables) => some (origin, Table.put name (.array (tables ++ [[]])) entries)
    | some _ => none

/-- Puts a value into a table under a name, which must be free there.  A name after points must be
in a table that points made, and a name without points in one that they did not make. -/
def putValue (afterPoints : Bool) (name : String) (value : Setting) (origin : Origin)
    (entries : Table Node) : Option (Origin × Table Node) :=
  if (origin = .dotted) ≠ (afterPoints = true) || Table.has name entries then none
  else some (origin, Table.put name (.value value) entries)

/-- Puts a value into a table under a name with points: the names before its last, and the last. -/
def assign (points : List String) (name : String) (value : Setting) (origin : Origin)
    (entries : Table Node) : Option (Origin × Table Node) :=
  within true (putValue (!points.isEmpty) name value) points origin entries

mutual

/-- What stands under a name, as a setting. -/
def Node.toSetting : Node → Setting
  | .value setting => setting
  | .table _ entries => .table (toSettings entries)
  | .array tables => .list (toTables tables)

/-- Entries as settings. -/
def toSettings : List (String × Node) → List (String × Setting)
  | [] => []
  | (name, node) :: rest => (name, node.toSetting) :: toSettings rest

/-- The tables of an array as settings. -/
def toTables : List (List (String × Node)) → List Setting
  | [] => []
  | entries :: rest => .table (toSettings entries) :: toTables rest

end

end WorkQueue.Setting.Toml
