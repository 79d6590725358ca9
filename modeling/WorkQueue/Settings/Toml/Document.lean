import WorkQueue.Settings.Toml.Scalar
import WorkQueue.Settings.Toml.Tree

/-!
# TOML documents

A document is a sequence of lines, each with a header, a name and its value, or nothing, and perhaps
a comment.  Lists may go on over several lines, tables in braces may not.
-/

namespace WorkQueue.Setting.Toml

/-! ## Names -/

/-- Whether a character may stand in a name without quotes. -/
def isNameChar (c : Char) : Bool :=
  c.isAlphanum || c == '_' || c == '-'

/-- A name without points at the head of a text. -/
def simpleName? (s : List Char) : Option (String × List Char) :=
  let name := s.takeWhile isNameChar
  if name.isEmpty then text? false s else some (String.ofList name, s.drop name.length)

/-- A name with points at the head of a text, as the names between the points.  Blanks may stand
around the points and before the name. -/
def names? : Nat → List Char → Option (List String × List Char)
  | 0, _ => none
  | fuel + 1, s => do
    let (name, s) ← simpleName? (skipBlanks s)
    match skipBlanks s with
    | '.' :: rest =>
      let (names, s) ← names? fuel rest
      some (name :: names, s)
    | s => some ([name], s)

/-! ## Line ends -/

/-- A text without the comment at its head, if there is one. -/
def skipComment? (s : List Char) : Option (List Char) :=
  match s with
  | '#' :: rest =>
    let comment := rest.takeWhile fun c => c != '\n'
    let body := if comment.getLast? == some '\r' then comment.dropLast else comment
    if body.any isControl then none else some (s.drop (1 + body.length))
  | s => some s

/-- What follows the end of a line: blanks, a comment, and a line break or the end of the text. -/
def endLine? (s : List Char) : Option (List Char) := do
  match ← skipComment? (skipBlanks s) with
  | [] => some []
  | s => afterBreak? s

/-- A text without blanks, comments and line breaks at its head. -/
def skipLines? : Nat → List Char → Option (List Char)
  | 0, s => some s
  | fuel + 1, s => do
    let rest ← skipComment? (skipBlanks s)
    match afterBreak? rest with
    | some more => skipLines? fuel more
    | none => some rest

/-! ## Values -/

mutual

/-- A value at the head of a text. -/
def value? : Nat → List Char → Option (Setting × List Char)
  | 0, _ => none
  | fuel + 1, s =>
    match s with
    | '[' :: rest => do
      let (items, s) ← items? fuel rest
      some (.list items, s)
    | '{' :: rest =>
      match skipBlanks rest with
      | '}' :: s => some (.table [], s)
      | s => do
        let (entries, s) ← braced? fuel .header [] s
        some (.table (toSettings entries), s)
    | '"' :: _ => (text? true s).map fun (body, s) => (.text body, s)
    | '\'' :: _ => (text? true s).map fun (body, s) => (.text body, s)
    | s => bare? s

/-- The items of a list up to its closing bracket; a comma may stand after the last one. -/
def items? : Nat → List Char → Option (List Setting × List Char)
  | 0, _ => none
  | fuel + 1, s => do
    match ← skipLines? s.length s with
    | ']' :: rest => some ([], rest)
    | s =>
      let (item, s) ← value? fuel s
      match ← skipLines? s.length s with
      | ']' :: rest => some ([item], rest)
      | ',' :: rest =>
        let (items, s) ← items? fuel rest
        some (item :: items, s)
      | _ => none

/-- The entries of a table in braces up to its closing brace, put into those before. -/
def braced? : Nat → Origin → Table Node → List Char → Option (Table Node × List Char)
  | 0, _, _, _ => none
  | fuel + 1, origin, entries, s => do
    let (names, s) ← names? s.length s
    match skipBlanks s with
    | '=' :: rest =>
      let (value, s) ← value? fuel (skipBlanks rest)
      let (origin, entries) ←
        assign names.dropLast (names.getLastD "") value origin entries
      match skipBlanks s with
      | '}' :: rest => some (entries, rest)
      | ',' :: rest => braced? fuel origin entries rest
      | _ => none
    | _ => none

end

/-! ## Lines -/

/-- A header at the head of a text after its opening bracket, up to the end of its line: the
document with its table opened, and the path of that table. -/
def header? (document : Table Node) (s : List Char) :
    Option (Table Node × List String × List Char) := do
  match s with
  | '[' :: rest =>
    let (names, s) ← names? rest.length rest
    let s ← after? ']' s
    let s ← after? ']' s
    some (← openItem names.dropLast (names.getLastD "") document, names, s)
  | s =>
    let (names, s) ← names? s.length s
    let s ← after? ']' s
    some (← openTable names.dropLast (names.getLastD "") document, names, s)

/-- A name and its value at the head of a text, put into the table of the last header. -/
def assignment? (document : Table Node) (path : List String) (s : List Char) :
    Option (Table Node × List Char) := do
  let (names, s) ← names? s.length s
  let s ← after? '=' s
  let (value, s) ← value? (s.length + 1) (skipBlanks s)
  some (← atHeader path (assign names.dropLast (names.getLastD "") value) document, s)

/-- Reads lines into a document; `path` is the header that they stand under. -/
def readLines : Nat → Table Node → List String → List Char → Option (Table Node)
  | 0, _, _, _ => none
  | fuel + 1, document, path, s => do
    match ← skipLines? s.length s with
    | [] => some document
    | '[' :: rest =>
      let (document, path, s) ← header? document rest
      readLines fuel document path (← endLine? s)
    | s =>
      let (document, s) ← assignment? document path s
      readLines fuel document path (← endLine? s)

end WorkQueue.Setting.Toml

namespace WorkQueue.Setting

/-- The settings of a TOML text. -/
def readToml (text : String) : Option Setting :=
  let s := text.toList
  let s := if s.head? == some '\uFEFF' then s.drop 1 else s
  (Toml.readLines (s.length + 1) [] [] s).map fun document => .table (Toml.toSettings document)

end WorkQueue.Setting
