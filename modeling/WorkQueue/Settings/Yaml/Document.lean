import WorkQueue.Settings.Yaml.Scalar

/-!
# YAML documents

A document is a node: a scalar, a list or table between brackets or braces, or a list or table in
block form, which is told by columns.  A file of settings holds at most one document.
-/

namespace WorkQueue.Setting.Yaml

open WorkQueue.Text

/-! ## Parts of nodes -/

/-- What may stand before a node: a name for it, and a tag. -/
structure Properties where
  anchor : Option String
  tag : Option String

/-- No properties. -/
def Properties.none : Properties := ⟨.none, .none⟩

/-- The name of an anchor, an alias or a tag: the characters up to a blank or a mark of flow. -/
def nameRun (s : List Char) : List Char :=
  s.takeWhile fun c => !startsBlank [c] && !isFlowMark c

/-- Reads the properties at a position, on the line. -/
def properties? : Nat → Properties → Cursor → Option (Properties × Cursor)
  | 0, found, cursor => some (found, cursor)
  | fuel + 1, found, cursor =>
    match cursor.rest with
    | '&' :: rest =>
      let name := nameRun rest
      if name.isEmpty || found.anchor.isSome then none
      else
        properties? fuel { found with anchor := some (String.ofList name) }
          (cursor.advance (name.length + 1)).skipSpaces
    | '!' :: rest =>
      let name := nameRun rest
      if found.tag.isSome then none
      else
        properties? fuel { found with tag := some (String.ofList ('!' :: name)) }
          (cursor.advance (name.length + 1)).skipSpaces
    | _ => some (found, cursor)

/-- Gives a value its name, if it is to have one. -/
def Cursor.remember (cursor : Cursor) (found : Properties) (value : Setting) : Cursor :=
  match found.anchor with
  | some name => { cursor with named := Table.put name value cursor.named }
  | none => cursor

/-- The value of an alias at a position. -/
def alias? (cursor : Cursor) : Option (Setting × Cursor) :=
  match cursor.rest with
  | '*' :: rest =>
    let name := nameRun rest
    (Table.get? (String.ofList name) cursor.named).map fun value =>
      (value, cursor.advance (name.length + 1))
  | _ => none

/-- The value of a plain scalar with properties. -/
def plainValue (found : Properties) (s : List Char) : Option Setting :=
  match found.tag with
  | some tag => some (resolveTagged tag s)
  | none => resolve s

/-- The name that a value is as the key of a table; only texts and integers can be names. -/
def keyName? : Setting → Option String
  | .text s => some s
  | .integer n => some (toString n)
  | _ => none

/-- An entry put at the end of a table, in which its name must be new. -/
def addEntry (entries : List (String × Setting)) (key value : Setting) :
    Option (List (String × Setting)) := do
  let name ← keyName? key
  if (entries.find? fun entry => entry.1 == name).isSome then none
  else some (entries ++ [(name, value)])

/-- Whether the mark of a key begins at a position: a question mark that stands alone. -/
def Cursor.atKeyMark (cursor : Cursor) : Bool :=
  match cursor.rest with
  | '?' :: rest => startsBlank rest
  | _ => false

/-- Whether the mark of a value begins at a position: a colon that stands alone. -/
def Cursor.atValueMark (cursor : Cursor) : Bool :=
  match cursor.rest with
  | ':' :: rest => startsBlank rest
  | _ => false

/-! ## Lists and tables between brackets and braces -/

mutual

/-- A node between brackets or braces. -/
def flowNode : Nat → Cursor → Option (Setting × Cursor)
  | 0, _ => none
  | fuel + 1, cursor => do
    let (found, cursor) ← properties? 2 .none cursor
    let cursor ← cursor.nextInFlow
    let (value, after) ←
      match cursor.rest with
      | '[' :: _ => do
        let (items, after) ← flowItems fuel [] (← (cursor.advance 1).nextInFlow)
        some (Setting.list items, after)
      | '{' :: _ => do
        let (entries, after) ← flowEntries fuel [] (← (cursor.advance 1).nextInFlow)
        some (Setting.table entries, after)
      | '*' :: _ => alias? cursor
      | '"' :: _ => (quoted? cursor).map fun (s, after) => (.text s, after)
      | '\'' :: _ => (quoted? cursor).map fun (s, after) => (.text s, after)
      | _ => do
        let (s, after) ← plain? true 0 cursor
        some (← plainValue found s, after)
    some (value, after.remember found value)

/-- A node that may be left out before a comma, a colon or a closing mark. -/
def flowNodeOrNothing : Nat → Cursor → Option (Setting × Cursor)
  | 0, _ => none
  | fuel + 1, cursor =>
    match cursor.rest with
    | ',' :: _ => some (.nothing, cursor)
    | ']' :: _ => some (.nothing, cursor)
    | '}' :: _ => some (.nothing, cursor)
    | _ => flowNode fuel cursor

/-- The items up to a closing bracket, put after those before.  An item with a colon is a table of
one entry. -/
def flowItems : Nat → List Setting → Cursor → Option (List Setting × Cursor)
  | 0, _, _ => none
  | fuel + 1, items, cursor =>
    match cursor.rest with
    | ']' :: _ => some (items, cursor.advance 1)
    | _ => do
      let (first, cursor) ← flowNode fuel cursor
      let cursor ← cursor.nextInFlow
      let (item, cursor) ←
        match cursor.rest with
        | ':' :: _ => do
          let (value, cursor) ← flowNodeOrNothing fuel (← (cursor.advance 1).nextInFlow)
          some (Setting.table (← addEntry [] first value), cursor)
        | _ => some (first, cursor)
      let cursor ← cursor.nextInFlow
      match cursor.rest with
      | ',' :: _ => flowItems fuel (items ++ [item]) (← (cursor.advance 1).nextInFlow)
      | ']' :: _ => some (items ++ [item], cursor.advance 1)
      | _ => none

/-- The entries up to a closing brace, put after those before. -/
def flowEntries : Nat → List (String × Setting) → Cursor →
    Option (List (String × Setting) × Cursor)
  | 0, _, _ => none
  | fuel + 1, entries, cursor =>
    match cursor.rest with
    | '}' :: _ => some (entries, cursor.advance 1)
    | _ => do
      let cursor ← if cursor.atKeyMark then (cursor.advance 1).nextInFlow else some cursor
      let (key, cursor) ← flowNode fuel cursor
      let cursor ← cursor.nextInFlow
      let (value, cursor) ←
        match cursor.rest with
        | ':' :: _ => do flowNodeOrNothing fuel (← (cursor.advance 1).nextInFlow)
        | _ => some (Setting.nothing, cursor)
      let entries ← addEntry entries key value
      let cursor ← cursor.nextInFlow
      match cursor.rest with
      | ',' :: _ => flowEntries fuel entries (← (cursor.advance 1).nextInFlow)
      | '}' :: _ => some (entries, cursor.advance 1)
      | _ => none

end

/-! ## Keys of tables in block form -/

/-- A key on one line with the colon after it, and the position after the colon. -/
def key? (cursor : Cursor) : Option (Setting × Cursor) := do
  let (found, start) ← properties? 2 .none cursor
  let (key, after) ←
    match start.rest with
    | '*' :: _ => alias? start
    | '"' :: _ => (quoted? start).map fun (s, after) => (Setting.text s, after)
    | '\'' :: _ => (quoted? start).map fun (s, after) => (Setting.text s, after)
    | '[' :: _ => flowNode start.rest.length start
    | '{' :: _ => flowNode start.rest.length start
    | rest => do
      if startsPlain false rest then
        let (s, after) := plainLine false start
        some (← plainValue found s, after)
      else none
  let consumed := cursor.rest.take (cursor.rest.length - after.rest.length)
  if consumed.contains '\n' then none
  else
    let there := after.skipSpaces
    match there.rest with
    | ':' :: rest =>
      if startsBlank rest then some (key, (there.advance 1).remember found key) else none
    | _ => none

/-- Whether an item of a list in block form begins at a position. -/
def Cursor.atItem (cursor : Cursor) : Bool :=
  match cursor.rest with
  | '-' :: rest => startsBlank rest
  | _ => false

/-- Whether the text is at its end, or a marker of documents ends the document. -/
def Cursor.atEnd (cursor : Cursor) : Bool :=
  cursor.rest.isEmpty || cursor.atMarker

/-- A scalar or a node between brackets or braces, with its properties, where a table or a list in
block form cannot begin; `parent` is the column of the block around it. -/
def inlineNode (parent : Option Nat) (found : Properties) (cursor : Cursor) :
    Option (Setting × Cursor) := do
  let (value, after) ←
    match cursor.rest with
    | '|' :: _ => (block? false parent (cursor.advance 1)).map fun (s, a) => (Setting.text s, a)
    | '>' :: _ => (block? true parent (cursor.advance 1)).map fun (s, a) => (Setting.text s, a)
    | '[' :: _ => flowNode (cursor.rest.length + 1) cursor
    | '{' :: _ => flowNode (cursor.rest.length + 1) cursor
    | '*' :: _ => alias? cursor
    | '"' :: _ => (quoted? cursor).map fun (s, after) => (Setting.text s, after)
    | '\'' :: _ => (quoted? cursor).map fun (s, after) => (Setting.text s, after)
    | _ => do
      let (s, after) ← plain? false ((parent.map (· + 1)).getD 0) cursor
      some (← plainValue found s, after)
  some (value, after.remember found value)

/-! ## Blocks -/

/-- Whether a position lies inside a block around which stands one at the column `parent`. -/
def inside (parent : Option Nat) (cursor : Cursor) : Bool :=
  !cursor.atEnd &&
    match parent with
    | none => true
    | some column => column < cursor.column

mutual

/-- A node at a position where a list or a table in block form may begin. -/
def blockNode : Nat → Option Nat → Cursor → Option (Setting × Cursor)
  | 0, _, _ => none
  | fuel + 1, parent, cursor =>
    if cursor.atItem then do
      let (items, after) ← blockItems fuel cursor.column [] cursor
      some (.list items, after)
    else if cursor.atKeyMark then do
      let (entries, after) ← blockEntries fuel cursor.column [] cursor
      some (.table entries, after)
    else
      match key? cursor with
      | some _ => do
        let (entries, after) ← blockEntries fuel cursor.column [] cursor
        some (.table entries, after)
      | none => do
        let (found, there) ← properties? 2 .none cursor
        if there.rest.length < cursor.rest.length then
          let (value, after) ← lineNode fuel parent none there
          some (value, after.remember found value)
        else
          let (value, after) ← inlineNode parent .none cursor
          some (value, ← endOfNode after)

/-- The position after a node that must be the last on its line. -/
def endOfNode : Cursor → Option Cursor
  | cursor =>
    if cursor.column == 0 then some cursor
    else
      match cursor.nextInBlock with
      | some (true, _) => some cursor
      | _ => none

/-- The node after a colon or after properties: on the same line a scalar or a node between brackets
or braces, on later lines any node further to the right than `parent`.  A list may also stand at the
column `level`.  Without a node the value is nothing. -/
def lineNode : Nat → Option Nat → Option Nat → Cursor → Option (Setting × Cursor)
  | 0, _, _, _ => none
  | fuel + 1, parent, level, cursor => do
    let (crossed, there) ← (cursor.skipSpaces).nextInBlock
    if crossed then
      if inside parent there then blockNode fuel parent there
      else if level == some there.column && there.atItem && !there.atEnd then
        let (items, after) ← blockItems fuel there.column [] there
        some (.list items, after)
      else some (.nothing, cursor)
    else
      let (found, start) ← properties? 2 .none there
      if there.rest.length ≠ start.rest.length && (startsBlank start.rest ||
          start.rest.head? == some '#') then
        let (value, after) ← lineNode fuel parent level start
        some (value, after.remember found value)
      else
        let (value, after) ← inlineNode parent found start
        some (value, ← endOfNode after)

/-- The node after a mark of one character at a column: any node further to the right, or
nothing. -/
def markedNode : Nat → Nat → Cursor → Option (Setting × Cursor)
  | 0, _, _ => none
  | fuel + 1, column, cursor => do
    let (crossed, there) ← ((cursor.advance 1).skipSpaces).nextInBlock
    if inside (some column) there then blockNode fuel (some column) there
    else if crossed then some (Setting.nothing, cursor.advance 1)
    else none

/-- The items of a list in block form at a column, put after those before. -/
def blockItems : Nat → Nat → List Setting → Cursor → Option (List Setting × Cursor)
  | 0, _, _, _ => none
  | fuel + 1, column, items, cursor => do
    let (item, after) ← markedNode fuel column cursor
    let (_, next) ← after.nextInBlock
    if !next.atEnd && next.column == column && next.atItem then
      blockItems fuel column (items ++ [item]) next
    else some (items ++ [item], next)

/-- The key and the value of an entry at a column, which may each stand after a mark. -/
def blockEntry : Nat → Nat → Cursor → Option (Setting × Setting × Cursor)
  | 0, _, _ => none
  | fuel + 1, column, cursor =>
    if cursor.atKeyMark then do
      let (key, after) ← markedNode fuel column cursor
      let (_, next) ← after.nextInBlock
      if next.column == column && next.atValueMark then
        let (value, after) ← markedNode fuel column next
        some (key, value, after)
      else some (key, .nothing, after)
    else do
      let (key, after) ← key? cursor
      let (value, after) ← lineNode fuel (some column) (some column) after
      some (key, value, after)

/-- The entries of a table in block form at a column, put after those before. -/
def blockEntries : Nat → Nat → List (String × Setting) → Cursor →
    Option (List (String × Setting) × Cursor)
  | 0, _, _, _ => none
  | fuel + 1, column, entries, cursor => do
    let (key, value, after) ← blockEntry fuel column cursor
    let entries ← addEntry entries key value
    let (_, next) ← after.nextInBlock
    if !next.atEnd && next.column == column then blockEntries fuel column entries next
    else if inside (some column) next then none
    else some (entries, next)

end

/-! ## Documents -/

/-- The position after the directives at the head of a text, and whether there were any. -/
def skipDirectives : Nat → Bool → Cursor → Option (Bool × Cursor)
  | 0, _, _ => none
  | fuel + 1, found, cursor => do
    let (_, there) ← cursor.nextInBlock
    if there.column == 0 && there.rest.head? == some '%' then
      skipDirectives fuel true there.toLineEnd
    else some (found, there)

/-- Whether nothing but the ends of documents is left of a text. -/
def endsText : Nat → Cursor → Bool
  | 0, _ => false
  | fuel + 1, cursor =>
    match cursor.nextInBlock with
    | none => false
    | some (_, there) =>
      if there.rest.isEmpty then true
      else if there.atMarker && there.rest.head? == some '.' then
        endsText fuel (there.advance 3)
      else false

/-- The settings of the only document of a text; without a document they are an empty table. -/
def document? (cursor : Cursor) : Option Setting := do
  let size := cursor.rest.length
  let (directives, start) ← skipDirectives (size + 1) false cursor
  if start.rest.isEmpty && !directives then some (.table [])
  else if start.atMarker && start.rest.head? == some '-' then
    let (value, after) ← lineNode (3 * size + 8) none none (start.advance 3)
    if endsText (size + 1) after then some value else none
  else if directives then none
  else if start.atMarker then
    if endsText (size + 1) start then some (.table []) else none
  else
    let (value, after) ← blockNode (3 * size + 8) none start
    if endsText (size + 1) after then some value else none

/-- A text with line feeds for all line breaks. -/
def plainBreaks : List Char → List Char
  | [] => []
  | '\r' :: '\n' :: rest => '\n' :: plainBreaks rest
  | '\r' :: rest => '\n' :: plainBreaks rest
  | c :: rest => c :: plainBreaks rest

end WorkQueue.Setting.Yaml

namespace WorkQueue.Setting

/-- The settings of a YAML text. -/
def readYaml (text : String) : Option Setting :=
  let s := Yaml.plainBreaks text.toList
  let s := if s.head? == some '\uFEFF' then s.drop 1 else s
  Yaml.document? ⟨s, 0, []⟩

end WorkQueue.Setting
