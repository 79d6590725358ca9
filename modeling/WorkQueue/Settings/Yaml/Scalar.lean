import WorkQueue.Settings.Basic
import WorkQueue.Table

/-!
# Scalars of YAML

A scalar is plain, between quotes, or a block of lines.  Only a plain one can be anything but a
text. Scalars that go on over several lines are folded: a line break becomes a blank, and of several
line breaks all but the first remain.
-/

namespace WorkQueue.Setting.Yaml

open WorkQueue.Text

/-- A position in a text: what is left of it, the column, and the values that were given names. -/
structure Cursor where
  rest : List Char
  column : Nat
  named : Table Setting

/-! ## Positions -/

/-- Whether a character is a blank within a line. -/
def isSpace (c : Char) : Bool :=
  c == ' ' || c == '\t'

/-- Whether a text begins with a blank or a line break, or is empty. -/
def startsBlank : List Char → Bool
  | [] => true
  | c :: _ => isSpace c || c == '\n'

/-- The position some characters further on the line. -/
def Cursor.advance (cursor : Cursor) (count : Nat) : Cursor :=
  { cursor with rest := cursor.rest.drop count, column := cursor.column + count }

/-- The position after the blanks. -/
def Cursor.skipSpaces (cursor : Cursor) : Cursor :=
  cursor.advance (cursor.rest.takeWhile isSpace).length

/-- The position at the end of the line. -/
def Cursor.toLineEnd (cursor : Cursor) : Cursor :=
  cursor.advance (cursor.rest.takeWhile (· != '\n')).length

/-- The position after a line break. -/
def Cursor.nextLine (cursor : Cursor) : Cursor :=
  { cursor with rest := cursor.rest.drop 1, column := 0 }

/-- Whether a marker of documents, three dashes or three points, stands at a position. -/
def Cursor.atMarker (cursor : Cursor) : Bool :=
  cursor.column == 0 &&
    (cursor.rest.take 3 == ['-', '-', '-'] || cursor.rest.take 3 == ['.', '.', '.']) &&
    startsBlank (cursor.rest.drop 3)

/-- The position of the next token, and whether it is on a later line: blanks, comments and line
breaks are passed over.  A tab must not indent a token; the result is nothing if one does. -/
def Cursor.nextToken (tabs : Bool) : Nat → Bool → Cursor → Option (Bool × Cursor)
  | 0, _, _ => none
  | fuel + 1, crossed, cursor =>
    let spaces := cursor.rest.takeWhile isSpace
    let there := cursor.advance spaces.length
    match there.rest with
    | '#' :: _ => Cursor.nextToken tabs fuel crossed there.toLineEnd
    | '\n' :: _ => Cursor.nextToken tabs fuel true there.nextLine
    | [] => some (true, there)
    | _ => if !tabs && crossed && spaces.contains '\t' then none else some (crossed, there)

/-- The position of the next token of a block, where tabs do not indent. -/
def Cursor.nextInBlock (cursor : Cursor) : Option (Bool × Cursor) :=
  cursor.nextToken false (cursor.rest.length + 1) (cursor.column == 0)

/-- The position of the next token between brackets or braces. -/
def Cursor.nextInFlow (cursor : Cursor) : Option Cursor :=
  (cursor.nextToken true (cursor.rest.length + 1) false).map (·.2)

/-! ## The meaning of plain scalars -/

/-- An integer in 64 bits, with an optional sign. -/
def signed? (base : Nat) (s : List Char) : Option Int :=
  let (negative, digits) := match s with
    | '-' :: rest => (true, rest)
    | '+' :: rest => (false, rest)
    | rest => (false, rest)
  let digit (c : Char) : Option Nat :=
    let d :=
      if '0' ≤ c && c ≤ '9' then c.toNat - 48
      else if 'a' ≤ c && c ≤ 'f' then c.toNat - 87
      else if 'A' ≤ c && c ≤ 'F' then c.toNat - 55
      else 16
    if d < base then some d else none
  if digits.isEmpty then none
  else
    match digits.foldlM (fun n c => (digit c).map (n * base + ·)) 0 with
    | none => none
    | some n =>
      let value : Int := if negative then -(n : Int) else n
      if -9223372036854775808 ≤ value ∧ value < 9223372036854775808 then some value else none

/-- What a plain scalar with the look of a real number stands for.  The words for infinity and for
no number have no value here, although they are taken for numbers. -/
def real? (s : List Char) : Option (Option Binary64) :=
  let words := [".inf", ".Inf", ".INF", "+.inf", "+.Inf", "+.INF", "-.inf", "-.Inf", "-.INF",
    ".nan", ".NaN", ".NAN"]
  if words.contains (String.ofList s) then some none
  else
    match Binary64.read s with
    | .ok x => some (some x)
    | .error _ => none

/-- What a plain scalar stands for. -/
def resolve (s : List Char) : Option Setting :=
  let based : Option Int :=
    match s with
    | '0' :: 'x' :: rest => signed? 16 rest
    | '0' :: 'o' :: rest => signed? 8 rest
    | _ => none
  let word := String.ofList s
  match based with
  | some n => some (.integer n)
  | none =>
    if word = "~" || word = "null" then some .nothing
    else if word = "true" then some (.truth true)
    else if word = "false" then some (.truth false)
    else
      match signed? 10 s with
      | some n => some (.integer n)
      | none =>
        match real? s with
        | some (some x) => some (.real x)
        | some none => none
        | none => some (.text word)

/-- What a plain scalar with a tag stands for. -/
def resolveTagged (tag : String) (s : List Char) : Setting :=
  let word := String.ofList s
  if tag = "!!bool" then
    if word = "true" then .truth true else if word = "false" then .truth false else .nothing
  else if tag = "!!int" then ((signed? 10 s).map Setting.integer).getD .nothing
  else if tag = "!!float" then
    match real? s with
    | some (some x) => .real x
    | _ => .nothing
  else if tag = "!!null" then .nothing
  else .text word

/-! ## Plain scalars -/

/-- Whether a character has a meaning of its own between brackets or braces. -/
def isFlowMark (c : Char) : Bool :=
  c == ',' || c == '[' || c == ']' || c == '{' || c == '}'

/-- Whether a plain scalar can begin at the head of a text. -/
def startsPlain (flow : Bool) : List Char → Bool
  | [] => false
  | c :: rest =>
    if startsBlank [c] || isFlowMark c then false
    else if "#&*!|>'\"%@`".toList.contains c then false
    else if c == '-' then !startsBlank rest
    else if c == '?' || c == ':' then !flow && !startsBlank rest
    else true

/-- How many characters at the head of a text belong to a plain scalar on one line; `before` says
that a blank stands before them. -/
def plainLength (flow : Bool) : Bool → List Char → Nat
  | _, [] => 0
  | before, c :: rest =>
    if c == '\n' || (c == '#' && before) then 0
    else if c == ':' && (startsBlank rest || (flow && (rest.head?.map isFlowMark).getD false)) then
      0
    else if flow && isFlowMark c then 0
    else plainLength flow (isSpace c) rest + 1

/-- Characters without the blanks at their end. -/
def trimSpaces (s : List Char) : List Char :=
  (s.reverse.dropWhile isSpace).reverse

/-- The part of a plain scalar on one line, and the position after it. -/
def plainLine (flow : Bool) (cursor : Cursor) : List Char × Cursor :=
  let part := trimSpaces (cursor.rest.take (plainLength flow false cursor.rest))
  (part, cursor.advance part.length)

/-- What a number of line breaks becomes when it is folded. -/
def folded (breaks : Nat) : List Char :=
  if breaks = 1 then [' '] else List.replicate (breaks - 1) '\n'

/-- The position after line breaks and the blanks after them, and the number of line breaks. -/
def Cursor.skipBreaks : Nat → Nat → Cursor → Nat × Cursor
  | 0, breaks, cursor => (breaks, cursor)
  | fuel + 1, breaks, cursor =>
    let there := cursor.skipSpaces
    match there.rest with
    | '\n' :: _ => Cursor.skipBreaks fuel (breaks + 1) there.nextLine
    | _ => (breaks, there)

/-- The further lines of a plain scalar, which stand at `indent` or further to the right. -/
def plainMore (flow : Bool) (indent : Nat) : Nat → Cursor → List Char × Cursor
  | 0, cursor => ([], cursor)
  | fuel + 1, cursor =>
    let (breaks, there) := cursor.skipBreaks cursor.rest.length 0
    let (part, after) := plainLine flow there
    if breaks = 0 || there.atMarker || part.isEmpty || there.rest.head? == some '#' ||
        (!flow && there.column < indent) then ([], cursor)
    else
      let (more, after) := plainMore flow indent fuel after
      (folded breaks ++ part ++ more, after)

/-- A plain scalar, which may go on over further lines. -/
def plain? (flow : Bool) (indent : Nat) (cursor : Cursor) : Option (List Char × Cursor) :=
  if startsPlain flow cursor.rest then
    let (part, after) := plainLine flow cursor
    let (more, after) := plainMore flow indent cursor.rest.length after
    some (part ++ more, after)
  else none

/-! ## Quoted scalars -/

/-- The number that hexadecimal digits stand for. -/
def code? (digits : List Char) : Option Nat :=
  (signed? 16 digits).bind fun n =>
    if digits.all Char.isAlphanum then some n.toNat else none

/-- The character of an escape, and how many characters after the backslash it takes. -/
def unescape (s : List Char) : Option (Char × Nat) :=
  let coded (width : Nat) : Option (Char × Nat) :=
    let digits := (s.drop 1).take width
    if digits.length < width then none
    else
      (code? digits).bind fun n =>
        if n < 0xD800 || (0xDFFF < n && n < 0x110000) then some (Char.ofNat n, width + 1) else none
  match s with
  | [] => none
  | 'x' :: _ => coded 2
  | 'u' :: _ => coded 4
  | 'U' :: _ => coded 8
  | c :: _ =>
    let pairs := [('0', '\x00'), ('a', '\x07'), ('b', '\x08'), ('t', '\t'), ('\t', '\t'),
      ('n', '\n'), ('v', '\x0b'), ('f', '\x0c'), ('r', '\r'), ('e', '\x1b'), (' ', ' '),
      ('"', '"'), ('/', '/'), ('\\', '\\'), ('N', '\u0085'), ('_', '\u00A0'), ('L', '\u2028'),
      ('P', '\u2029')]
    (pairs.find? fun pair => pair.1 == c).map fun pair => (pair.2, 1)

/-- The rest of a scalar up to its closing quote.  Blanks around line breaks do not count. -/
def quotedBody (quote : Char) : Nat → Cursor → Option (List Char × Cursor)
  | 0, _ => none
  | fuel + 1, cursor =>
    let spaces := cursor.rest.takeWhile isSpace
    let there := cursor.advance spaces.length
    let (breaks, after) := there.skipBreaks there.rest.length 0
    if cursor.atMarker then none
    else if 0 < breaks then
      (quotedBody quote fuel after).map fun (body, after) => (folded breaks ++ body, after)
    else if !spaces.isEmpty then
      (quotedBody quote fuel there).map fun (body, after) => (spaces ++ body, after)
    else
      match cursor.rest with
      | [] => none
      | c :: rest =>
        if c == quote then
          if quote == '\'' && rest.head? == some '\'' then
            (quotedBody quote fuel (cursor.advance 2)).map fun (body, after) =>
              ('\'' :: body, after)
          else some ([], cursor.advance 1)
        else if c == '\\' && quote == '"' then
          if rest.head? == some '\n' then
            let (breaks, after) := (cursor.advance 1).nextLine.skipBreaks rest.length 0
            (quotedBody quote fuel after).map fun (body, after) =>
              (List.replicate breaks '\n' ++ body, after)
          else
            (unescape rest).bind fun (d, used) =>
              (quotedBody quote fuel (cursor.advance (used + 1))).map fun (body, after) =>
                (d :: body, after)
        else
          (quotedBody quote fuel (cursor.advance 1)).map fun (body, after) => (c :: body, after)

/-- A scalar between quotes. -/
def quoted? (cursor : Cursor) : Option (String × Cursor) :=
  match cursor.rest with
  | c :: _ =>
    if c == '"' || c == '\'' then
      (quotedBody c (2 * cursor.rest.length + 2) (cursor.advance 1)).map fun (body, after) =>
        (String.ofList body, after)
    else none
  | [] => none

/-! ## Block scalars -/

/-- What becomes of the line breaks at the end of a block scalar. -/
inductive Chomping where
  | strip
  | clip
  | keep
  deriving DecidableEq

/-- The header of a block scalar: how its end is treated, its further indentation if that is given,
and the position of its first line. -/
def blockHeader? (cursor : Cursor) : Option (Chomping × Option Nat × Cursor) :=
  let marks := cursor.rest.takeWhile fun c => c == '+' || c == '-' || ('1' ≤ c && c ≤ '9')
  let chompings := marks.filter fun c => c == '+' || c == '-'
  let digits := marks.filter fun c => '1' ≤ c && c ≤ '9'
  let there := (cursor.advance marks.length).skipSpaces
  let there := if there.rest.head? == some '#' then there.toLineEnd else there
  let chomping : Chomping :=
    match chompings with
    | '+' :: _ => .keep
    | '-' :: _ => .strip
    | _ => .clip
  let further := digits.head?.map fun c => c.toNat - 48
  if 1 < chompings.length || 1 < digits.length then none
  else
    match there.rest with
    | [] => some (chomping, further, there)
    | '\n' :: _ => some (chomping, further, there.nextLine)
    | _ => none

/-- The indentation of the first line that is not blank, or of a blank line before it that is
longer; the text begins at a line. -/
def firstIndent : Nat → Nat → List Char → Nat
  | 0, widest, _ => widest
  | fuel + 1, widest, s =>
    let spaces := (s.takeWhile (· == ' ')).length
    match s.drop spaces with
    | '\n' :: rest => firstIndent fuel (max widest spaces) rest
    | [] => max widest spaces
    | _ => max widest spaces

/-- The lines of a block scalar, each without its indentation, and the position after them. -/
def blockLines (indent : Nat) : Nat → Cursor → List (List Char) × Cursor
  | 0, cursor => ([], cursor)
  | fuel + 1, cursor =>
    let spaces := (cursor.rest.takeWhile (· == ' ')).length
    let after := cursor.rest.drop spaces
    if cursor.rest.isEmpty then ([], cursor)
    else if after.head? == some '\n' && spaces ≤ indent then
      let (lines, there) := blockLines indent fuel (cursor.advance spaces).nextLine
      ([] :: lines, there)
    else if spaces < indent || after.isEmpty then
      if after.isEmpty then ([], cursor.advance spaces) else ([], cursor)
    else
      let line := (cursor.rest.drop indent).takeWhile (· != '\n')
      let there := cursor.toLineEnd
      let there := if there.rest.isEmpty then there else there.nextLine
      let (lines, there) := blockLines indent fuel there
      (line :: lines, there)

/-- Whether a line begins with a blank. -/
def startsWithSpace (line : List Char) : Bool :=
  (line.head?.map isSpace).getD false

/-- Lines joined into a text.  `previous` is the last line that is not empty, if there was one, and
`breaks` the number of line breaks since then. -/
def joinLines (fold : Bool) : Option (List Char) → Nat → List (List Char) → List Char
  | _, _, [] => []
  | previous, breaks, [] :: rest => joinLines fold previous (breaks + 1) rest
  | previous, breaks, line :: rest =>
    let gap :=
      match previous with
      | none => List.replicate breaks '\n'
      | some before =>
        if fold && !startsWithSpace before && !startsWithSpace line then folded breaks
        else List.replicate breaks '\n'
    gap ++ line ++ joinLines fold (some line) 1 rest

/-- A block scalar after its mark, in a block indented by `parent` columns; `parent` is nothing for
the whole document. -/
def block? (fold : Bool) (parent : Option Nat) (cursor : Cursor) : Option (String × Cursor) := do
  let (chomping, further, there) ← blockHeader? cursor
  let least := (parent.map (· + 1)).getD 0
  let indent :=
    match further with
    | some n => parent.getD 0 + n
    | none => max 1 (max least (firstIndent there.rest.length 0 there.rest))
  let (lines, after) := blockLines indent (there.rest.length + 1) there
  let trailing := (lines.reverse.takeWhile List.isEmpty).length
  let body := lines.take (lines.length - trailing)
  let joined := joinLines fold none 0 body
  let last := if body.isEmpty then [] else ['\n']
  let ending :=
    match chomping with
    | .strip => []
    | .clip => last
    | .keep => last ++ List.replicate trailing '\n'
  some (String.ofList (joined ++ ending), after)

end WorkQueue.Setting.Yaml
