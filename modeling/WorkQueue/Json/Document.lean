import WorkQueue.Json.Reader

/-!
# Whole JSON values

Values of any shape.  `skipValue` passes over one, however deep, and looks only at what is needed to
find its end; `readValue` builds one, up to a depth of 127 lists and objects within one another.
-/

namespace WorkQueue.Json

open WorkQueue.Text

/-! ## Passing over a value -/

/-- Whether a symbol is a decimal digit. -/
def isDigit : Symbol → Bool
  | .char c => '0' ≤ c && c ≤ '9'
  | .damaged _ => false

/-- Passes over digits, of which there is at least one. -/
def skipDigits : Reader Unit := do
  let text ← get
  if (text.head?.map isDigit).getD false then set (text.dropWhile isDigit)
  else throw .malformed

/-- Passes over an exponent, if there is one. -/
def skipExponent : Reader Unit := do
  if startsExponent (← get) then
    skip
    match ← get with
    | .char '+' :: rest => set rest
    | .char '-' :: rest => set rest
    | _ => pure ()
    skipDigits

/-- Passes over a number; a missing digit makes it malformed even where the text ends. -/
def skipNumber : Reader Unit := do
  if (← get).head? == some (.char '-') then skip
  match ← get with
  | .char '0' :: rest =>
    if (rest.head?.map isDigit).getD false then throw .malformed
    set rest
  | _ => skipDigits
  if (← get).head? == some (.char '.') then
    skip
    skipDigits
  skipExponent

/-- Where a text without decoding ends: what follows its closing quote.  Only the form of the
escapes is looked at. -/
def afterText : List Symbol → Except Fault (List Symbol)
  | [] => .error .truncated
  | .damaged _ :: rest => afterText rest
  | .char c :: rest =>
    if c == '"' then .ok rest
    else if c == '\\' then
      match rest with
      | [] => .error .truncated
      | .char 'u' :: code =>
        match hexFour code with
        | .ok _ => afterText (code.drop 4)
        | .error fault => .error fault
      | .char d :: more => if (escapeByLetter? d).isSome then afterText more else .error .malformed
      | .damaged _ :: _ => .error .malformed
    else if c.toNat < 0x20 then .error .malformed
    else afterText rest
termination_by s => s.length
decreasing_by all_goals simp only [List.length_drop, List.length_cons]; omega

/-- Passes over the rest of a text after its opening quote. -/
def skipText : Reader Unit := do
  set (← afterText (← get))

/-- Passes over the name of a field and its colon, both after spaces. -/
def skipName : Reader Unit := do
  match ← peek with
  | none => throw .truncated
  | some (.char '"') =>
    skip
    skipText
    match ← peek with
    | none => throw .truncated
    | some (.char ':') => skip
    | some _ => throw .malformed
  | some _ => throw .malformed

/-- What encloses a position in a text. -/
inductive Frame where
  | list
  | object
  deriving DecidableEq

/-- The symbol that closes a frame. -/
def Frame.close : Frame → Symbol
  | .list => .char ']'
  | .object => .char '}'

/-- Passes over what follows a value within frames: closing symbols, and a comma if another value is
to come.  The result is the frames that are still open. -/
def skipClosing : List Frame → Reader (List Frame)
  | [] => return []
  | frame :: outer => do
    match ← peek with
    | none => throw .truncated
    | some symbol =>
      if symbol = .char ',' then
        skip
        return frame :: outer
      else if symbol = frame.close then
        skip
        skipClosing outer
      else throw .malformed

/-- Passes over an opening symbol.  An empty list or object is passed over whole; otherwise its
frame is the innermost one. -/
def skipOpening (frame : Frame) (outer : List Frame) : Reader (List Frame) := do
  skip
  match ← peek with
  | none => throw .truncated
  | some symbol =>
    if symbol = frame.close then
      skip
      skipClosing outer
    else return frame :: outer

/-- Passes over one value that is neither list nor object, or opens one. -/
def skipPiece (frames : List Frame) : Reader (List Frame) := do
  match ← peek with
  | none => throw .truncated
  | some (.char '[') => skipOpening .list frames
  | some (.char '{') => skipOpening .object frames
  | some symbol =>
    match symbol with
    | .char 'n' => keyword ['n', 'u', 'l', 'l']
    | .char 't' => keyword ['t', 'r', 'u', 'e']
    | .char 'f' => keyword ['f', 'a', 'l', 's', 'e']
    | .char '"' =>
      skip
      skipText
    | symbol => if startsNumber symbol then skipNumber else throw .malformed
    skipClosing frames

/-- Passes over values until all frames are closed.  Every piece takes a symbol, so the length of
the text bounds their number. -/
def skipPieces : Nat → List Frame → Reader Unit
  | _, [] => return
  | 0, _ => throw .malformed
  | fuel + 1, frame :: outer => do
    if frame = .object then skipName
    let frames ← skipPiece (frame :: outer)
    skipPieces fuel frames

/-- Passes over one value. -/
def skipValue : Reader Unit := do
  let fuel := (← get).length
  let frames ← skipPiece []
  skipPieces fuel frames

/-! ## Building a value -/

/-- Whether another part of a list or object follows.  `first` says that none was read yet, and
`close` is the symbol that ends them. -/
def another (close : Char) (first : Bool) : Reader Bool := do
  match ← peek with
  | none => throw .truncated
  | some symbol =>
    if symbol = .char close then return false
    else if first then return true
    else if symbol = .char ',' then
      skip
      match ← peek with
      | none => throw .truncated
      | some next => if next = .char close then throw .malformed else return true
    else throw .malformed

/-- Reads the colon after the name of a field. -/
def colon : Reader Unit := do
  match ← peek with
  | none => throw .truncated
  | some (.char ':') => skip
  | some _ => throw .malformed

/-- Reads the name of a field, whose opening quote is the next symbol. -/
def fieldName : Reader String := do
  match ← peek with
  | some (.char '"') =>
    skip
    closeText
  | _ => throw .malformed

/-- Reads items up to the end of a list. -/
def readItems (item : Reader Json) : Nat → Bool → Reader (List Json)
  | 0, _ => throw .malformed
  | fuel + 1, first => do
    if ← another ']' first then
      let value ← item
      return value :: (← readItems item fuel false)
    else
      skip
      return []

/-- Reads fields up to the end of an object. -/
def readFields (item : Reader Json) : Nat → Bool → Reader (List (String × Json))
  | 0, _ => throw .malformed
  | fuel + 1, first => do
    if ← another '}' first then
      let name ← fieldName
      colon
      let value ← item
      return (name, value) :: (← readFields item fuel false)
    else
      skip
      return []

/-- Reads a value with fewer than `depth` lists and objects within one another. -/
def readValue : Nat → Reader Json
  | 0 => throw .malformed
  | depth + 1 => do
    match ← peek with
    | none => throw .truncated
    | some (.char 'n') =>
      keyword ['n', 'u', 'l', 'l']
      return .null
    | some (.char 't') =>
      keyword ['t', 'r', 'u', 'e']
      return .bool true
    | some (.char 'f') =>
      keyword ['f', 'a', 'l', 's', 'e']
      return .bool false
    | some (.char '"') =>
      skip
      return .text (← closeText)
    | some (.char '[') =>
      if depth = 0 then throw .malformed
      skip
      return .list (← readItems (readValue depth) ((← get).length + 1) true)
    | some (.char '{') =>
      if depth = 0 then throw .malformed
      skip
      return ofFields (← readFields (readValue depth) ((← get).length + 1) true)
    | some symbol => if startsNumber symbol then number else throw .malformed

/-- Refuses a text in which anything but spaces is left. -/
def finish : Reader Unit := do
  if (← peek).isSome then throw .malformed

/-- Runs a reader on a whole text. -/
def Reader.run {α : Type} (reader : Reader α) (text : List Symbol) : Except Fault α := do
  let (value, rest) ← StateT.run reader text
  let _ ← StateT.run finish rest
  return value

/-- The value that a text stands for. -/
def read (text : List Symbol) : Except Fault Json :=
  (readValue 128).run text

end WorkQueue.Json
