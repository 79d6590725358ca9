import WorkQueue.Settings.Basic
import WorkQueue.Time.Calendar

/-!
# Scalars of TOML

Texts of four kinds, numbers, truth values, and dates and times, which are settings of text.  Every
reader takes characters off the front of a text and gives nothing if they do not form the scalar.
-/

namespace WorkQueue.Setting.Toml

open WorkQueue.Text

/-! ## Characters -/

/-- A text without the blanks at its start. -/
def skipBlanks (s : List Char) : List Char :=
  s.dropWhile fun c => c == ' ' || c == '\t'

/-- Whether a character is a control that must not stand in a text or a comment. -/
def isControl (c : Char) : Bool :=
  (c.toNat < 0x20 && c != '\t') || c.toNat == 0x7F

/-- What follows a line break at the head of a text. -/
def afterBreak? : List Char → Option (List Char)
  | '\n' :: rest => some rest
  | '\r' :: '\n' :: rest => some rest
  | _ => none

/-- Whether a character is a decimal digit. -/
def isDigit (c : Char) : Bool :=
  '0' ≤ c && c ≤ '9'

/-- The value of a digit in base sixteen. -/
def digitOf? (c : Char) : Option Nat :=
  if isDigit c then some (c.toNat - 48)
  else if 'a' ≤ c && c ≤ 'f' then some (c.toNat - 87)
  else if 'A' ≤ c && c ≤ 'F' then some (c.toNat - 55)
  else none

/-- The number that digits of a base stand for. -/
def number? (base : Nat) (digits : List Char) : Option Nat :=
  digits.foldlM
    (fun n c => (digitOf? c).bind fun d => if d < base then some (n * base + d) else none)
    0

/-- The character with a code, unless the code is that of a surrogate or too great. -/
def charOf? (code : Nat) : Option Char :=
  if code < 0xD800 || (0xDFFF < code && code < 0x110000) then some (Char.ofNat code) else none

/-! ## Texts -/

/-- The character of an escape, and how many characters after the backslash it takes. -/
def unescape : List Char → Option (Char × Nat)
  | 'b' :: _ => some ('\x08', 1)
  | 't' :: _ => some ('\t', 1)
  | 'n' :: _ => some ('\n', 1)
  | 'f' :: _ => some ('\x0c', 1)
  | 'r' :: _ => some ('\r', 1)
  | '"' :: _ => some ('"', 1)
  | '\\' :: _ => some ('\\', 1)
  | 'u' :: rest =>
    if (rest.take 4).length < 4 then none
    else ((number? 16 (rest.take 4)).bind charOf?).map fun c => (c, 5)
  | 'U' :: rest =>
    if (rest.take 8).length < 8 then none
    else ((number? 16 (rest.take 8)).bind charOf?).map fun c => (c, 9)
  | _ => none

/-- The rest of a text on one line up to its closing quote; only between double quotes does a
backslash begin an escape. -/
def line (quote : Char) : List Char → Option (List Char × List Char)
  | [] => none
  | c :: rest =>
    if c == quote then some ([], rest)
    else if c == '\\' && quote == '"' then
      match unescape rest with
      | none => none
      | some (d, used) =>
        (line quote (rest.drop used)).map fun (body, after) => (d :: body, after)
    else if isControl c then none
    else (line quote rest).map fun (body, after) => (c :: body, after)
termination_by s => s.length
decreasing_by all_goals simp only [List.length_drop, List.length_cons]; omega

/-- How many blanks and line breaks stand at the head of a text, if there is a line break among
them and nothing but blanks before it. -/
def lineEndAfterBackslash (s : List Char) : Option Nat :=
  if (afterBreak? (skipBlanks s)).isSome then
    some (s.takeWhile fun c => c == ' ' || c == '\t' || c == '\n' || c == '\r').length
  else none

/-- The rest of a text on several lines up to its three closing quotes; up to two more quotes may
stand before them. -/
def lines (quote : Char) : List Char → Option (List Char × List Char)
  | [] => none
  | c :: rest =>
    if c == quote && rest.take 2 == [quote, quote] then
      let extra := ((rest.drop 2).takeWhile (· == quote)).take 2
      some (extra, rest.drop (2 + extra.length))
    else if c == '\\' && quote == '"' then
      match lineEndAfterBackslash rest with
      | some used => lines quote (rest.drop used)
      | none =>
        match unescape rest with
        | none => none
        | some (d, used) =>
          (lines quote (rest.drop used)).map fun (body, after) => (d :: body, after)
    else if c == '\n' then (lines quote rest).map fun (body, after) => ('\n' :: body, after)
    else if c == '\r' && rest.head? == some '\n' then
      (lines quote (rest.drop 1)).map fun (body, after) => ('\n' :: body, after)
    else if isControl c then none
    else (lines quote rest).map fun (body, after) => (c :: body, after)
termination_by s => s.length
decreasing_by all_goals simp only [List.length_drop, List.length_cons]; omega

/-- A text between quotes or between triple quotes; a line break right after the opening triple
quotes does not count. -/
def text? (allowLines : Bool) (s : List Char) : Option (String × List Char) :=
  match s with
  | c :: rest =>
    if c != '"' && c != '\'' then none
    else
      let read :=
        if allowLines && rest.take 2 == [c, c] then
          let body := rest.drop 2
          lines c ((afterBreak? body).getD body)
        else line c rest
      read.map fun (body, after) => (String.ofList body, after)
  | [] => none

/-! ## Numbers -/

/-- Digits of a base, in which underscores stand between digits only. -/
def digits? (base : Nat) (s : List Char) : Option (List Char) :=
  let plain := s.filter (· != '_')
  let parts := s.splitBy fun a b => (a == '_') == (b == '_')
  let wellPlaced := parts.all fun part => part.head? != some '_' || part.length == 1
  if s.isEmpty || s.head? == some '_' || s.getLast? == some '_' || !wellPlaced then none
  else if (number? base plain).isSome then some plain
  else none

/-- Decimal digits without a leading zero. -/
def wholeDigits? (s : List Char) : Option (List Char) :=
  (digits? 10 s).filter fun plain => plain.length == 1 || plain.head? != some '0'

/-- The sign at the head of a text, and the rest. -/
def splitSign : List Char → Bool × List Char
  | '-' :: rest => (true, rest)
  | '+' :: rest => (false, rest)
  | rest => (false, rest)

/-- An integer, if it has no more than 63 bits. -/
def integer? (negative : Bool) (n : Nat) : Option Setting :=
  let value : Int := if negative then -(n : Int) else n
  if -9223372036854775808 ≤ value ∧ value < 9223372036854775808 then some (.integer value) else none

/-- The part of a number before an exponent, and the exponent with its letter. -/
def splitExponent (s : List Char) : List Char × List Char :=
  let mantissa := s.takeWhile fun c => c != 'e' && c != 'E'
  (mantissa, s.drop mantissa.length)

/-- A number with a fraction or an exponent. -/
def real? (negative : Bool) (s : List Char) : Option Setting := do
  let (mantissa, exponent) := splitExponent s
  let whole := mantissa.takeWhile (· != '.')
  let wholePart ← wholeDigits? whole
  let fraction ← match mantissa.drop whole.length with
    | [] => some []
    | _ :: rest => (digits? 10 rest).map ('.' :: ·)
  let power ← match exponent with
    | [] => some []
    | _ :: rest =>
      let (down, size) := splitSign rest
      (digits? 10 size).map fun plain => 'e' :: (if down then ['-'] else []) ++ plain
  if fraction.isEmpty && power.isEmpty then none
  else
    match Binary64.read ((if negative then ['-'] else []) ++ wholePart ++ fraction ++ power) with
    | .ok x => if x.isInfinite then none else some (.real x)
    | .error _ => none

/-- A number. -/
def numeral? (s : List Char) : Option Setting :=
  let (negative, body) := splitSign s
  let based (base : Nat) (digits : List Char) : Option Setting := do
    if body.length ≠ s.length then none
    else integer? false (← number? base (← digits? base digits))
  match body with
  | '0' :: 'x' :: rest => based 16 rest
  | '0' :: 'o' :: rest => based 8 rest
  | '0' :: 'b' :: rest => based 2 rest
  | ['i', 'n', 'f'] => some (.real (Binary64.infinity negative))
  | ['n', 'a', 'n'] => some (.real Binary64.notANumber)
  | _ =>
    match wholeDigits? body with
    | some digits => (number? 10 digits).bind (integer? negative)
    | none => real? negative body

/-! ## Dates and times -/

/-- A number of exactly `width` digits between two limits at the head of a text, and the rest. -/
def fixed? (width low high : Nat) (s : List Char) : Option (Nat × List Char) := do
  let digits := s.take width
  if digits.length < width || !digits.all isDigit then none
  else
    let n ← number? 10 digits
    if low ≤ n && n ≤ high then some (n, s.drop width) else none

/-- What follows a character at the head of a text. -/
def after? (c : Char) : List Char → Option (List Char)
  | d :: rest => if d == c then some rest else none
  | [] => none

/-- What follows a date at the head of a text. -/
def afterDate? (s : List Char) : Option (List Char) := do
  let (year, s) ← fixed? 4 0 9999 s
  let (month, s) ← fixed? 2 1 12 (← after? '-' s)
  let (day, s) ← fixed? 2 1 31 (← after? '-' s)
  if day ≤ Calendar.monthLength year month then some s else none

/-- The written form of a time of day at the head of a text, and what follows it.  Of a fraction
nine digits count, and zeros at its end do not. -/
def time? (s : List Char) : Option (List Char × List Char) := do
  let (_, rest) ← fixed? 2 0 23 s
  let (_, rest) ← fixed? 2 0 59 (← after? ':' rest)
  let (_, rest) ← fixed? 2 0 60 (← after? ':' rest)
  let clock := s.take 8
  match rest with
  | '.' :: more =>
    let digits := more.takeWhile isDigit
    if digits.isEmpty then none
    else
      let shown := (((digits.take 9).reverse).dropWhile (· == '0')).reverse
      some (clock ++ (if shown.isEmpty then [] else '.' :: shown), more.drop digits.length)
  | _ => some (clock, rest)

/-- The written form of an offset from universal time that makes up a text, which may be empty. -/
def offset? (s : List Char) : Option (List Char) :=
  match s with
  | [] => some []
  | ['Z'] => some ['Z']
  | ['z'] => some ['Z']
  | sign :: rest =>
    if sign != '+' && sign != '-' then none
    else do
      let (_, more) ← fixed? 2 0 24 rest
      let (_, more) ← fixed? 2 0 59 (← after? ':' more)
      if more.isEmpty then some s else none

/-- A date, a date with a time, or a time, as text. -/
def moment? (s : List Char) : Option Setting :=
  match afterDate? s with
  | some [] => some (.text (String.ofList s))
  | some (separator :: rest) =>
    if separator != 'T' && separator != 't' && separator != ' ' then none
    else do
      let (clock, more) ← time? rest
      let offset ← offset? more
      some (.text (String.ofList (s.take 10 ++ 'T' :: clock ++ offset)))
  | none =>
    match time? s with
    | some (clock, []) => some (.text (String.ofList clock))
    | _ => none

/-! ## Bare values -/

/-- Whether a character may stand in a value without quotes. -/
def isBareChar (c : Char) : Bool :=
  c.isAlphanum || c == '+' || c == '-' || c == '_' || c == '.' || c == ':'

/-- The characters of a value without quotes at the head of a text.  A blank may join a date and a
time. -/
def bareRun (s : List Char) : List Char :=
  let run := s.takeWhile isBareChar
  match s.drop run.length with
  | ' ' :: rest =>
    let more := rest.takeWhile isBareChar
    if run.length == 10 && afterDate? run == some [] && (time? more).isSome then
      run ++ ' ' :: more
    else run
  | _ => run

/-- A value without quotes. -/
def bare? (s : List Char) : Option (Setting × List Char) :=
  let run := bareRun s
  let value :=
    if run == ['t', 'r', 'u', 'e'] then some (.truth true)
    else if run == ['f', 'a', 'l', 's', 'e'] then some (.truth false)
    else (numeral? run).or (moment? run)
  value.map fun value => (value, s.drop run.length)

end WorkQueue.Setting.Toml
