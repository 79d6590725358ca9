import WorkQueue.Binary64.Decimal
import WorkQueue.Text.Lowercase

/-!
# Settings

What a settings file holds, whatever its format, is a tree of tables and lists over plain values.
A plain value is converted to the type of the field that it is for: words and numbers stand for
truth values and the other way round, and numbers may be given as texts.
-/

namespace WorkQueue

/-- A value of a settings file. -/
inductive Setting where
  | nothing
  | truth (value : Bool)
  | integer (value : Int)
  | real (value : Binary64)
  | text (value : String)
  | list (items : List Setting)
  | table (entries : List (String × Setting))

/-- An order in which the entries of the tables of a file are gone through.  A file does not say
what it is. -/
structure SettingOrder where
  arrange : List (String × Setting) → List (String × Setting)
  perm : ∀ entries, (arrange entries).Perm entries

/-- The order in which entries are listed. -/
def SettingOrder.listed : SettingOrder := ⟨id, fun _ => List.Perm.refl _⟩

namespace Setting

open WorkQueue.Text

instance : Inhabited Setting := ⟨nothing⟩

mutual

/-- A setting with the entries of its tables in the order in which they are gone through.  The
tables in a list are never gone through. -/
def arranged (order : SettingOrder) : Setting → Setting
  | table entries => table (order.arrange (arrangedEntries order entries))
  | value => value

/-- Entries whose values are arranged. -/
def arrangedEntries (order : SettingOrder) : List (String × Setting) → List (String × Setting)
  | [] => []
  | (name, value) :: rest => (name, arranged order value) :: arrangedEntries order rest

end

/-- The truth value that a word stands for, in any case. -/
def wordTruth? (s : String) : Option Bool :=
  let word := Text.lower s
  if word = "true" || word = "on" || word = "yes" then some true
  else if word = "false" || word = "off" || word = "no" then some false
  else none

/-- A natural number below `bound`.  Fractions are rounded, a half away from zero. -/
def toNat? (bound : Nat) : Setting → Option Nat
  | integer n => if 0 ≤ n ∧ n < bound then some n.toNat else none
  | real x =>
    let n := x.toNatBelow bound64
    if n < bound then some n else none
  | truth b => some (if b then 1 else 0)
  | text s =>
    match wordTruth? s with
    | some b => some (if b then 1 else 0)
    | none => (readNat bound64 s.toList).toOption.filter fun n => n < bound
  | _ => none

/-- A truth value; a number is true unless it is zero. -/
def toTruth? : Setting → Option Bool
  | truth b => some b
  | integer n => some (n != 0)
  | real x => some !x.isZero
  | text s => if s = "1" then some true else if s = "0" then some false else wordTruth? s
  | _ => none

/-- A real number. -/
def toReal? : Setting → Option Binary64
  | real x => some x
  | integer n => some (Binary64.ofInt n)
  | truth b => some (if b then Binary64.one else Binary64.zero)
  | text s =>
    match wordTruth? s with
    | some b => some (if b then Binary64.one else Binary64.zero)
    | none => (Binary64.read s.toList).toOption
  | _ => none

/-- A text. -/
def toText? : Setting → Option String
  | text s => some s
  | truth b => some (if b then "true" else "false")
  | integer n => some (toString n)
  | real x => some x.render
  | _ => none

end Setting

end WorkQueue
