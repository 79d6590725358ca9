import WorkQueue.Json.Basic

/-!
# Access to JSON values

Functions that take a value apart when it is of a certain kind, and functions for the fields of an
object: a field may be there or not (`optional`), have a value for when it is not (`withDefault`),
or have to be there (`required`).  `ordered` puts the fields of all objects in one order.
-/

namespace WorkQueue.Json

/-! ## Words of 32 bits -/

/-- A natural number that was read is taken for the word of 32 bits that it stands for. -/
scoped instance : Coe Nat UInt32 := ⟨UInt32.ofNat⟩

/-- A word is written as the natural number that it is. -/
scoped instance : Coe UInt32 Nat := ⟨UInt32.toNat⟩

/-! ## Kinds -/

/-- The text that a value is. -/
def text? : Json → Option String
  | .text s => some s
  | _ => none

/-- The truth value that a value is. -/
def truth? : Json → Option Bool
  | .bool b => some b
  | _ => none

/-- The integer that a value is. -/
def integer? : Json → Option Int
  | .integer n => some n
  | _ => none

/-- The natural number that a value is. -/
def natural? : Json → Option Nat
  | .integer n => if 0 ≤ n then some n.toNat else none
  | _ => none

/-- The natural number below `bound` that a value is. -/
def naturalBelow? (bound : Nat) (value : Json) : Option Nat :=
  value.natural?.filter fun n => decide (n < bound)

/-- The number that a value is. -/
def real? : Json → Option Binary64
  | .integer n => some (Binary64.ofInt n)
  | .real x => some x
  | _ => none

/-- The items of a list, each taken apart by `item`. -/
def items? {α : Type} (item : Json → Option α) : Json → Option (List α)
  | .list items => items.mapM item
  | _ => none

/-- The two items of a list of two. -/
def pair? {α β : Type} (first : Json → Option α) (second : Json → Option β) :
    Json → Option (α × β)
  | .list [a, b] => do return (← first a, ← second b)
  | _ => none

/-- The fields of an object, each value taken apart by `item`. -/
def table? {α : Type} (item : Json → Option α) : Json → Option (Table α)
  | .object fields => do
    let entries ← fields.mapM fun entry => do return (entry.1, ← item entry.2)
    return Table.ofEntries entries
  | _ => none

/-! ## Fields -/

/-- The value of a field, if the field is there and not null.  There is no result at all if the
value is not of its kind. -/
def optional {α : Type} (item : Json → Option α) (name : String) (value : Json) :
    Option (Option α) :=
  match value.field? name with
  | none => some none
  | some .null => some none
  | some field => (item field).map some

/-- The value of a field, or `default` if the field is not there or null. -/
def withDefault {α : Type} (item : Json → Option α) (default : α) (name : String) (value : Json) :
    Option α :=
  (optional item name value).map (·.getD default)

/-- The value of a field that has to be there. -/
def required {α : Type} (item : Json → Option α) (name : String) (value : Json) : Option α :=
  (value.field? name).bind item

/-- An object without a field. -/
def without (name : String) : Json → Json
  | .object fields => .object (Table.erase name fields)
  | value => value

/-! ## Order -/

mutual

/-- A value with the fields of every object in the order of their names. -/
def ordered : Json → Json
  | .list items => .list (orderedItems items)
  | .object fields => ofFields (orderedFields fields)
  | value => value

/-- Items with the fields of every object in the order of their names. -/
def orderedItems : List Json → List Json
  | [] => []
  | item :: rest => ordered item :: orderedItems rest

/-- Fields whose values have the fields of every object in the order of their names. -/
def orderedFields : List (String × Json) → List (String × Json)
  | [] => []
  | (name, value) :: rest => (name, ordered value) :: orderedFields rest

end

end WorkQueue.Json
