import WorkQueue.Json.Document
import WorkQueue.Settings.Basic

/-!
# Settings in JSON

A JSON document as settings.  Integers beyond 63 bits become real numbers.
-/

namespace WorkQueue.Setting

mutual

/-- A JSON value as a setting. -/
def ofJson : Json → Setting
  | .null => .nothing
  | .bool b => .truth b
  | .integer n => if n < 9223372036854775808 then .integer n else .real (Binary64.ofInt n)
  | .real x => .real x
  | .text s => .text s
  | .list items => .list (ofJsonItems items)
  | .object fields => .table (ofJsonFields fields)

/-- The items of a JSON list as settings. -/
def ofJsonItems : List Json → List Setting
  | [] => []
  | item :: rest => ofJson item :: ofJsonItems rest

/-- The fields of a JSON object as settings. -/
def ofJsonFields : List (String × Json) → List (String × Setting)
  | [] => []
  | (name, value) :: rest => (name, ofJson value) :: ofJsonFields rest

end

/-- The settings of a JSON text. -/
def readJson (text : String) : Option Setting :=
  match Json.read (Text.symbols text) with
  | .ok value => some (ofJson value)
  | .error _ => none

end WorkQueue.Setting
