import WorkQueue.Config.Problem
import WorkQueue.Settings.Json
import WorkQueue.Settings.Merge
import WorkQueue.Settings.Toml.Document
import WorkQueue.Settings.Yaml.Document
import WorkQueue.Text.Split

/-!
# Settings files

Files are texts under paths of a working directory.  A settings file is named with or without the
extension that tells its format; a name that is no file is tried with each known extension.

TOML, JSON and YAML are read here.  There are other formats, and names without an extension are
tried with all extensions in no fixed order, so `Reading` says which formats are tried, and in which
order.
-/

namespace WorkQueue

/-- The texts of files under their paths. -/
abbrev Files := Table String

namespace Files

open WorkQueue.Text

/-! ## Paths -/

/-- The names that a path leads through, without those that stay where they are. -/
def names (path : String) : List String :=
  ((pieces '/' path.toList).filter fun piece => !piece.isEmpty && piece != ['.']).map String.ofList

/-- Whether a list of names leads to a directory. -/
def isDirectory (files : Files) (walked : List String) : Bool :=
  walked.isEmpty ||
    files.any fun file =>
      walked.isPrefixOf (names file.1) && decide (walked.length < (names file.1).length)

/-- The names from the working directory to where a path leads, if it stays inside: two points lead
out of a directory again. -/
def resolve? (files : Files) (path : String) : Option (List String) :=
  if path.toList.head? == some '/' then none
  else
    (names path).foldlM
      (fun walked name =>
        if name != ".." then some (walked ++ [name])
        else if !walked.isEmpty && files.isDirectory walked then some walked.dropLast
        else none) []

/-- Whether a path ends in a name that can be that of a file. -/
def endsInName (path : String) : Bool :=
  match (pieces '/' path.toList).getLast? with
  | some piece => !piece.isEmpty && piece != ['.'] && piece != ['.', '.']
  | none => false

/-- The text of the file at a path. -/
def text? (files : Files) (path : String) : Option String := do
  let walked ← files.resolve? path
  if endsInName path then (files.find? fun file => names file.1 == walked).map (·.2) else none

/-- Whether there is a file or a directory at a path. -/
def has (files : Files) (path : String) : Bool :=
  (files.text? path).isSome ||
    (path != "" && ((files.resolve? path).map files.isDirectory).getD false)

/-- A path with an extension put after its last name, if that can be the name of a file. -/
def withExtension? (extension path : String) : Option String :=
  let trailing (piece : List Char) : Bool := piece.isEmpty || piece == ['.']
  match (pieces '/' path.toList).reverse.dropWhile trailing with
  | [] => none
  | name :: outer =>
    if name == ['.', '.'] then none
    else
      let kept := ((name ++ '.' :: extension.toList) :: outer).reverse.map String.ofList
      some ("/".intercalate kept)

/-! ## Formats -/

/-- A format of settings files. -/
inductive Format where
  | yaml
  | toml
  | json
  /-- Another format, by the settings of a text. -/
  | other (read : String → Option Setting)

/-- The formats that are read here, by their extensions. -/
def formats : List (String × Format) :=
  [("toml", .toml), ("json", .json), ("yaml", .yaml), ("yml", .yaml)]

/-- The extension of a path: what stands after the last point of its last name, unless that point is
the first character of the name. -/
def extension (path : String) : String :=
  let name := ((names path).getLast?.map String.toList).getD []
  let tail := (name.reverse.takeWhile (· != '.')).reverse
  if tail.length + 1 < name.length then String.ofList tail else ""

/-- The settings of a text in a format. -/
def Format.read : Format → String → Option Setting
  | .yaml, text => Setting.readYaml text
  | .toml, text => Setting.readToml text
  | .json, text => Setting.readJson text
  | .other read, text => read text

/-- The file that a name stands for, with its format: the file of that very name, or the first of
the name with an extension.  A file of that name with another extension has no format. -/
def locate? (files : Files) (name : String) (formats : List (String × Format) := formats) :
    Option (String × Option Format) :=
  match files.text? name with
  | some text =>
    some (text, (formats.find? fun format => format.1 == extension name).map (·.2))
  | none =>
    formats.findSome? fun (extension, format) => do
      let path ← withExtension? extension name
      return (← files.text? path, some format)

end Files

/-- What a file does not say about being read: the order in which its tables are gone through, what
goes wrong in the system, if something does, and the formats by their extensions, in the order in
which they are tried. -/
structure Reading where
  order : SettingOrder := .listed
  failure : Option String := none
  formats : List (String × Files.Format) := Files.formats

/-- Nothing goes wrong, the entries of a table are gone through as they are listed, and only the
formats that are read here are tried. -/
def Reading.smooth : Reading := {}

/-- The table of the settings file that a name stands for. -/
def Files.settings (files : Files) (name : String) (reading : Reading := .smooth) :
    Except ConfigProblem (Table Setting) :=
  match files.locate? name reading.formats, reading.failure with
  | none, _ => .error (.missingFile name)
  | some (_, none), _ => .error (.unreadableFile "unknown format")
  | some (_, some _), some detail => .error (.unreadableFile detail)
  | some (text, some format), none =>
    match (format.read text).map (Setting.arranged reading.order) with
    | some (.table entries) => .ok (Setting.assemble entries)
    | _ => .error (.unreadableFile "malformed settings")

end WorkQueue
