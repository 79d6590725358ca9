/-!
# Splitting texts

Pieces of a text between copies of a character, and the two parts of a text around its first copy.
-/

namespace WorkQueue.Text

/-- The pieces of a text between the copies of `c`; there is one more of them than of copies. -/
def pieces (c : Char) : List Char → List (List Char)
  | [] => [[]]
  | d :: rest =>
    if d = c then [] :: pieces c rest
    else
      match pieces c rest with
      | [] => [[d]]
      | piece :: more => (d :: piece) :: more

/-- What stands before and after the first copy of `c`, if there is one. -/
def cut (c : Char) : List Char → Option (List Char × List Char)
  | [] => none
  | d :: rest =>
    if d = c then some ([], rest)
    else (cut c rest).map fun (before, after) => (d :: before, after)

end WorkQueue.Text
