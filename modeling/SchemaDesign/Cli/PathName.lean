/-!
# Path names

What the program computes from the text of a path without looking at any file: its last
component, the path of its parent, and the path of a sibling.

A path is a text of pieces separated by slashes. A slash at its start makes it absolute, and a
relative path that is `.` or starts with `./` starts at an explicit current directory. Every
other piece that is empty (between repeated slashes, or after a final slash) or `.` is no
component and is passed over. The parent of a path is a slice of its text: what stands before
its last component, without the pieces passed over at its end, so that `a//b/.` has the parent
`a` and `nope/../x` the parent `nope/..`; a relative path of one component has the empty parent.
-/

namespace SchemaDesign

namespace PathName

/-- How a path starts: at the root, at an explicit current directory, or with a component. -/
inductive Start where
  | root
  | current
  | plain
  deriving DecidableEq, Repr

/-- The text a start stands for. -/
def Start.text : Start → String
  | .root => "/"
  | .current => "."
  | .plain => ""

/-- The start of a path and the pieces of the text after it, split at every slash. -/
def split (path : String) : Start × List String :=
  if path.startsWith "/" then (.root, (path.drop 1).toString.splitOn "/")
  else if path = "." || path.startsWith "./" then (.current, (path.drop 1).toString.splitOn "/")
  else (.plain, path.splitOn "/")

/-- Whether a piece after the start is no component: empty, or `.`. -/
def passedOver (piece : String) : Bool := piece.isEmpty || piece = "."

/-- Pieces without the pieces passed over at their end. -/
def trimEnd (pieces : List String) : List String :=
  (pieces.reverse.dropWhile passedOver).reverse

/-- The last component of a path after its start, if it has one. -/
def last? (path : String) : Option String := (trimEnd (split path).2).getLast?

/-- The file name of a path: its last component, unless that is `..` or the path has no
component after its start. -/
def fileName? (path : String) : Option String :=
  match last? path with
  | some ".." | none => none
  | some name => some name

/-- The parent of a path, as a slice of its text. A path that is only a root, or empty, has
none; a path that is only the current directory has the empty parent. -/
def parent? (path : String) : Option String :=
  let (start, pieces) := split path
  let kept := trimEnd pieces
  if kept.isEmpty then
    match start with
    | .current => some ""
    | _ => none
  else some (start.text ++ "/".intercalate (trimEnd kept.dropLast))

/-- The path of a sibling named `name`: the parent's text joined with `name` for a path with a
file name, the path itself joined with `name` otherwise; no slash is added after an empty text
or one ending in a slash. -/
def withFileName (path name : String) : String :=
  let base := if (fileName? path).isSome then (parent? path).getD "" else path
  if base.isEmpty then name
  else if base.endsWith "/" then base ++ name
  else base ++ "/" ++ name

end PathName

end SchemaDesign
