import SchemaDesign.Cli.PathName

/-!
# The files a run works on

A workspace holds files by place, relative to the working directory, and the directories created
in it. A directory exists when it was created or when a file lies below it; the working
directory, the directories above it and the root always exist.

A path is followed as an operating system follows it, one component at a time: each component
but the last must name a directory (else the path fails as missing or as not a directory), `.`
stays and `..` goes up. The last component is looked up in the directory reached; a slash after
it asks for a directory. A path ending in `.`, `..` or the root names the directory reached
itself, which can be neither created, written nor renamed over. The failures are those of the
operating system, with its messages: a file opened to be written or created is refused for a
directory and for any path ending in a slash, a directory is made only where nothing is, and a
file is moved only onto a name that is no directory.
-/

namespace SchemaDesign

/-- Why a file operation failed, in the operating system's words. -/
inductive IoFailure where
  | notFound
  | isDirectory
  | notDirectory
  | alreadyExists
  /-- A file that is not text. -/
  | invalidData
  /-- Any other failure: the operating system's code and its words for it. -/
  | other (code : Nat) (text : String)
  deriving DecidableEq, Repr, Inhabited

namespace IoFailure

/-- The operating system's message. -/
def message : IoFailure → String
  | .notFound => "No such file or directory (os error 2)"
  | .isDirectory => "Is a directory (os error 21)"
  | .notDirectory => "Not a directory (os error 20)"
  | .alreadyExists => "File exists (os error 17)"
  | .invalidData => "stream did not contain valid UTF-8"
  | .other code text => text ++ " (os error " ++ toString code ++ ")"

/-- The failure an operating system's error code stands for. -/
def ofCode (code : Nat) : IoFailure :=
  if code = 2 then .notFound
  else if code = 17 then .alreadyExists
  else if code = 20 then .notDirectory
  else if code = 21 then .isDirectory
  else
    let known : List (Nat × String) :=
      [(1, "Operation not permitted"), (5, "Input/output error"), (13, "Permission denied"),
       (16, "Device or resource busy"), (18, "Invalid cross-device link"),
       (22, "Invalid argument"), (24, "Too many open files"),
       (27, "File too large"), (28, "No space left on device"), (30, "Read-only file system"),
       (36, "File name too long"), (39, "Directory not empty"),
       (40, "Too many levels of symbolic links")]
    .other code ((known.lookup code).getD "Unknown error")

end IoFailure

/-- The segments of a path with `.` and empty segments dropped and `..` going up one segment;
a first segment `/` makes it absolute. -/
def pathSegments (path : String) : List String :=
  let parts := (path.splitOn "/").filter fun p => !p.isEmpty && p != "."
  let absolute := if path.startsWith "/" then ["/"] else []
  (parts.foldl (fun (acc : List String) p =>
    if p = ".." then
      match acc.getLast? with
      | some last => if last = ".." || last = "/" then acc ++ [p] else acc.dropLast
      | none => [p]
    else acc ++ [p]) absolute)

/-- Segments joined into a path; a first segment `/` makes it absolute. -/
def joinSegments : List String → String
  | "/" :: rest => "/" ++ "/".intercalate rest
  | segs => "/".intercalate segs

/-- A path in normal form. -/
def normalPath (path : String) : String := joinSegments (pathSegments path)

/-- A place reached by following a path: the segments from the working directory, starting
with `..` segments for a place above it and with `/` for an absolute one. -/
abbrev Place := List String

/-- The place one directory up. Above the working directory lie its parents; the root is its
own parent. -/
def Place.up (p : Place) : Place :=
  if p = ["/"] then p
  else if p.all (· = "..") then p ++ [".."]
  else p.dropLast

/-- What a place holds. -/
inductive Entry where
  | file (content : String)
  | directory
  | missing
  deriving DecidableEq, Repr

/-- What the last component of a path names. -/
inductive Target where
  /-- A name to look up in the directory reached, and whether a slash follows it. -/
  | entry (dir : Place) (name : String) (slash : Bool)
  /-- `.`, `..` or the root: the directory reached itself. -/
  | itself
  deriving DecidableEq, Repr

/-- Files and directories. -/
structure Workspace where
  files : List (String × String)
  dirs : List String := []
  deriving Repr, Inhabited

namespace Workspace

/-- The content of the file at a normal path. -/
def file? (w : Workspace) (normal : String) : Option String :=
  (w.files.find? (·.1 = normal)).map (·.2)

/-- Whether a place is a directory. -/
def isDir (w : Workspace) (p : Place) : Bool :=
  let key := joinSegments p
  p.all (· = "..") || p = ["/"] || w.dirs.contains key ||
    w.files.any fun (f, _) => f.startsWith (key ++ "/")

/-- What a place holds. -/
def entry (w : Workspace) (p : Place) : Entry :=
  match w.file? (joinSegments p) with
  | some content => .file content
  | none => if w.isDir p then .directory else .missing

/-- Follows components that must lead to directories, from a place. -/
def walk (w : Workspace) : Place → List String → Except IoFailure Place
  | p, [] => .ok p
  | p, c :: rest =>
    if c = "." then walk w p rest
    else if c = ".." then walk w p.up rest
    else
      match w.entry (p ++ [c]) with
      | .directory => walk w (p ++ [c]) rest
      | .file _ => .error .notDirectory
      | .missing => .error .notFound

/-- Follows a path up to its last component. The empty path is missing. -/
def lookup (w : Workspace) (path : String) : Except IoFailure Target :=
  let comps := (path.splitOn "/").filter (!·.isEmpty)
  let start : Place := if path.startsWith "/" then ["/"] else []
  match comps.getLast? with
  | none => if path.startsWith "/" then .ok .itself else .error .notFound
  | some last =>
    (w.walk start comps.dropLast).map fun dir =>
      if last = "." || last = ".." then .itself else .entry dir last (path.endsWith "/")

/-- The content of a file. -/
def read (w : Workspace) (path : String) : Except IoFailure String := do
  match ← w.lookup path with
  | .itself => throw .isDirectory
  | .entry dir name slash =>
    match w.entry (dir ++ [name]) with
    | .file content => if slash then throw .notDirectory else pure content
    | .directory => throw .isDirectory
    | .missing => throw .notFound

/-- Whether a path names a directory. -/
def isDirAt (w : Workspace) (path : String) : Bool :=
  match w.lookup path with
  | .ok .itself => true
  | .ok (.entry dir name _) => w.entry (dir ++ [name]) = .directory
  | .error _ => false

/-- Sets the content of a file at a normal path. -/
def put (w : Workspace) (normal content : String) : Workspace :=
  if (w.file? normal).isSome then
    { w with files := w.files.map fun (p, c) => if p = normal then (p, content) else (p, c) }
  else { w with files := w.files ++ [(normal, content)] }

/-- The place of a file opened to be written, created if missing: refused for a directory and
for a path ending in a slash. -/
def writable (w : Workspace) (path : String) : Except IoFailure Place := do
  match ← w.lookup path with
  | .itself => throw .isDirectory
  | .entry dir name slash =>
    if slash then throw .isDirectory
    if w.entry (dir ++ [name]) = .directory then throw .isDirectory
    pure (dir ++ [name])

/-- Writes a file, creating or replacing it. -/
def write (w : Workspace) (path content : String) : Except IoFailure Workspace :=
  (w.writable path).map fun p => w.put (joinSegments p) content

/-- Creates a file if it is missing, for appending. -/
def touch (w : Workspace) (path : String) : Except IoFailure Workspace :=
  (w.writable path).map fun p =>
    let key := joinSegments p
    if (w.file? key).isSome then w else w.put key ""

/-- Appends to a file opened for appending. -/
def append (w : Workspace) (path text : String) : Workspace :=
  match w.writable path with
  | .ok p =>
    let key := joinSegments p
    w.put key ((w.file? key).getD "" ++ text)
  | .error _ => w

/-- Makes one directory where nothing is. -/
def mkdir (w : Workspace) (path : String) : Except IoFailure Workspace := do
  match ← w.lookup path with
  | .itself => throw .alreadyExists
  | .entry dir name _ =>
    if w.entry (dir ++ [name]) = .missing then
      pure { w with dirs := w.dirs ++ [joinSegments (dir ++ [name])] }
    else throw .alreadyExists

/-- Makes a directory and those above it, as named by the path's parents: a directory that
cannot be made for want of the one above it is made after its parent, and one that cannot be
made because it is already a directory is there. A parent is shorter than its path, so the
length of the path bounds the depth; `fuel` counts it. -/
def createDirAllWithin : Nat → Workspace → String → Except IoFailure Workspace
  | 0, _, _ => .error .notFound
  | fuel + 1, w, path =>
    if path.isEmpty then .ok w
    else match w.mkdir path with
      | .ok w' => .ok w'
      | .error .notFound =>
        match PathName.parent? path with
        | some parent =>
          match createDirAllWithin fuel w parent with
          | .ok w' =>
            match w'.mkdir path with
            | .ok w'' => .ok w''
            | .error e => if w'.isDirAt path then .ok w' else .error e
          | .error e => .error e
        | none => .error .notFound
      | .error e => if w.isDirAt path then .ok w else .error e

/-- Makes a directory and those above it. -/
def createDirAll (w : Workspace) (path : String) : Except IoFailure Workspace :=
  createDirAllWithin (path.length + 1) w path

/-- Moves a file over another path. Both paths must end in a name; the file must exist and no
slash may follow either name, and a directory cannot be replaced by a file. -/
def rename (w : Workspace) (src dst : String) : Except IoFailure Workspace := do
  let origin ← w.lookup src
  let destination ← w.lookup dst
  let .entry sdir sname sslash := origin | throw (IoFailure.ofCode 16)
  let .entry ddir dname dslash := destination | throw (IoFailure.ofCode 16)
  let source := joinSegments (sdir ++ [sname])
  let target := ddir ++ [dname]
  match w.entry (sdir ++ [sname]) with
  | .missing => throw .notFound
  | .directory => throw .isDirectory
  | .file content =>
    if sslash || dslash then throw .notDirectory
    if w.entry target = .directory then throw .isDirectory
    let w := { w with files := w.files.filter (·.1 ≠ source) }
    pure (w.put (joinSegments target) content)

end Workspace

end SchemaDesign
