/-! # Path text

A path is text of names separated by slashes. Read as a list of parts, a leading slash is the
root, a leading `.` is the current directory, `..` is the parent, and every other non-empty
name is a normal part; empty names and later `.` names stand for nothing and are dropped.

Joining a relative path onto another puts one slash between them unless the first already
ends in one; an absolute path joined onto anything replaces it. A path's file name is its last
part when that is a normal part.
-/

namespace SchemaTypes.Files

/-- The names of a path between its slashes, empty ones included: `a//b/` has the names `a`,
the empty name, `b` and the empty name. -/
def slashNames (path : String) : List String := (path.toList.splitOn '/').map String.ofList

/-- One part of a path. -/
inductive PathPart where
  | root
  | current
  | parent
  | normal (name : String)
  deriving DecidableEq

namespace PathPart

/-- The parts named by the slash-separated names after the first. -/
def ofNames (names : List String) : List PathPart :=
  names.filterMap fun s =>
    if s = "" ∨ s = "." then none else if s = ".." then some .parent else some (.normal s)

/-- The parts of a path. -/
def parts (path : String) : List PathPart :=
  if path.isEmpty then []
  else
    match slashNames path with
    | "" :: rest => .root :: ofNames rest
    | "." :: rest => .current :: ofNames rest
    | names => ofNames names

/-- The text of one part; the root is the empty name before the first slash. -/
def text : PathPart → String
  | .root => ""
  | .current => "."
  | .parent => ".."
  | .normal name => name

/-- The path text of a list of parts. -/
def render : List PathPart → String
  | [.root] => "/"
  | ps => "/".intercalate (ps.map text)

/-- The last part of a path, when it is a normal part. -/
def fileName? (path : String) : Option String :=
  match (parts path).getLast? with
  | some (.normal name) => some name
  | _ => none

/-- Whether a path names the current directory and nothing more. -/
def isCurrent (path : String) : Bool := parts path == [.current]

/-- A path joined onto a base. -/
def join (base path : String) : String :=
  if path.toList.head? = some '/' then path
  else if base.isEmpty || base.toList.getLast? = some '/' then base ++ path
  else base ++ "/" ++ path

end PathPart

end SchemaTypes.Files
