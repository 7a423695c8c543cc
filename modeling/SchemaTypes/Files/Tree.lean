import SchemaTypes.Files.Path
import SchemaTypes.Error

/-! # A directory of text files

A `FileTree` is the working directory of a command: every file under the names on its way
down, with its text, and the directories that were made. A directory exists when it is the
top, was made, or lies above a file or a made directory.

A path is followed one slash-separated name at a time, and every step must start from a
directory: stepping out of a file fails as "not a directory", stepping out of a missing
entry as "not found". `..` leads to the parent, and above the top to the directories that
hold the working directory, which are known to exist but whose other entries are unknown.
Reading what is unknown fails as "not found"; making a directory or writing a file there is
taken to succeed and leaves the tree as it is.

Making a directory fails when something exists already; making one with all its missing
parents makes the parents first and takes an existing directory as success. Writing a file
replaces or adds it, and fails on a directory.
-/

namespace SchemaTypes.Files

/-- The files under a working directory, by the names leading to them, and the directories
made there. -/
structure FileTree where
  files : List (List String × String) := []
  dirs : List (List String) := []

/-- What the names from the top lead to inside the tree. -/
inductive Entry where
  | file (content : String)
  | directory
  | missing

/-- Where a path leads: inside the tree, to a directory above it, or somewhere unknown below
such a directory. -/
inductive Place where
  | inside (names : List String)
  | ancestor
  | afar

/-- The names of a relative path, leaving out empty and `.` names. -/
def namesOf (path : String) : List String :=
  (slashNames path).filter fun s => s ≠ "" ∧ s ≠ "."

/-- A path without its trailing slashes; a path of slashes alone keeps one. -/
def trimSlashes (path : String) : String :=
  let kept := (path.toList.reverse.dropWhile (· == '/')).reverse
  if kept.isEmpty && !path.isEmpty then "/" else String.ofList kept

namespace FileTree

/-- A tree of the given files, each given by its relative path. -/
def ofFiles (entries : List (String × String)) : FileTree :=
  { files := entries.map fun (path, content) => (namesOf path, content) }

/-- The text of the file under some names. -/
def fileAt? (t : FileTree) (names : List String) : Option String :=
  (t.files.find? (·.1 == names)).map (·.2)

/-- Whether the names lead to a directory: the top, a made directory, or one above a file or
a made directory. -/
def hasDirectory (t : FileTree) (names : List String) : Bool :=
  names.isEmpty || t.dirs.contains names ||
    (t.files.map (·.1) ++ t.dirs).any fun p => names.isPrefixOf p && names.length < p.length

/-- What some names lead to. -/
def entryAt (t : FileTree) (names : List String) : Entry :=
  match t.fileAt? names with
  | some content => .file content
  | none => if t.hasDirectory names then .directory else .missing

/-- One step along a path. -/
def step (t : FileTree) : Place → String → Except IoFailure Place
  | .inside names, name =>
    match t.entryAt names with
    | .missing => .error .notFound
    | .file _ => .error .notADirectory
    | .directory =>
      if name = "" ∨ name = "." then .ok (.inside names)
      else if name = ".." then .ok (if names.isEmpty then .ancestor else .inside names.dropLast)
      else .ok (.inside (names ++ [name]))
  | .ancestor, name =>
    if name = "" ∨ name = "." ∨ name = ".." then .ok .ancestor else .ok .afar
  | .afar, _ => .ok .afar

/-- Where a path leads; the empty path leads nowhere. -/
def locate (t : FileTree) (path : String) : Except IoFailure Place :=
  if path.isEmpty then .error .notFound
  else
    match slashNames path with
    | "" :: rest => rest.foldlM t.step .ancestor
    | names => names.foldlM t.step (.inside [])

/-- The text of the file at a path. -/
def read (t : FileTree) (path : String) : Except IoFailure String := do
  match ← t.locate path with
  | .inside names =>
    match t.entryAt names with
    | .file content => .ok content
    | .directory => .error .isADirectory
    | .missing => .error .notFound
  | .ancestor => .error .isADirectory
  | .afar => .error .notFound

/-- Whether a path leads to something that exists. -/
def present (t : FileTree) (path : String) : Bool :=
  match t.locate path with
  | .ok (.inside names) =>
    match t.entryAt names with
    | .missing => false
    | _ => true
  | .ok .ancestor => true
  | _ => false

/-- Whether a path leads to a directory. -/
def isDirectory (t : FileTree) (path : String) : Bool :=
  match t.locate path with
  | .ok (.inside names) =>
    match t.entryAt names with
    | .directory => true
    | _ => false
  | .ok .ancestor => true
  | _ => false

/-- The names directly inside the directory under some names, in the order first met. -/
def childNames (t : FileTree) (names : List String) : List String :=
  (t.files.map (·.1) ++ t.dirs).foldl (fun acc p =>
    if names.isPrefixOf p then
      match p.drop names.length with
      | child :: _ => if acc.contains child then acc else acc ++ [child]
      | [] => acc
    else acc) []

/-- The entries of the directory at a path, each with whether it is a directory. Nothing is
known of the entries of a directory above the tree. -/
def listing (t : FileTree) (path : String) : List (String × Bool) :=
  match t.locate path with
  | .ok (.inside names) =>
    (t.childNames names).map fun child =>
      (child, match t.entryAt (names ++ [child]) with
        | .directory => true
        | _ => false)
  | _ => []

/-- Makes one directory, whose parent must exist. -/
def makeDirectory (t : FileTree) (path : String) : Except IoFailure FileTree := do
  match ← t.locate (trimSlashes path) with
  | .inside names =>
    match t.entryAt names with
    | .missing => .ok { t with dirs := t.dirs ++ [names] }
    | _ => .error .alreadyExists
  | .ancestor => .error .alreadyExists
  | .afar => .ok t

/-- Makes a directory given by its parts, with every missing parent; an existing directory
is success. -/
def makeDirectories (t : FileTree) (ps : List PathPart) : Except IoFailure FileTree :=
  if h : ps = [] then .ok t
  else
    let path := PathPart.render ps
    match t.makeDirectory path with
    | .ok t' => .ok t'
    | .error .notFound =>
      if ps.getLast h = .root then .error .notFound
      else
        match makeDirectories t ps.dropLast with
        | .error e => .error e
        | .ok t2 =>
          match t2.makeDirectory path with
          | .ok t3 => .ok t3
          | .error e => if t2.isDirectory path then .ok t2 else .error e
    | .error e => if t.isDirectory path then .ok t else .error e
termination_by ps.length
decreasing_by
  simp only [List.length_dropLast]
  have : 0 < ps.length := List.length_pos_iff.mpr h
  omega

/-- Makes the directory at a path with every missing parent. -/
def makeAll (t : FileTree) (path : String) : Except IoFailure FileTree :=
  t.makeDirectories (PathPart.parts path)

/-- Sets the text of the file under some names, in place or as a new file. -/
def setFile (t : FileTree) (names : List String) (content : String) : FileTree :=
  if t.files.any (·.1 == names) then
    { t with files := t.files.map fun f => if f.1 == names then (names, content) else f }
  else { t with files := t.files ++ [(names, content)] }

/-- Writes a file at a path, replacing what it held. -/
def write (t : FileTree) (path : String) (content : String) : Except IoFailure FileTree := do
  match ← t.locate path with
  | .inside names =>
    match t.entryAt names with
    | .directory => .error .isADirectory
    | _ => .ok (t.setFile names content)
  | .ancestor => .error .isADirectory
  | .afar => .ok t

/-- Every file with its relative path. -/
def fileList (t : FileTree) : List (String × String) :=
  t.files.map fun (names, content) => ("/".intercalate names, content)

/-- Every directory made, by its relative path. -/
def madeDirectories (t : FileTree) : List String :=
  t.dirs.map ("/".intercalate ·)

/-- The number of files and made directories, a bound on what a search can meet. -/
def size (t : FileTree) : Nat := t.files.length + t.dirs.length

/-- The greatest number of names on the way to a file or a made directory. -/
def depth (t : FileTree) : Nat :=
  (t.files.map (·.1) ++ t.dirs).foldl (fun d p => max d p.length) 0

end FileTree

end SchemaTypes.Files
