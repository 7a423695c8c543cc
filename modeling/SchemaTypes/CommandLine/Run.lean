import SchemaTypes.CommandLine.Parse
import SchemaTypes.Files.Glob
import SchemaTypes.Registry.Compile
import SchemaTypes.Registry.Instance

/-! # Running a command

A run reads the command line, then works on a directory of files and prints to two streams.
Help goes to the standard output; a refused command line, and the program's help when no
command was named, go to the error stream.

`inspect` compiles the schema and lists every registered type as three columns (name,
category, type), or shows one type: its category, type, caster, constructor signature for
composite types, and definition. `check` and `roundtrip` compile the schema, choose the type
(the one named, else the schema's title), expand the inputs (a word with `*`, `?`, `[` or
`{` is a glob pattern, which must match something), load each file as the type, and report
one line per input on the error stream, then the count loaded. `roundtrip` then writes every
loaded instance as indented JSON: to the standard output, or into the output directory under
the input's file name, making the directory first. With `--no-op` they only show the parsed
command line.

The exit code is 0 when all went well, 1 when some input failed to load, and 2 when the run
stopped with an error, which is printed as `error: ` and the failure, each step of what was
being done before its cause.
-/

namespace SchemaTypes.CommandLine

open SchemaTypes.Files

/-- What made a step of a run fail. -/
inductive Cause where
  /-- a failure of the library -/
  | library (e : Error)
  /-- a refusal of the file system -/
  | io (f : IoFailure)
  /-- a refused glob pattern -/
  | pattern (e : GlobSyntaxError)
  /-- a glob pattern that matched nothing -/
  | unmatched (pattern : String)
  /-- no type named and a schema without a title -/
  | untitled
  /-- an input path without a file name to write under -/
  | nameless (path : String)

/-- The wording of a cause. -/
def Cause.message : Cause → String
  | .library e => e.message
  | .io f => f.message
  | .pattern e => e.message
  | .unmatched p => "glob pattern matched no files: " ++ p
  | .untitled => "schema has no title; pass --type"
  | .nameless p => "input " ++ p ++ " has no file name"

/-- A failed step: what was being done, outermost first, and why it failed. -/
structure Failure where
  context : List String
  cause : Cause

/-- The text of a failure: each step of what was being done, then the cause. -/
def Failure.text (f : Failure) : String := ": ".intercalate (f.context ++ [f.cause.message])

/-- A failure of the library while doing something. -/
def Failure.during (what : List String) (e : Error) : Failure := ⟨what, .library e⟩

/-- The output so far and the files, as a run leaves them. -/
structure Console where
  stdout : String := ""
  stderr : String := ""
  files : FileTree

/-- A step of a run: it prints, changes files, and may fail. -/
abbrev Session := ExceptT Failure (StateM Console)

/-- Prints a line on the standard output. -/
def say (line : String) : Session Unit :=
  modify fun c => { c with stdout := c.stdout ++ line ++ "\n" }

/-- Prints a line on the error stream. -/
def warn (line : String) : Session Unit :=
  modify fun c => { c with stderr := c.stderr ++ line ++ "\n" }

/-- The files as they are now. -/
def currentFiles : Session FileTree := do
  pure (← get).files

/-- Fails with a failure. -/
def failWith {α : Type} (f : Failure) : Session α := throw f

/-- Text padded with spaces to a width, counted in characters. -/
def padTo (width : Nat) (s : String) : String :=
  s ++ String.ofList (List.replicate (width - s.length) ' ')

/-- The registry compiled from the schema at a path. -/
def compileSchema (t : FileTree) (path : String) : Except Failure Registry := do
  let text ← (t.read path).mapError fun f => ⟨["failed to load schema " ++ path], .io f⟩
  let doc ← (Document.ofText text).mapError (Failure.during ["failed to load schema " ++ path])
  doc.compile.mapError (Failure.during ["failed to compile schema " ++ path])

/-- The line of a registered type in the listing. -/
def listingLine (e : Entry) : String :=
  padTo 40 e.name ++ " " ++ padTo 18 e.category.text ++ " " ++ e.handle.text

/-- Whether a category is shown with a constructor signature. -/
def showsSignature : Category → Bool
  | .custom | .passthrough | .multiInheritance => true
  | _ => false

/-- The lines showing one registered type. -/
def entryLines (r : Registry) (e : Entry) : List String :=
  let signature := if showsSignature e.category then
      match r.classOf e.name with
      | .ok c => ["  " ++ c.signature]
      | .error _ => []
    else []
  [e.name ++ " (" ++ e.category.text ++ ")", "  type: " ++ e.handle.text,
    "  caster: " ++ e.caster.text] ++ signature ++ [Json.pretty e.definition.toJson]

/-- Shows the registered types of a schema, or one of them. -/
def showTypes (choice : SchemaChoice) : Session Bool := do
  let r ← liftExcept (compileSchema (← currentFiles) choice.schema)
  match choice.typeName with
  | some name =>
    let e ← liftExcept ((r.entry name).mapError (Failure.during []))
    (entryLines r e).forM say
  | none => r.entries.forM fun e => say (listingLine e)
  pure true

/-- Whether an input is a glob pattern. -/
def isPattern (input : String) : Bool :=
  input.toList.any fun c => c == '*' || c == '?' || c == '[' || c == '\x7b'

/-- The paths of the inputs: a glob pattern stands for the paths it matches, any other input
for itself. -/
def resolveInputs (t : FileTree) (inputs : List String) : Except Failure (List String) :=
  inputs.foldlM (fun acc input =>
    if isPattern input then
      match expand t input with
      | .error e => .error ⟨[], .pattern e⟩
      | .ok [] => .error ⟨[], .unmatched input⟩
      | .ok paths => .ok (acc ++ paths)
    else .ok (acc ++ [input])) []

/-- Loads the file at a path as an instance of a composite type. -/
def loadInput (r : Registry) (t : FileTree) (c : Composite) (path : String) : Loading Value := do
  let text ← match t.read path with
    | .ok text => pure text
    | .error .isADirectory => throw (.jsonInput .isADirectory)
    | .error f => throw (.io f)
  r.fromJsonStream c text

/-- One input loaded, or the failure loading it. -/
structure Loaded where
  path : String
  result : Except Failure Value

/-- Loads every input as a type, in order; the special names grow from one load to the
next. The loads of a real run may go in parallel, each result kept at its input's place; this
is the schedule that runs them one after another in input order. -/
def loadAll (r : Registry) (t : FileTree) (typeName : String) (inputs : List String) :
    Except Failure (List Loaded × Vocabulary) := do
  let c ← (r.classOf typeName).mapError (Failure.during [])
  let paths ← resolveInputs t inputs
  pure (paths.foldl (fun (acc, vocab) path =>
    let (result, vocab') := (loadInput r t c path).run' vocab
    (acc ++ [⟨path, result.mapError
      (Failure.during ["failed to load " ++ path ++ " as " ++ typeName])⟩], vocab'))
    ([], r.vocabulary))

/-- The name of the type of a loaded instance. -/
def instanceType (fallback : String) : Value → String
  | .object name _ => name
  | _ => fallback

/-- Reports one input: the type of its instance, or why it failed to load. -/
def reportLine (typeName : String) (l : Loaded) : Session Unit :=
  match l.result with
  | .ok v => warn ("✅ " ++ l.path ++ " " ++ instanceType typeName v)
  | .error f => warn ("❌ " ++ l.path ++ ": " ++ f.text)

/-- Reports every input and the count loaded; true when all loaded. -/
def report (typeName : String) (loaded : List Loaded) : Session Bool := do
  loaded.forM (reportLine typeName)
  let ok := (loaded.filter fun l => l.result matches .ok _).length
  warn (toString ok ++ " of " ++ toString loaded.length ++ " inputs loaded")
  pure (ok == loaded.length)

/-- Compiles the schema, chooses the type and loads the inputs. -/
def loadInputs (choice : SchemaChoice) (inputs : List String) :
    Session (Registry × String × List Loaded × Vocabulary) := do
  let t ← currentFiles
  let r ← liftExcept (compileSchema t choice.schema)
  let typeName ← match choice.typeName <|> r.root with
    | some name => pure name
    | none => failWith ⟨[], .untitled⟩
  let (loaded, vocab) ← liftExcept (loadAll r t typeName inputs)
  pure (r, typeName, loaded, vocab)

/-- Loads the inputs and reports on them. -/
def checkInputs (choice : SchemaChoice) (inputs : List String) : Session Bool := do
  let (_, typeName, loaded, _) ← loadInputs choice inputs
  report typeName loaded

/-- Writes one loaded instance: into the output directory under the input's file name, or to
the standard output. -/
def writeBack (r : Registry) (vocab : Vocabulary) (out : Option String) (l : Loaded) :
    Session Unit :=
  match l.result with
  | .error _ => pure ()
  | .ok v =>
    match out with
    | none => do
      let text ← liftExcept ((r.prettyJson vocab v).mapError (Failure.during []))
      say text
    | some dir => do
      let name ← match PathPart.fileName? l.path with
        | some name => pure name
        | none => failWith ⟨[], .nameless l.path⟩
      let target := PathPart.join dir name
      let context := ["failed to write " ++ target]
      let text ← liftExcept ((r.prettyJson vocab v).mapError (Failure.during context))
      let t ← currentFiles
      match t.write target text with
      | .ok t' => modify fun c => { c with files := t' }
      | .error f => failWith ⟨context, .io f⟩

/-- Loads the inputs, reports on them, and writes back those that loaded. -/
def roundtripInputs (choice : SchemaChoice) (inputs : List String) (out : Option String) :
    Session Bool := do
  let (r, typeName, loaded, vocab) ← loadInputs choice inputs
  let allLoaded ← report typeName loaded
  if let some dir := out then
    match (← currentFiles).makeAll dir with
    | .ok t' => modify fun c => { c with files := t' }
    | .error f => failWith ⟨["failed to create " ++ dir], .io f⟩
  loaded.forM (writeBack r vocab out)
  pure allLoaded

/-- Runs a parsed command. -/
def Task.perform : Task → Session Bool
  | .inspect choice => showTypes choice
  | t@(.check choice inputs noOp) =>
    if noOp then do warn t.debugText; pure true else checkInputs choice inputs
  | t@(.roundtrip choice inputs out noOp) =>
    if noOp then do warn t.debugText; pure true else roundtripInputs choice inputs out

/-- What a run leaves: its exit code, what it printed on each stream, and the files. -/
structure Outcome where
  exit : Nat
  stdout : String
  stderr : String
  files : FileTree

/-- Runs the program on the words given to it, in a directory of files. -/
def execute (args : List String) (files : FileTree) : Outcome :=
  match Invocation.ofArgs args with
  | .help text => ⟨0, text, "", files⟩
  | .bare => ⟨2, "", programHelp, files⟩
  | .refused r => ⟨2, "", r.text, files⟩
  | .run task =>
    let (result, c) := (ExceptT.run task.perform).run { files }
    match result with
    | .ok true => ⟨0, c.stdout, c.stderr, c.files⟩
    | .ok false => ⟨1, c.stdout, c.stderr, c.files⟩
    | .error f => ⟨2, c.stdout, c.stderr ++ "error: " ++ f.text ++ "\n", c.files⟩

end SchemaTypes.CommandLine
