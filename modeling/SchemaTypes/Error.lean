import SchemaTypes.Json.Reader

/-! # Errors and the data paths they carry

Every failure of the library is one constructor of `Error`, holding the data it is about; the
wording lives in `Error.message` alone. Four kinds of failure concern a place inside the data
being loaded (a wrong type, a missing key, a bad value, a value that cannot be written as
JSON): they carry a `DataPath`, which grows at its front as the failure travels outwards
through fields and list positions, so that it reads from the outermost value inwards
(`$.Results[1].SampleMass`). A type failure also names the composite types under
construction, outermost first.
-/

namespace SchemaTypes

/-! ## Data paths -/

/-- One step into a value: a named field or a list position. -/
inductive PathSegment where
  | field (name : String)
  | index (i : Nat)
  deriving DecidableEq

/-- The way from the outermost value to where a failure arose. -/
structure DataPath where
  segments : List PathSegment := []
  deriving DecidableEq

namespace DataPath

/-- Steps before the path, on the outside. -/
def pushFront (p : DataPath) (s : PathSegment) : DataPath := ⟨s :: p.segments⟩

/-- The path text: `$` followed by `.name` per field and `[i]` per position. -/
def text (p : DataPath) : String :=
  p.segments.foldl (fun acc s => match s with
    | .field name => acc ++ "." ++ name
    | .index i => acc ++ "[" ++ toString i ++ "]") "$"

end DataPath

/-! ## Failures of the file system -/

/-- Why the file system refused a request. -/
inductive IoFailure where
  | notFound
  | notADirectory
  | isADirectory
  | alreadyExists
  deriving DecidableEq

/-- The system's wording of a refusal, with its error number. -/
def IoFailure.message : IoFailure → String
  | .notFound => "No such file or directory (os error 2)"
  | .notADirectory => "Not a directory (os error 20)"
  | .isADirectory => "Is a directory (os error 21)"
  | .alreadyExists => "File exists (os error 17)"

/-! ## Errors -/

/-- A failure of the library. -/
inductive Error where
  /-- a definition fits none of the categories; `body` is its compact JSON text -/
  | unidentified (name : Option String) (body : String)
  /-- a schema construct the compiler does not handle -/
  | unsupported (context detail : String)
  /-- a name that is needed to define itself -/
  | circularReference (name : String)
  /-- a name with no registered type -/
  | classNotFound (name : String)
  /-- a value of the wrong type, found while constructing the types in `within` -/
  | typeError (path : DataPath) (within : List String) (message : String)
  /-- a key that is missing or unknown -/
  | keyError (path : DataPath) (message : String)
  /-- a value that fits no rule -/
  | valueError (path : DataPath) (message : String)
  /-- a value that JSON cannot hold -/
  | serialization (path : DataPath) (message : String)
  /-- a schema document of the wrong shape -/
  | document (text : String)
  /-- a refusal of the file system -/
  | io (failure : IoFailure)
  /-- JSON text that does not read -/
  | json (failure : Json.ReadError)
  /-- JSON input that could not be fetched -/
  | jsonInput (failure : IoFailure)

namespace Error

/-- A type failure at the root, under no construction. -/
def typeAt (message : String) : Error := .typeError {} [] message

/-- A key failure at the root. -/
def keyAt (message : String) : Error := .keyError {} message

/-- A value failure at the root. -/
def valueAt (message : String) : Error := .valueError {} message

/-- A serialization failure at the root. -/
def serializationAt (message : String) : Error := .serialization {} message

/-- Names the definition of an unidentified failure that does not name one yet. -/
def named (e : Error) (definition : String) : Error :=
  match e with
  | .unidentified none body => .unidentified (some definition) body
  | e => e

/-- Puts a step in front of the path of a data failure; other failures are unchanged. -/
def prefixed (e : Error) (s : PathSegment) : Error :=
  match e with
  | .typeError p w m => .typeError (p.pushFront s) w m
  | .keyError p m => .keyError (p.pushFront s) m
  | .valueError p m => .valueError (p.pushFront s) m
  | .serialization p m => .serialization (p.pushFront s) m
  | e => e

/-- The failure seen from the value that holds it under `field`. -/
def atField (e : Error) (field : String) : Error := e.prefixed (.field field)

/-- The failure seen from the list that holds it at `i`. -/
def atIndex (e : Error) (i : Nat) : Error := e.prefixed (.index i)

/-- A type failure seen from the construction of `name`, which is recorded unless it is
already the outermost construction named. -/
def withinType (e : Error) (name : String) : Error :=
  match e with
  | .typeError p w m => if w.head? = some name then .typeError p w m else .typeError p (name :: w) m
  | e => e

/-- The path of a data failure. -/
def path? : Error → Option DataPath
  | .typeError p _ _ | .keyError p _ | .valueError p _ | .serialization p _ => some p
  | _ => none

/-- The name of the kind of failure. -/
def kind : Error → String
  | .unidentified .. => "DefinitionUnidentified"
  | .unsupported .. => "Unsupported"
  | .circularReference _ => "CircularReference"
  | .classNotFound _ => "ClassNotFound"
  | .typeError .. => "Type"
  | .keyError .. => "Key"
  | .valueError .. => "Value"
  | .serialization .. => "Serialization"
  | .document _ => "Document"
  | .io _ => "Io"
  | .json _ | .jsonInput _ => "Json"

/-- The text of the constructions a type failure was found in. -/
def withinText : List String → String
  | [] => ""
  | w => " (while constructing " ++ " > ".intercalate w ++ ")"

/-- The text of a failure. -/
def message : Error → String
  | .unidentified name body =>
    "definition " ++ name.getD "<anonymous>" ++ " could not be identified: " ++ body
  | .unsupported context detail =>
    "unsupported schema construct in \x60" ++ context ++ "\x60: " ++ detail
  | .circularReference name => "circular reference while resolving \x60" ++ name ++ "\x60"
  | .classNotFound name => "class not found: \x60" ++ name ++ "\x60"
  | .typeError p w m => "TypeError at " ++ p.text ++ withinText w ++ ": " ++ m
  | .keyError p m => "KeyError at " ++ p.text ++ ": " ++ m
  | .valueError p m => "ValueError at " ++ p.text ++ ": " ++ m
  | .serialization p m => "serialization error at " ++ p.text ++ ": " ++ m
  | .document text => "malformed schema document " ++ text
  | .io f => f.message
  | .json f => f.message
  | .jsonInput f => f.message

end Error

end SchemaTypes
