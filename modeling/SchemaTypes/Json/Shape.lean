import SchemaTypes.Json.Basic
import SchemaTypes.Number.Layout
import SchemaTypes.Text.Debug

/-!
# Shapes of expected JSON

A reader can be told what it expects: any value, a string, an optional value, a map whose
values share a shape, or a record with named fields, where unknown keys are either kept or
skipped and some fields must be present. This module holds the shapes, the problems a reading
can meet together with their wording, the path at which a problem arose, and the check of an
already decoded value against a shape. Text is read against a shape in `Json.Reader`.

A path is written as `.` when empty, else as its keys joined by dots with every list position
written `[i]` right after the step before it; a key that was not yet known when the problem
arose is written `?`.
-/

namespace SchemaTypes.Json

/-- One step of the path to where a problem arose. -/
inductive PathStep where
  | key (name : String)
  | index (i : Nat)
  | unknownKey

/-- The text of one step, after the steps before it (`first` when there are none). -/
def PathStep.text (first : Bool) : PathStep → String
  | .key name => (if first then "" else ".") ++ name
  | .index i => "[" ++ toString i ++ "]"
  | .unknownKey => (if first then "" else ".") ++ "?"

/-- The text of the steps after the first. -/
def pathTail : List PathStep → String
  | [] => ""
  | s :: rest => s.text false ++ pathTail rest

/-- The text of a path. -/
def pathText : List PathStep → String
  | [] => "."
  | s :: rest => s.text true ++ pathTail rest

/-- What a reader expects at a point of the input. -/
inductive Shape where
  /-- any value, kept as it is -/
  | any
  /-- a string -/
  | string
  /-- `null`, or a value of the inner shape -/
  | optional (inner : Shape)
  /-- an object whose values all have one shape; a repeated key keeps its last value -/
  | mapOf (values : Shape)
  /-- an object with named fields; unknown keys are kept when `keepRest`, else skipped;
  without `keepRest` the fields may also be given in order as an array -/
  | record (name : String) (fields : List (String × Shape)) (required : List String)
      (keepRest : Bool)
  /-- any value, read and dropped -/
  | ignored

/-- What a shape is called in a complaint about a value of the wrong kind. -/
def Shape.expecting : Shape → String
  | .any => "any value"
  | .string => "a string"
  | .optional inner => inner.expecting
  | .mapOf _ => "a map"
  | .record name _ _ _ => "struct " ++ name
  | .ignored => "any value"

/-- The shape of the value under `key` inside a map or record of shape `outer`. -/
def Shape.memberShape (outer : Shape) (key : String) : Shape :=
  match outer with
  | .mapOf values => values
  | .record _ fields _ keepRest =>
    match fields.find? (·.1 == key) with
    | some (_, s) => s
    | none => if keepRest then .any else .ignored
  | _ => .any

/-- A problem met while reading. -/
inductive Issue where
  | eofValue
  | eofList
  | eofObject
  | eofString
  | expectedIdent
  | expectedValue
  | expectedColon
  | expectedListCommaOrEnd
  | expectedObjectCommaOrEnd
  | keyMustBeString
  | trailingComma
  | trailingCharacters
  | invalidNumber
  | numberOutOfRange
  | invalidEscape
  | controlCharacter
  | loneLeadingSurrogate
  | unexpectedEndOfHexEscape
  | recursionLimit
  | invalidType (found expected : String)
  | duplicateField (name : String)
  | missingField (name : String)
  | invalidLength (length : Nat) (expected : String)

/-- The wording of a problem. -/
def Issue.message : Issue → String
  | .eofValue => "EOF while parsing a value"
  | .eofList => "EOF while parsing a list"
  | .eofObject => "EOF while parsing an object"
  | .eofString => "EOF while parsing a string"
  | .expectedIdent => "expected ident"
  | .expectedValue => "expected value"
  | .expectedColon => "expected " ++ "\x60:\x60"
  | .expectedListCommaOrEnd => "expected " ++ "\x60,\x60 or \x60]\x60"
  | .expectedObjectCommaOrEnd => "expected " ++ "\x60,\x60 or \x60\x7d\x60"
  | .keyMustBeString => "key must be a string"
  | .trailingComma => "trailing comma"
  | .trailingCharacters => "trailing characters"
  | .invalidNumber => "invalid number"
  | .numberOutOfRange => "number out of range"
  | .invalidEscape => "invalid escape"
  | .controlCharacter => "control character (\\u0000-\\u001F) found while parsing a string"
  | .loneLeadingSurrogate => "lone leading surrogate in hex escape"
  | .unexpectedEndOfHexEscape => "unexpected end of hex escape"
  | .recursionLimit => "recursion limit exceeded"
  | .invalidType found expected => "invalid type: " ++ found ++ ", expected " ++ expected
  | .duplicateField name => "duplicate field \x60" ++ name ++ "\x60"
  | .missingField name => "missing field \x60" ++ name ++ "\x60"
  | .invalidLength length expected =>
    "invalid length " ++ toString length ++ ", expected " ++ expected

/-- How a value is named when it is not what was expected. -/
def describe : Json → String
  | .null => "null"
  | .bool b => "boolean \x60" ++ (if b then "true" else "false") ++ "\x60"
  | .int n => "integer \x60" ++ toString n ++ "\x60"
  | .float x => "floating point \x60" ++ Number.plainText x ++ "\x60"
  | .str s => "string " ++ Text.debugQuote s
  | .arr _ => "sequence"
  | .obj _ => "map"

/-- A problem with a decoded value and the path at which it arose. -/
structure ShapeError where
  issue : Issue
  path : List PathStep

mutual
/-- Checks a decoded value against a shape. A record comes back as an object of the fields
that were present, in the order written, with the kept unknown keys among them. -/
def Shape.check (shape : Shape) (path : List PathStep) (v : Json) : Except ShapeError Json :=
  match shape, v with
  | .any, v => .ok v
  | .ignored, v => .ok v
  | .string, .str s => .ok (.str s)
  | .string, v => .error ⟨.invalidType (describe v) "a string", path⟩
  | .optional _, .null => .ok .null
  | .optional inner, v => inner.check path v
  | .mapOf values, .obj ms => do
    let checked ← checkMembers values path ms
    .ok (.obj checked)
  | .mapOf _, v => .error ⟨.invalidType (describe v) "a map", path⟩
  | .record _ fields required keepRest, .obj ms => do
    let kept ← checkFields fields keepRest path ms
    match required.find? (fun f => !(kept.any (·.1 == f))) with
    | some f => .error ⟨.missingField f, path⟩
    | none => .ok (.obj kept)
  | .record name fields required false, .arr items => do
    let kept ← checkElements name fields.length required path 0 fields items
    .ok (.obj kept)
  | .record name _ _ _, v => .error ⟨.invalidType (describe v) ("struct " ++ name), path⟩
termination_by (sizeOf v, sizeOf shape)
/-- Checks every value of a map. -/
def checkMembers (values : Shape) (path : List PathStep) :
    List (String × Json) → Except ShapeError (List (String × Json))
  | [] => .ok []
  | (k, v) :: rest => do
    let v' ← values.check (path ++ [.key k]) v
    let rest' ← checkMembers values path rest
    .ok ((k, v') :: rest')
termination_by ms => (sizeOf ms, 0)
/-- Checks the known fields of a record and keeps or drops the others. -/
def checkFields (fields : List (String × Shape)) (keepRest : Bool) (path : List PathStep) :
    List (String × Json) → Except ShapeError (List (String × Json))
  | [] => .ok []
  | (k, v) :: rest => do
    match fields.find? (·.1 == k) with
    | some (_, s) =>
      let v' ← s.check (path ++ [.key k]) v
      let rest' ← checkFields fields keepRest path rest
      .ok ((k, v') :: rest')
    | none =>
      let rest' ← checkFields fields keepRest path rest
      .ok (if keepRest then (k, v) :: rest' else rest')
termination_by ms => (sizeOf ms, 0)
/-- Checks the items of an array given for a record, one field per item in order. -/
def checkElements (name : String) (count : Nat) (required : List String)
    (path : List PathStep) (ix : Nat) :
    List (String × Shape) → List Json → Except ShapeError (List (String × Json))
  | [], [] => .ok []
  | [], extra =>
    .error ⟨.invalidLength (ix + extra.length) "fewer elements in array", path⟩
  | (f, _) :: fs, [] =>
    if required.contains f then
      .error ⟨.invalidLength ix ("struct " ++ name ++ " with " ++ toString count ++
        " elements"), path⟩
    else checkElements name count required path (ix + 1) fs []
  | (f, s) :: fs, item :: items => do
    let v ← s.check (path ++ [.index ix]) item
    let rest ← checkElements name count required path (ix + 1) fs items
    .ok ((f, v) :: rest)
termination_by fs items => (sizeOf items, sizeOf fs)
end

end SchemaTypes.Json
