import SchemaTypes.Schema.Definition

/-! # Schema documents

A schema document gathers named definitions from three places, in this order: the members of
`components.schemas`, of `$defs` and of `definitions`; a name given twice keeps its first
position and its last definition. A document with a `title` whose other top-level keys
include a shape keyword (`type`, `properties`, `allOf`, `oneOf`, `anyOf`, `enum`, `items` or
`$ref`) is itself a definition, the root, named by its title: its body is the top level
without the keys starting with `$`, `$ref` apart.

A document is read from text, or checked as a JSON value, against the shape of its top level;
a problem is reported with the path at which it arose. Text after the top-level value is not
looked at.
-/

namespace SchemaTypes

/-- A schema document: its title, its named definitions in order, and the name of its root
definition when it has one. -/
structure Document where
  title : Option String
  definitions : List (String × Definition)
  root : Option String

namespace Document

/-- The keywords that make a titled top level a definition. -/
def rootKeywords : List String :=
  ["type", "properties", "allOf", "oneOf", "anyOf", "enum", "items", "$ref"]

/-- The top-level keys read apart from the body. -/
def knownKeys : List String := ["title", "components", "$defs", "definitions"]

/-- The shape of the top level: an optional title, optional components with a map of
schemas, two optional maps of definitions, and any other keys kept. -/
def topShape : Json.Shape :=
  .record "RawDocument"
    [("title", .optional .string),
     ("components", .optional (.record "RawComponents" [("schemas", .mapOf .any)] [] false)),
     ("$defs", .mapOf .any),
     ("definitions", .mapOf .any)] [] true

/-- The members of an object, or none. -/
def membersOf : Option Json → List (String × Json)
  | some (.obj ms) => ms
  | _ => []

/-- Adds the named bodies in order, each of which must be a definition. -/
def gather (acc : List (String × Definition)) :
    List (String × Json) → Except Error (List (String × Definition))
  | [] => .ok acc
  | (name, body) :: rest =>
    match Definition.ofJson body with
    | .error e => .error (e.named name)
    | .ok d => gather (setDefinition acc name d) rest
where
  /-- Sets a named definition in place, or at the end. -/
  setDefinition (acc : List (String × Definition)) (name : String) (d : Definition) :
      List (String × Definition) :=
    if acc.any (·.1 == name) then acc.map fun e => if e.1 == name then (name, d) else e
    else acc ++ [(name, d)]

/-- The document of a checked top level. -/
def ofTop (top : Json) : Except Error Document := do
  let title := (top.get? "title").bind Json.str?
  let schemas := membersOf ((top.get? "components").bind (·.get? "schemas"))
  let collected ← gather [] (schemas ++ membersOf (top.get? "$defs") ++
    membersOf (top.get? "definitions"))
  let rest := (membersOf (some top)).filter fun m => !knownKeys.contains m.1
  match title with
  | some t =>
    if rest.any fun m => rootKeywords.contains m.1 then
      let body := rest.filter fun m => !m.1.startsWith "$" || m.1 == "$ref"
      .ok ⟨title, gather.setDefinition collected t ⟨body⟩, some t⟩
    else .ok ⟨title, collected, none⟩
  | none => .ok ⟨title, collected, none⟩

/-- A reading problem of the top level as a document failure. -/
def located (e : Json.ReadError) : Error :=
  .document ("at JSON path " ++ Json.pathText e.path ++ " → " ++ e.message)

/-- Reads a document from UTF-8 bytes. -/
def ofBytes (bytes : List UInt8) : Except Error Document :=
  match Json.readBytes topShape false bytes with
  | .error e => .error (located e)
  | .ok top => ofTop top

/-- Reads a document from text. -/
def ofText (text : String) : Except Error Document := ofBytes text.toUTF8.toList

/-- Reads a document from a JSON value. -/
def ofJson (v : Json) : Except Error Document :=
  match Json.checkShape topShape v with
  | .error e => .error (located e)
  | .ok top => ofTop top

end Document

end SchemaTypes
