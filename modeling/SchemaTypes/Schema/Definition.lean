import SchemaTypes.Json.Reader
import SchemaTypes.Json.Writer
import SchemaTypes.Error

/-! # Definitions

A definition is one JSON object of a schema. This module reads the keywords the compiler
looks at: `$ref` (and the name it refers to), `allOf`, `oneOf` or `anyOf`, `type` (a name,
or the first name other than `null` in a list of names), `properties`, `required`, `enum`,
`items`, `additionalProperties`, `discriminator`, `format`, `pattern` and `description`.
A keyword whose value has the wrong kind reads as absent, except the discriminator, which
must be an object with a string `propertyName` and an optional map of strings `mapping`.

The name a reference refers to is its last `/`-separated segment, with `~1` read as `/` and
then `~0` as `~`.
-/

namespace SchemaTypes

/-- A definition of a schema: the members of its JSON object, in order. -/
structure Definition where
  members : List (String × Json) := []

/-- How a polymorphic definition names the field that selects its branch, and the reference
each value of that field selects. -/
structure Discriminator where
  propertyName : String
  mapping : Option (List (String × String))

/-- The type names a definition may have that are not references. -/
def nativeTypeNames : List String := ["string", "integer", "number", "boolean", "array", "object"]

/-- Replaces every occurrence of the two characters `a b`, from left to right, by `rep`. -/
def replacePair (a b : Char) (rep : List Char) : List Char → List Char
  | x :: y :: rest =>
    if x = a ∧ y = b then rep ++ replacePair a b rep rest
    else x :: replacePair a b rep (y :: rest)
  | cs => cs
termination_by cs => cs.length

/-- The name a reference refers to. -/
def referenceName (reference : String) : String :=
  let last := (reference.toList.reverse.takeWhile (· ≠ '/')).reverse
  String.ofList (replacePair '~' '0' ['~'] (replacePair '~' '1' ['/'] last))

/-- The shape a discriminator is read with. -/
def Discriminator.shape : Json.Shape :=
  .record "Discriminator" [("propertyName", .string), ("mapping", .optional (.mapOf .string))]
    ["propertyName"] false

namespace Definition

/-- A definition from a JSON value, which must be an object. -/
def ofJson : Json → Except Error Definition
  | .obj ms => .ok ⟨ms⟩
  | v => .error (.unidentified none (Json.compact v))

/-- The definition as a JSON object. -/
def toJson (d : Definition) : Json := .obj d.members

/-- Whether the definition has no keywords. -/
def isEmpty (d : Definition) : Bool := d.members.isEmpty

/-- The value of a keyword. -/
def get? (d : Definition) (key : String) : Option Json := Json.lookup d.members key

/-- Whether a keyword is present. -/
def has (d : Definition) (key : String) : Bool := d.members.any (·.1 == key)

/-- The reference, when `$ref` is a string. -/
def reference? (d : Definition) : Option String := (d.get? "$ref").bind Json.str?

/-- The name the reference refers to. -/
def referenceName? (d : Definition) : Option String := d.reference?.map referenceName

/-- The parts of `allOf`, when it is a list. -/
def allOf? (d : Definition) : Option (List Json) := (d.get? "allOf").bind Json.items?

/-- The alternatives of `oneOf`, or of `anyOf` when there is no `oneOf`, when a list. -/
def oneOf? (d : Definition) : Option (List Json) :=
  (match d.get? "oneOf" with
    | some v => some v
    | none => d.get? "anyOf").bind Json.items?

/-- The type name: `type` itself, or the first name other than `null` in a list. -/
def typeName? (d : Definition) : Option String :=
  match d.get? "type" with
  | some (.str name) => some name
  | some (.arr names) => (names.filterMap Json.str?).find? (· != "null")
  | _ => none

/-- Whether the type name is one of the native type names. -/
def hasNativeType (d : Definition) : Bool :=
  match d.typeName? with
  | some name => nativeTypeNames.contains name
  | none => false

/-- The members of `properties`, when an object. -/
def properties? (d : Definition) : Option (List (String × Json)) :=
  (d.get? "properties").bind Json.members?

/-- The strings listed in `required`. -/
def required (d : Definition) : List String :=
  match (d.get? "required").bind Json.items? with
  | some names => names.filterMap Json.str?
  | none => []

/-- The values of `enum`, when a list. -/
def enumValues? (d : Definition) : Option (List Json) := (d.get? "enum").bind Json.items?

/-- The value of `items`. -/
def items? (d : Definition) : Option Json := d.get? "items"

/-- The value of `additionalProperties`. -/
def additionalProperties? (d : Definition) : Option Json := d.get? "additionalProperties"

/-- The text of `format`. -/
def format? (d : Definition) : Option String := (d.get? "format").bind Json.str?

/-- The text of `pattern`. -/
def pattern? (d : Definition) : Option String := (d.get? "pattern").bind Json.str?

/-- The text of `description`. -/
def description? (d : Definition) : Option String := (d.get? "description").bind Json.str?

/-- The discriminator, when present; one of the wrong shape is an unsupported construct. -/
def discriminator (d : Definition) : Except Error (Option Discriminator) :=
  match d.get? "discriminator" with
  | none => .ok none
  | some raw =>
    match Json.checkShape Discriminator.shape raw with
    | .error e => .error (.unsupported "discriminator" e.message)
    | .ok checked =>
      let mapping := match checked.get? "mapping" with
        | some (.obj ms) => some (ms.map fun (k, v) => (k, (Json.str? v).getD ""))
        | _ => none
      .ok (some ⟨((checked.get? "propertyName").bind Json.str?).getD "", mapping⟩)

/-- The properties split into those listed as required and the others, each in the order of
`properties`. -/
def splitByRequired (d : Definition) : List (String × Json) × List (String × Json) :=
  match d.properties? with
  | none => ([], [])
  | some ps => ps.partition fun p => d.required.contains p.1

end Definition

end SchemaTypes
