import SchemaTypes.Schema.Definition

/-! # Categories of definitions

Every definition the compiler accepts falls into exactly one of eight categories, decided by
the first rule that applies:

1. a `$ref` makes it a passthrough;
2. an `allOf` makes it a polymorph when every part carries `if` and `then`, else a
   multi-inheritance;
3. a `oneOf` or `anyOf` list makes it a polymorph when it has a `discriminator`, else a union;
4. a native type name makes it a custom type (`object`), a list (`array`) or a native type;
5. an `enum` list makes it an enumeration.

A definition that no rule fits is unidentified. Types are registered category by category in
the order above, natives first, so that each category refers only to earlier ones.
-/

namespace SchemaTypes

/-- The kind of type a definition describes. -/
inductive Category where
  | native
  | enumeration
  | custom
  | passthrough
  | multiInheritance
  | list
  | union
  | polymorph
  deriving DecidableEq

namespace Category

/-- The categories in the order their types are registered. -/
def order : List Category :=
  [.native, .enumeration, .custom, .passthrough, .multiInheritance, .list, .union, .polymorph]

/-- The name of a category. -/
def text : Category → String
  | .native => "native"
  | .enumeration => "enum"
  | .custom => "custom"
  | .passthrough => "passthrough"
  | .multiInheritance => "multi-inheritance"
  | .list => "list"
  | .union => "union"
  | .polymorph => "polymorph"

end Category

/-- Whether a part of `allOf` is a condition: an object with `if` and `then`. -/
def isCondition (part : Json) : Bool :=
  (part.get? "if").isSome && (part.get? "then").isSome

/-- The category of a definition. -/
def Definition.classify (d : Definition) : Except Error Category :=
  if d.has "$ref" then .ok .passthrough
  else match d.allOf? with
  | some parts => .ok (if parts.all isCondition then .polymorph else .multiInheritance)
  | none =>
    if d.oneOf?.isSome then .ok (if d.has "discriminator" then .polymorph else .union)
    else if d.hasNativeType then
      .ok (match d.typeName? with
        | some "object" => .custom
        | some "array" => .list
        | _ => .native)
    else if d.enumValues?.isSome then .ok .enumeration
    else .error (.unidentified none (Json.compact d.toJson))

/-- The category of a JSON value, which must be an object. -/
def classifyJson (v : Json) : Except Error Category := do
  let d ← Definition.ofJson v
  d.classify

end SchemaTypes
