import SchemaTypes.Types.Handle
import SchemaTypes.Value.Basic

/-! # Casters

A caster says how a value is made into a value of a type: taken as it is, converted to a
native kind, cast item by item, looked up among the members of an enumeration, built into an
instance of a composite type, or handed to one of several branches of a polymorph. A
polymorph chooses its branch either by the value of one field (keyed) or by the first list of
field constants that the data matches (conditional); every branch names its target type and
carries that type's caster.

A caster is written as the type it produces: `Any`, a native kind, `List[...]`, a type name,
or `Union[...]` of the branch targets.
-/

namespace SchemaTypes

/-- How a value is made into a value of some type. -/
inductive Caster where
  | identity
  | native (type : NativeType)
  | list (item : Caster)
  | enum (name : String)
  | composite (name : String)
  /-- a polymorph choosing by the value of `property`; each entry maps a value of the field
  to a target type and its caster -/
  | keyed (property : String) (mapping : List (String × String × Caster))
  /-- a polymorph taking the first branch whose field constants all match the data -/
  | conditional (branches : List (List (String × Value) × String × Caster))

namespace Caster

/-- The targets of a polymorph's branches, in order; none for other casters. -/
def targets : Caster → List String
  | .keyed _ mapping => mapping.map (·.2.1)
  | .conditional branches => branches.map (·.2.1)
  | _ => []

/-- Whether the caster is a polymorph. -/
def isPolymorph : Caster → Bool
  | .keyed .. | .conditional .. => true
  | _ => false

/-- The caster written as the type it produces. -/
def text : Caster → String
  | .identity => "Any"
  | .native t => t.text
  | .list item => "List[" ++ text item ++ "]"
  | .enum name => name
  | .composite name => name
  | c@(.keyed ..) | c@(.conditional ..) => "Union[" ++ ", ".intercalate c.targets ++ "]"

end Caster

end SchemaTypes
