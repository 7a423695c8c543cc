import SchemaTypes.Registry.Cast
import SchemaTypes.Json.Reader
import SchemaTypes.Json.Writer

/-! # Instances

The operations of the registry on values: casting with a caster, instantiating a registered
type, discriminating data with a polymorph, and loading, constructing and writing instances
of composite types.

An instance is loaded from a map, from an instance of another type (through its map), or
from JSON text; an instance of the type itself or of a type inheriting from it is kept as it
is. It is written back as the map of its fields under their external names, or as JSON:
compact, or indented by two spaces.
-/

namespace SchemaTypes

namespace Registry

/-- A bound on the nesting of a cast of `v`: per level of the data, a walk along the links
between types, each of which visits a type at most once. -/
def castDepth (r : Registry) (v : Value) : Nat :=
  (v.depth + 2) * (4 * r.entries.length + 2 * r.composites.length + 16)

/-- A bound on the nesting of a construction from arguments. -/
def argumentsDepth (r : Registry) (args : Arguments) : Nat :=
  r.castDepth (.list (args.positional ++ args.keyword.map (·.2)))

/-- Casts a value, a mismatch reported as a value that cannot be cast. -/
def cast (r : Registry) (caster : Caster) (v : Value) : Loading Value :=
  (castWith r (r.castDepth v) caster v).adapt fun f =>
    f.toError fun v d => withDetail ("value " ++ v.display ++ " of type " ++ v.label ++
      " cannot be cast to " ++ caster.text) d

/-- Casts a value with the caster registered under a name. -/
def instantiate (r : Registry) (name : String) (v : Value) : Loading Value := do
  let e ← liftExcept (r.entry name)
  r.cast e.caster v

/-- Casts data with the polymorph registered under a name. -/
def discriminateAs (r : Registry) (name : String) (data : Value) : Loading Value := do
  let e ← liftExcept (r.entry name)
  if !e.caster.isPolymorph then throw (Error.typeAt ("\x60" ++ name ++ "\x60 is not a polymorph"))
  match data with
  | .map es => discriminate r (r.castDepth data) e.caster es
  | v => throw (Error.typeAt (name ++ " expects an object to discriminate, got " ++ v.label))

/-- Loads an instance of a composite type from data. -/
def fromDict (r : Registry) (c : Composite) (raw : Value) : Loading Value :=
  match raw with
  | .map es => fromMap r (r.castDepth raw) c es
  | .object t fs =>
    if r.isSubtype t c.name then pure raw
    else do
      let es ← (r.instanceMap t fs : StateM Vocabulary _)
      fromMap r (r.castDepth raw) c es
  | v => throw ((Error.typeAt (c.name ++ ".from_dict expects an object, got " ++ v.label)).withinType c.name)

/-- Loads an instance of a composite type from JSON text. -/
def fromJsonText (r : Registry) (c : Composite) (text : String) : Loading Value :=
  match Json.parse text with
  | .error e => throw (.json e)
  | .ok j => r.fromDict c (Value.ofJson j)

/-- Loads an instance of a composite type from JSON text read as a stream of bytes. -/
def fromJsonStream (r : Registry) (c : Composite) (text : String) : Loading Value :=
  match Json.parseStream text with
  | .error e => throw (.json e)
  | .ok j => r.fromDict c (Value.ofJson j)

/-- Constructs an instance of a composite type from arguments. -/
def constructInstance (r : Registry) (c : Composite) (args : Arguments) : Loading Value := do
  let fields ← construct r (r.argumentsDepth args) c args
  pure (.object c.name fields)

/-- The map of an instance: its fields under their external names, made plain. -/
def instanceDict (r : Registry) (vocab : Vocabulary) (typeName : String)
    (fields : List (String × Value)) : List (String × Value) :=
  Value.instanceEntries (r.externalNames vocab) typeName fields

/-- The JSON of a value under the external names of the vocabulary. -/
def valueJson (r : Registry) (vocab : Vocabulary) (v : Value) : Except Error Json :=
  v.toJson (r.externalNames vocab)

/-- The JSON text of a value, indented by two spaces. -/
def prettyJson (r : Registry) (vocab : Vocabulary) (v : Value) : Except Error String :=
  (r.valueJson vocab v).map Json.pretty

end Registry

/-- Runs a step from a vocabulary: its result and the vocabulary after it. -/
def Loading.run' {α : Type} (x : Loading α) (vocab : Vocabulary) : Except Error α × Vocabulary :=
  (ExceptT.run x).run vocab

end SchemaTypes
