import SchemaTypes.Registry.Basic
import SchemaTypes.Value.Encode

/-! # Casting and construction

Casting a value with a caster and constructing an instance of a composite type call each
other: a composite caster builds an instance from a map, building an instance coerces every
argument with its property's caster, and a polymorph casts the whole data with the caster of
the branch it chooses.

A cast either succeeds, or finds that the value does not fit (a mismatch, with an optional
detail), or meets a failure inside the value. A mismatch is worded by whoever asked for the
cast: a list names the item, a constructor the argument, a polymorph the branch target.

Coercion takes `null` and every value that conforms to the constraint as they are, and casts
the rest. Loading data into a composite type first turns each key into an attribute name,
which may add the key to the type's special names; those additions stay even when the load
fails, so every step here threads the `Vocabulary`.

Every step takes a bound on the depth of the calls, computed from the value and the registry
by `Registry.castDepth`; a cast nests one call per level of the data and per step along the
acyclic links between types.
-/

namespace SchemaTypes

/-- Why a cast failed: the value does not fit, or a failure arose inside it. -/
inductive CastFailure where
  | mismatch (value : Value) (detail : Option String)
  | nested (e : Error)

/-- A failure as an error, a mismatch worded by `describe value detail`. -/
def CastFailure.toError (f : CastFailure) (describe : Value → Option String → String) : Error :=
  match f with
  | .mismatch v d => Error.typeAt (describe v d)
  | .nested e => e

/-- A step that reads and grows the special names and may fail with an error. -/
abbrev Loading := ExceptT Error (StateM Vocabulary)

/-- A step that reads and grows the special names and may fail to cast. -/
abbrev Casting := ExceptT CastFailure (StateM Vocabulary)

/-- A detail after a mismatch text, when there is one. -/
def withDetail (text : String) : Option String → String
  | some d => text ++ ": " ++ d
  | none => text

/-- The most characters of a value shown when an argument does not fit. -/
def previewLimit : Nat := 120

/-- The display text of a value, cut after `previewLimit` characters. -/
def preview (v : Value) : String :=
  let shown := v.display
  if shown.length > previewLimit then String.ofList (shown.toList.take previewLimit) ++ "..."
  else shown

/-- Whether a field holds the constant of a condition; an integer and a double are compared
by value. -/
def sameConstant (v c : Value) : Bool :=
  match v, c with
  | .int i, .number x => Value.intToFloat i == x
  | .number x, .int i => Value.intToFloat i == x
  | _, _ => v.same c

namespace Registry

/-- The external names of the vocabulary, as the writers of values need them. -/
def externalNames (r : Registry) (vocab : Vocabulary) : String → String → String :=
  r.externalName vocab

/-- The plain map of an instance, under the external names of the current vocabulary. -/
def instanceMap (r : Registry) (typeName : String) (fields : List (String × Value)) :
    StateM Vocabulary (List (String × Value)) := do
  let vocab ← get
  pure (Value.instanceEntries (r.externalNames vocab) typeName fields)

/-- Turns data keys into attribute names of a composite type, a repeated attribute keeping
its first position and last value. -/
def internalKeys (r : Registry) (typeName : String) (raw : List (String × Value)) :
    StateM Vocabulary (List (String × Value)) := do
  let keyed ← raw.mapM fun (k, v) => do
    let vocab ← get
    let (name, vocab') := r.internalName vocab typeName k
    set vocab'
    pure (name, v)
  pure (Value.collect keyed)

/-- Chooses a polymorph's branch for some data: its target and caster. -/
def selectBranch (c : Caster) (data : List (String × Value)) : Except Error (String × Caster) :=
  match c with
  | .keyed property mapping =>
    match Value.lookup data property with
    | none => .error (Error.keyAt ("discriminator property '" ++ property ++ "' is missing"))
    | some raw =>
      let key? : Option String := match raw with
        | .str s => some s
        | .int n => some (toString n)
        | .bool b => some (if b then "true" else "false")
        | _ => none
      match key? with
      | none =>
        .error ((Error.keyAt ("discriminator value " ++ raw.display ++ " of '" ++ property ++
          "' is not a scalar")).atField property)
      | some key =>
        match mapping.find? (·.1 == key) with
        | some (_, target, caster) => .ok (target, caster)
        | none =>
          .error ((Error.keyAt ("no mapping for discriminator value '" ++ key ++ "' of '" ++
            property ++ "'")).atField property)
  | .conditional branches =>
    let holds (constants : List (String × Value)) : Bool :=
      constants.all fun (field, constant) =>
        match Value.lookup data field with
        | some v => sameConstant v constant
        | none => false
    match branches.find? (fun b => holds b.1) with
    | some (_, target, caster) => .ok (target, caster)
    | none => .error (Error.valueAt "data does not match any conditions")
  | _ => .error (Error.valueAt "data does not match any conditions")

mutual
/-- Casts a value with a caster. -/
def castWith (r : Registry) : Nat → Caster → Value → Casting Value
  | 0, _, _ => throw (.nested (.circularReference "cast"))
  | _ + 1, .identity, v => pure v
  | _ + 1, .native t, v =>
    match t.cast v with
    | some v' => pure v'
    | none => throw (.mismatch v none)
  | n + 1, .list item, .list xs => do
    let cast ← xs.zipIdx.mapM fun (x, ix) =>
      (castWith r n item x).adapt fun f =>
        .nested ((f.toError fun v d => withDetail ("item must be of type " ++ item.text ++
          " (value: " ++ v.display ++ ", type: " ++ v.label ++ ")") d).atIndex ix)
    pure (.list cast)
  | _ + 1, .list _, v => throw (.mismatch v none)
  | _ + 1, .enum name, v =>
    match r.enumType name with
    | .error e => throw (.nested e)
    | .ok et =>
      match et.lookup v with
      | some m => pure (.enum m)
      | none => throw (.mismatch v (some ("not a member of " ++ name)))
  | n + 1, .composite name, .object t fs =>
    if r.isSubtype t name then pure (.object t fs)
    else ExceptT.adapt CastFailure.nested (do
      let c ← liftExcept (r.classOf name)
      let raw ← (r.instanceMap t fs : StateM Vocabulary _)
      fromMap r n c raw)
  | n + 1, .composite name, .map es =>
    ExceptT.adapt CastFailure.nested (do
      let c ← liftExcept (r.classOf name)
      fromMap r n c es)
  | _ + 1, .composite _, v => throw (.mismatch v none)
  | n + 1, c@(.keyed ..), v => castPolymorph r n c v
  | n + 1, c@(.conditional ..), v => castPolymorph r n c v
/-- Casts a value with a polymorph: an instance of a branch target is kept, a map is
discriminated. -/
def castPolymorph (r : Registry) : Nat → Caster → Value → Casting Value
  | 0, _, _ => throw (.nested (.circularReference "cast"))
  | _ + 1, c, .object t fs =>
    if c.targets.any (r.isSubtype t) then pure (.object t fs) else throw (.mismatch (.object t fs) none)
  | n + 1, c, .map es => ExceptT.adapt CastFailure.nested (discriminate r n c es)
  | _ + 1, _, v => throw (.mismatch v none)
/-- Casts data with the branch a polymorph chooses for it. -/
def discriminate (r : Registry) : Nat → Caster → List (String × Value) → Loading Value
  | 0, _, _ => throw (.circularReference "cast")
  | n + 1, c, data => do
    let (target, caster) ← liftExcept (selectBranch c data)
    (castWith r n caster (.map data)).adapt fun f =>
      f.toError fun v _ => "data of type " ++ v.label ++ " cannot be cast to " ++ target
/-- Builds an instance of a composite type from data keyed by names in data. -/
def fromMap (r : Registry) : Nat → Composite → List (String × Value) → Loading Value
  | 0, _, _ => throw (.circularReference "cast")
  | n + 1, c, raw => do
    let keyword ← (r.internalKeys c.name raw : StateM Vocabulary _)
    let fields ← construct r n c { keyword }
    pure (.object c.name fields)
/-- Builds the fields of an instance of a composite type from arguments. -/
def construct (r : Registry) : Nat → Composite → Arguments → Loading (List (String × Value))
  | 0, _, _ => throw (.circularReference "cast")
  | n + 1, c, args =>
    (runInitializer r n c.initializer args [] c.name).adapt (·.withinType c.name)
/-- Runs an initializer, adding fields after `fields`; `owner` names the composite type
whose special names spell the names of extra fields. -/
def runInitializer (r : Registry) : Nat → Initializer → Arguments → List (String × Value) →
    String → Loading (List (String × Value))
  | 0, _, _, _, _ => throw (.circularReference "cast")
  | n + 1, .direct ctor, args, fields, owner => invoke r n ctor args fields owner
  | n + 1, .combined signature parents, args, fields, _ => do
    let bound ← liftExcept (signature.bind args)
    List.foldlM (fun fields parent => do
      let pc ← liftExcept (r.composite parent)
      let psig := pc.initializer.signature
      let declared := bound.declared.filter fun (k, _) => (psig.param? k).isSome
      let extra := if psig.acceptsExtra then bound.extra else []
      runInitializer r n pc.initializer { keyword := Value.collect (declared ++ extra) } fields pc.name)
      fields parents
/-- Binds arguments to a constructor and coerces every value, adding fields after
`fields`. -/
def invoke (r : Registry) : Nat → Constructor → Arguments → List (String × Value) → String →
    Loading (List (String × Value))
  | 0, _, _, _, _ => throw (.circularReference "cast")
  | n + 1, ctor, args, fields, owner => do
    let bound ← liftExcept (ctor.bind args)
    let fields ← List.foldlM (fun fields p =>
      match Value.lookup bound.declared p.name with
      | none => pure fields
      | some v => do
        let v' ← (coerce r n p.name p.constraint p.caster v).adapt (·.atField p.externalName)
        pure (Value.setEntry fields p.name v')) fields ctor.params
    match ctor.catchAll with
    | none => pure fields
    | some ca =>
      List.foldlM (fun fields (name, v) => do
        let vocab ← get
        let key := Naming.snakeToPascal name (vocab.get owner)
        let v' ← (coerce r n name ca.constraint ca.caster v).adapt (·.atField key)
        pure (Value.setEntry fields name v')) fields bound.extra
/-- Takes `null` and conforming values as they are and casts the others. -/
def coerce (r : Registry) : Nat → String → TypeHandle → Caster → Value → Loading Value
  | 0, _, _, _, _ => throw (.circularReference "cast")
  | n + 1, name, constraint, caster, v =>
    if v.isNull || r.conforms v constraint then pure v
    else (castWith r n caster v).adapt fun f =>
      f.toError fun v d => withDetail ("argument '" ++ name ++ "' must be of type " ++
        constraint.text ++ " (value: " ++ preview v ++ ", type: " ++ v.label ++ ")") d
end

end Registry

end SchemaTypes
