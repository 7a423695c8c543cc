import SchemaTypes.Registry.Basic
import SchemaTypes.Schema.Document

/-! # Compiling a schema document

A document compiles into a registry in five passes.

1. Every definition is given its category; one that fits none but has `properties` is a
   custom type.
2. Definitions are registered category by category in the order of `Category.order`. A
   definition that refers to another registers that one first; a name that is needed while it
   is being registered is a circular reference. Parts that are neither a reference nor a
   plain native or list type (an inline object, enumeration or inheritance) become types of
   their own, named after where they occur: `Owner_Item`, `Owner_Option0`, `Owner_Parent0`,
   `Owner_AdditionalProperties`, `Owner_attribute`.
3. Inline objects among the properties of custom types are registered as types of their own.
4. The properties of every custom type are bound: each gets its attribute name, its caster
   and its constraint; a property not listed as required becomes optional with the default
   `null`.
5. Passthrough types take over the properties of their target, and types with several
   parents merge their parents' properties, parents first.

A string type whose `format` is `date-time` or `uuid`, or whose `pattern` equals that of the
document's own `DateTime` or `Uuid` definition, is a timestamp or UUID type.
-/

namespace SchemaTypes

/-- The keywords that make a definition more than an unconstrained value. -/
def shapeKeywords : List String :=
  ["$ref", "allOf", "oneOf", "anyOf", "type", "enum", "properties", "items"]

/-- Whether a definition constrains nothing, so that any value fits it. -/
def Definition.isUnconstrained (d : Definition) : Bool := !shapeKeywords.any d.has

/-- The category a definition is compiled as: its category, or custom when it fits none but
has properties. -/
def Definition.shapeCategory (d : Definition) : Except Error Category :=
  match d.classify with
  | .ok c => .ok c
  | .error e => if d.properties?.isSome then .ok .custom else .error e

/-- The target a branch reports: the name of an enumeration or composite type, or the
fallback. -/
def branchTarget (h : TypeHandle) (fallback : String) : String :=
  match h with
  | .composite name | .enum name => name
  | _ => fallback

/-- The single value of an `enum` list with one element. -/
def singleEnumValue (schema : Json) : Option Json :=
  match schema.get? "enum" with
  | some (.arr [only]) => some only
  | _ => none

/-- The keys of a keyed polymorph with the names they map to: the discriminator's mapping, or
the references among the alternatives, each keyed by the name it refers to. -/
def Definition.keyedTargets (d : Definition) (disc : Discriminator) : List (String × String) :=
  match disc.mapping with
  | some mapping => mapping.map fun (key, ref) => (key, referenceName ref)
  | none => (d.oneOf?.getD []).filterMap fun a =>
      ((a.get? "$ref").bind Json.str?).map fun ref => (referenceName ref, referenceName ref)

mutual
/-- The number of values in a JSON value. -/
def Json.size : Json → Nat
  | .arr xs => Json.sizeItems xs + 1
  | .obj ms => Json.sizeMembers ms + 1
  | _ => 1
/-- The number of values in a list of items. -/
def Json.sizeItems : List Json → Nat
  | [] => 0
  | x :: xs => Json.size x + Json.sizeItems xs
/-- The number of values in a list of members. -/
def Json.sizeMembers : List (String × Json) → Nat
  | [] => 0
  | (_, v) :: ms => Json.size v + Json.sizeMembers ms
end

/-- The state of a compilation: the definitions (growing with inline types), their
categories, the names of each category in order, the patterns of the timestamp and UUID
definitions, the registry built so far and the names being registered. -/
structure Compiler where
  definitions : List (String × Definition)
  categories : List (String × Category) := []
  groups : List (Category × List String) := Category.order.map fun c => (c, [])
  patterns : List (String × NativeType)
  registry : Registry := {}
  resolving : List String := []

/-- A compilation step. -/
abbrev Compiling := StateT Compiler (Except Error)

namespace Compiler

/-- The names of a category, in the order they were given it. -/
def group (s : Compiler) (c : Category) : List String :=
  match s.groups.find? (·.1 == c) with
  | some (_, names) => names
  | none => []

/-- The definition of a name. -/
def definition? (s : Compiler) (name : String) : Option Definition :=
  (s.definitions.find? (·.1 == name)).map (·.2)

/-- Records the category of a name. -/
def track (name : String) (c : Category) : Compiling Unit :=
  modify fun s => { s with
    categories := if s.categories.any (·.1 == name)
      then s.categories.map fun e => if e.1 == name then (name, c) else e
      else s.categories ++ [(name, c)]
    groups := s.groups.map fun (g, names) => if g == c then (g, names ++ [name]) else (g, names) }

/-- Takes an inline definition in under a name of its own. -/
def adopt (name : String) (d : Definition) (c : Category) : Compiling Unit := do
  modify fun s => { s with
    definitions := if s.definitions.any (·.1 == name)
      then s.definitions.map fun e => if e.1 == name then (name, d) else e
      else s.definitions ++ [(name, d)] }
  track name c

/-- Changes the registry. -/
def updateRegistry (f : Registry → Registry) : Compiling Unit :=
  modify fun s => { s with registry := f s.registry }

/-- The handle and caster registered under a name. -/
def registered (name : String) : Compiling (TypeHandle × Caster) := do
  let e ← liftExcept ((← get).registry.entry name)
  pure (e.handle, e.caster)

/-- Registers a composite type with no properties yet. -/
def registerComposite (name : String) (d : Definition) (kind : CompositeKind) (c : Category) :
    Compiling Unit :=
  updateRegistry fun r =>
    (r.insertComposite { Composite.empty name kind with description := d.description? }).register
      ⟨name, .composite name, .composite name, d, c⟩

/-- The native handle and caster of a definition with a native type name, refined by format
or by a known pattern. -/
def native (d : Definition) (context : String) : Compiling (TypeHandle × Caster) := do
  let s ← get
  match d.typeName?.bind NativeType.ofSchemaType with
  | none => throw ((Error.unidentified none (Json.compact d.toJson)).named context)
  | some t =>
    let refined : NativeType :=
      if t == .string then
        match d.format?.bind NativeType.ofFormat with
        | some f => f
        | none =>
          match d.pattern? with
          | some p =>
            match s.patterns.find? (·.1 == p) with
            | some (_, k) => k
            | none => t
          | none => t
      else t
    pure (.native refined, .native refined)

/-- A definition from JSON, an unidentified one named by `name`. -/
def definitionOf (j : Json) (name : String) : Compiling Definition :=
  match Definition.ofJson j with
  | .ok d => pure d
  | .error e => throw (e.named name)

/-- The category of a definition, an unidentified one named by `name`. -/
def categoryOf (d : Definition) (name : String) : Compiling Category :=
  match d.shapeCategory with
  | .ok c => pure c
  | .error e => throw (e.named name)

mutual
/-- Registers a name, after the names it refers to. -/
def registerNamed : Nat → String → Compiling Unit
  | 0, name => throw (.circularReference name)
  | n + 1, name => do
    let s ← get
    if s.registry.contains name then return
    if s.resolving.contains name then throw (.circularReference name)
    let some d := s.definition? name | throw (.classNotFound name)
    let c ← match s.categories.find? (·.1 == name) with
      | some (_, c) => pure c
      | none => categoryOf d name
    modify fun s => { s with resolving := name :: s.resolving }
    registerDefinition n name d c
    modify fun s => { s with resolving := s.resolving.drop 1 }
/-- Registers a definition of a known category. -/
def registerDefinition : Nat → String → Definition → Category → Compiling Unit
  | 0, name, _, _ => throw (.circularReference name)
  | n + 1, name, d, c => do
    match c with
    | .native =>
      let (h, k) ← native d name
      updateRegistry (·.register ⟨name, h, k, d, c⟩)
    | .enumeration =>
      let e ← liftExcept (EnumType.ofDefinition name d)
      updateRegistry fun r => (r.insertEnum e).register ⟨name, .enum name, .enum name, d, c⟩
    | .custom => registerComposite name d .custom c
    | .passthrough =>
      let some target := d.referenceName?
        | throw ((Error.unidentified none (Json.compact d.toJson)).named name)
      registerNamed n target
      let e ← liftExcept ((← get).registry.entry target)
      match e.handle with
      | .composite parent => registerComposite name d (.passthrough parent) .passthrough
      | h => updateRegistry (·.register ⟨name, h, e.caster, d, .passthrough⟩)
    | .multiInheritance =>
      let parents ← inheritanceParents n name d
      registerComposite name d (.multiInheritance parents) c
    | .list =>
      let (h, k) ← listOf n d name
      updateRegistry (·.register ⟨name, h, k, d, c⟩)
    | .union =>
      let (h, k) ← unionOf n d name
      updateRegistry (·.register ⟨name, h, k, d, c⟩)
    | .polymorph =>
      let (h, k) ← polymorphOf n d name
      updateRegistry (·.register ⟨name, h, k, d, c⟩)
/-- The parents of a definition with `allOf`: references to composite types, and inline
objects registered as `Name_ParentN`. -/
def inheritanceParents : Nat → String → Definition → Compiling (List String)
  | 0, name, _ => throw (.circularReference name)
  | n + 1, name, d => do
    let parts := d.allOf?.getD []
    parts.zipIdx.mapM fun (part, ix) => do
      let part ← definitionOf part name
      match ← categoryOf part name with
      | .passthrough =>
        let (h, _) ← reference n part name
        match h with
        | .composite parent => pure parent
        | other =>
          throw (.unsupported name ("allOf member " ++ toString ix ++ " resolves to " ++
            other.text ++ ", not an object type"))
      | .custom =>
        let stub := name ++ "_Parent" ++ toString ix
        let _ ← anonymous n stub part .custom
        pure stub
      | .multiInheritance =>
        let stub := name ++ "_Parent" ++ toString ix
        let _ ← anonymous n stub part .multiInheritance
        pure stub
      | other =>
        throw (.unsupported name ("allOf member " ++ toString ix ++ " is a " ++ other.text ++
          " definition"))
/-- The handle and caster of a definition met inside another, named `hint` if it becomes a
type of its own. -/
def resolve : Nat → Definition → String → Compiling (TypeHandle × Caster)
  | 0, _, hint => throw (.circularReference hint)
  | n + 1, d, hint => do
    if d.isUnconstrained then return (.any, .identity)
    match ← categoryOf d hint with
    | .passthrough => reference n d hint
    | .native => native d hint
    | .list => listOf n d hint
    | .union => unionOf n d hint
    | .polymorph => polymorphOf n d hint
    | c => anonymous n hint d c
/-- The handle and caster of the definition a reference names, registered first. -/
def reference : Nat → Definition → String → Compiling (TypeHandle × Caster)
  | 0, _, context => throw (.circularReference context)
  | n + 1, d, context => do
    let some target := d.referenceName?
      | throw ((Error.unidentified none (Json.compact d.toJson)).named context)
    registerNamed n target
    registered target
/-- Registers an inline definition under a name, unless the name is taken. -/
def anonymous : Nat → String → Definition → Category → Compiling (TypeHandle × Caster)
  | 0, name, _, _ => throw (.circularReference name)
  | n + 1, name, d, c => do
    let s ← get
    if !s.registry.contains name then
      if (s.definition? name).isNone then adopt name d c
      registerNamed n name
    registered name
/-- A list type: any items, or items of the definition under `items`, named `Name_Item`. -/
def listOf : Nat → Definition → String → Compiling (TypeHandle × Caster)
  | 0, _, name => throw (.circularReference name)
  | n + 1, d, name => do
    let (h, k) ← match d.items? with
      | none | some (.bool true) => pure (TypeHandle.any, Caster.identity)
      | some items => do
        let itemName := name ++ "_Item"
        let items ← definitionOf items itemName
        resolve n items itemName
    pure (.list h, .list k)
/-- A union type: its alternatives other than `null`, named `Name_OptionN`; with a `null`
alternative it is optional, and with only one other alternative it is that one. -/
def unionOf : Nat → Definition → String → Compiling (TypeHandle × Caster)
  | 0, _, name => throw (.circularReference name)
  | n + 1, d, name => do
    let alternatives := d.oneOf?.getD []
    let nullable := alternatives.any fun a => (a.get? "type").bind Json.str? == some "null"
    let members ← alternatives.zipIdx.filterMapM fun (a, ix) => do
      if (a.get? "type").bind Json.str? == some "null" then return none
      let optionName := name ++ "_Option" ++ toString ix
      let a ← definitionOf a optionName
      let m ← resolve n a optionName
      pure (some m)
    match nullable, members with
    | true, [(h, k)] => pure (h.orNull, k)
    | _, _ =>
      let h := TypeHandle.union (members.map (·.1))
      pure (if nullable then h.orNull else h, .identity)
/-- A polymorph: conditional when it has `allOf`, else keyed by its discriminator. -/
def polymorphOf : Nat → Definition → String → Compiling (TypeHandle × Caster)
  | 0, _, name => throw (.circularReference name)
  | n + 1, d, name => do
    match d.allOf? with
    | some parts =>
      let branches ← conditions n name parts
      pure (.union (branches.map (·.2)), .conditional (branches.map (·.1)))
    | none => keyed n name d
/-- The branches of a conditional polymorph with their handles: each part's `if.properties`
must give a constant per field, and its `then` is the branch. -/
def conditions : Nat → String → List Json →
    Compiling (List ((List (String × Value) × String × Caster) × TypeHandle))
  | 0, name, _ => throw (.circularReference name)
  | n + 1, name, parts =>
    parts.zipIdx.mapM fun (part, ix) => do
      let some fields := ((part.get? "if").bind (·.get? "properties")).bind Json.members?
        | throw (.unsupported name ("condition " ++ toString ix ++ " has no \x60if.properties\x60"))
      let constants ← fields.foldlM (fun acc (field, schema) => do
        match schema.get? "const" <|> singleEnumValue schema with
        | some constant => pure (Value.setEntry acc field (Value.ofJson constant))
        | none =>
          throw (.unsupported name ("condition " ++ toString ix ++ " on \x60" ++ field ++
            "\x60 is not a constant"))) []
      let optionName := name ++ "_Option" ++ toString ix
      let thenPart ← definitionOf ((part.get? "then").getD .null) optionName
      let (h, k) ← resolve n thenPart optionName
      let target := branchTarget h (thenPart.referenceName?.getD optionName)
      pure ((constants, target, k), h)
/-- A keyed polymorph: the discriminator's mapping, or the references among the
alternatives, each registered and mapped to its caster. -/
def keyed : Nat → String → Definition → Compiling (TypeHandle × Caster)
  | 0, name, _ => throw (.circularReference name)
  | n + 1, name, d => do
    let some disc ← liftExcept d.discriminator
      | throw (.unsupported name "polymorph without discriminator")
    let targets := d.keyedTargets disc
    let (mapping, handles) ← targets.foldlM (fun (mapping, handles) (key, target) => do
      registerNamed n target
      let (h, k) ← registered target
      let entry := (key, branchTarget h target, k)
      let mapping := if mapping.any (·.1 == key)
        then mapping.map fun e => if e.1 == key then entry else e
        else mapping ++ [entry]
      let handles := if handles.any h.same then handles else handles ++ [h]
      pure (mapping, handles)) ([], [])
    pure (.union handles, .keyed disc.propertyName mapping)
end

/-! ## The passes -/

/-- A bound on the nesting of registrations: every step goes into a part of a definition or
on to another name not being registered. -/
def depthBound (s : Compiler) : Nat :=
  let size := s.definitions.foldl (fun acc (_, d) => acc + Json.size d.toJson) 0
  (size + s.definitions.length + 2) * (s.definitions.length + 2) * 4

/-- Gives every definition its category. -/
def categorize : Compiling Unit := do
  let s ← get
  let categorized ← s.definitions.mapM fun (name, d) => do
    let c ← categoryOf d name
    pure (name, c)
  categorized.forM fun (name, c) => track name c

/-- Registers every name of a category, in order. -/
def registerCategory (fuel : Nat) (c : Category) : Compiling Unit := do
  let names := (← get).group c
  names.forM (registerNamed fuel)

/-- The name of the type of an inline object under a property of `owner`. -/
def propertyHint (owner property : String) : String :=
  owner ++ "_" ++ (Naming.pascalToSnake property {}).1

/-- Registers the inline objects under the properties of the custom type at position `ix`
of its group and of those after it, the group growing as they are found. -/
def discoverNested (fuel : Nat) : Nat → Nat → Compiling Unit
  | _, 0 => pure ()
  | ix, rounds + 1 => do
    let s ← get
    match (s.group .custom)[ix]? with
    | none => pure ()
    | some owner =>
      let properties := ((s.definition? owner).bind Definition.properties?).getD []
      properties.forM fun (property, schema) => do
        match Definition.ofJson schema with
        | .error _ => pure ()
        | .ok nested =>
          if nested.isUnconstrained then return
          match nested.shapeCategory with
          | .ok .custom =>
            let stub := propertyHint owner property
            if ((← get).definition? stub).isSome then return
            adopt stub nested .custom
            registerNamed fuel stub
          | _ => pure ()
      discoverNested fuel (ix + 1) rounds

/-- The property of a declared member of `properties`. -/
def bindProperty (fuel : Nat) (name : String) (special : SpecialNames) (external : String)
    (schema : Json) (required : Bool) : Compiling (Property × SpecialNames) := do
  let (internal, special) := Naming.pascalToSnake external special
  let hint := name ++ "_" ++ internal
  let schema ← definitionOf schema hint
  let (h, k) ← resolve fuel schema hint
  if required then pure (⟨internal, external, k, h, .required⟩, special)
  else pure (⟨internal, external, k, h.orNull, .value .null⟩, special)

/-- The catch-all of a custom type: none, one taking anything, or one of the type of
`additionalProperties`. -/
def bindCatchAll (fuel : Nat) (name : String) (d : Definition) : Compiling (Option CatchAll) :=
  match d.additionalProperties? with
  | none | some (.bool false) => pure none
  | some (.bool true) => pure (some ⟨.identity, .any⟩)
  | some schema => do
    let hint := name ++ "_AdditionalProperties"
    let schema ← definitionOf schema hint
    let (h, k) ← resolve fuel schema hint
    pure (some (CatchAll.mk k h))

/-- Binds the properties and catch-all of a custom type: required properties first, each in
the order of `properties`. -/
def bindComposite (fuel : Nat) (name : String) : Compiling Unit := do
  let some d := (← get).definition? name | throw (.classNotFound name)
  let (required, optional) := d.splitByRequired
  let declared := required.map (·, true) ++ optional.map (·, false)
  let (properties, special) ← declared.foldlM (fun (acc, special) ((external, schema), req) => do
    let (p, special) ← bindProperty fuel name special external schema req
    pure (acc ++ [p], special)) ([], {})
  let catchAll ← bindCatchAll fuel name d
  let c ← liftExcept ((← get).registry.composite name)
  let c := { c with special := c.special.union special }
  let c := properties.foldl (fun c p =>
    { c with properties := Composite.setProperty c.properties p }.resynthesized) c
  let c := if catchAll.isSome then { c with catchAll }.resynthesized else c
  updateRegistry (·.insertComposite c)

/-- Binds the custom types from position `ix` of their group on, the group growing as inline
types are found. -/
def bindFrom (fuel : Nat) : Nat → Nat → Compiling Unit
  | _, 0 => pure ()
  | ix, rounds + 1 => do
    match ((← get).group .custom)[ix]? with
    | none => pure ()
    | some name =>
      bindComposite fuel name
      bindFrom fuel (ix + 1) rounds

/-- Gives a passthrough type its target's properties and a type with several parents its
parents' merged properties, after finalizing the parents; `done` holds the finished names and
`stack` those being finished. -/
def finalize : Nat → List String → String → List String → Compiling (List String)
  | 0, _, name, _ => throw (.circularReference name)
  | n + 1, stack, name, done => do
    if done.contains name then return done
    if stack.contains name then throw (.circularReference name)
    let c ← liftExcept ((← get).registry.composite name)
    let done ← c.parents.foldlM (fun done parent => finalize n (stack ++ [name]) parent done) done
    let r := (← get).registry
    match c.kind with
    | .custom => pure ()
    | .passthrough parent =>
      let p ← liftExcept (r.composite parent)
      let c ← liftExcept (r.composite name)
      updateRegistry (·.insertComposite { c with
        properties := p.properties, catchAll := p.catchAll,
        initializer := p.initializer.renamed name, special := c.special.union p.special })
    | .multiInheritance parents =>
      let (properties, catchAll, special) ← parents.foldlM (fun (ps, ca, sp) parent => do
        let p ← liftExcept (r.composite parent)
        let ps := p.properties.foldl Composite.setProperty ps
        let ca := if p.catchAll.isSome then p.catchAll else ca
        pure (ps, ca, sp.union p.special)) ([], none, {})
      let c ← liftExcept (r.composite name)
      updateRegistry (·.insertComposite { c with
        properties, catchAll,
        initializer := .combined ⟨name, properties, catchAll⟩ parents,
        special := c.special.union special })
    pure (done ++ [name])

/-- Finalizes every passthrough and multi-inheritance type that is a composite type. -/
def finalizeAll : Compiling Unit := do
  let s ← get
  let names := s.group .passthrough ++ s.group .multiInheritance
  let bound := s.registry.composites.length + 1
  let _ ← names.foldlM (fun done name => do
    if ((← get).registry.composite name).toBool then finalize bound [] name done
    else pure done) []

/-- Runs all passes. -/
def run (root : Option String) : Compiling Unit := do
  categorize
  let fuel := depthBound (← get)
  Category.order.forM (registerCategory fuel)
  let rounds := (depthBound (← get)) + 1
  discoverNested fuel 0 rounds
  bindFrom fuel 0 rounds
  finalizeAll
  updateRegistry fun r => { r with root }

end Compiler

/-- The patterns of a document's `DateTime` and `Uuid` definitions, which mark string types
as timestamps and UUIDs. -/
def Document.patterns (doc : Document) : List (String × NativeType) :=
  [("DateTime", NativeType.dateTime), ("Uuid", .uuid)].filterMap fun (source, t) =>
    ((doc.definitions.find? (·.1 == source)).bind fun (_, d) => d.pattern?).map (·, t)

/-- Compiles a document into a registry. -/
def Document.compile (doc : Document) : Except Error Registry := do
  let start : Compiler := { definitions := doc.definitions, patterns := doc.patterns }
  let ((), s) ← (Compiler.run doc.root).run start
  pure s.registry

end SchemaTypes
