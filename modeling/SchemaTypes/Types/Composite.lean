import SchemaTypes.Types.Caster
import SchemaTypes.Value.Text
import SchemaTypes.Schema.Definition
import SchemaTypes.Naming

/-! # Composite types and enumerations

A composite type has properties, each with an attribute name, the external name it has in
data, a constraint (the handle a value must fit to be taken as it is), a caster for other
values, and either no default (it is required) or a default value. It may also take extra
fields of one kind (a catch-all). It is built by an initializer: directly from its own
parameters, or, for a type that inherits from several parents, by binding the arguments
against the merged parameters and handing each parent the arguments it declares.

Binding arguments to parameters follows the rules of keyword arguments: at most as many
positional arguments as parameters, each parameter given once, unknown keywords only when a
catch-all takes them, and every required parameter given; a missing parameter is reported at
the field of the first one missing.

An enumeration is read from the `enum` list of its definition: an object member gives its
`Id` and `Description`, `null` is skipped, and any other literal is a member whose id is its
text. Member names are the ids in SCREAMING_SNAKE form.
-/

namespace SchemaTypes

/-- The default of a property: none (the property is required) or a value. -/
inductive PropertyDefault where
  | required
  | value (v : Value)

/-- A property of a composite type. -/
structure Property where
  name : String
  externalName : String
  caster : Caster
  constraint : TypeHandle
  default : PropertyDefault

/-- The kind and caster of the extra fields a composite type takes. -/
structure CatchAll where
  caster : Caster
  constraint : TypeHandle

/-- The parameters a composite type is bound against, reported under `owner`. -/
structure Constructor where
  owner : String
  params : List Property
  catchAll : Option CatchAll

/-- How an instance's fields are set from arguments. -/
inductive Initializer where
  /-- by binding to the constructor's own parameters -/
  | direct (constructor : Constructor)
  /-- by binding to the merged parameters, then initializing each parent in turn -/
  | combined (signature : Constructor) (parents : List String)

/-- Arguments: positional values, then keyword values by attribute name. -/
structure Arguments where
  positional : List Value := []
  keyword : List (String × Value) := []

/-- Arguments bound to a constructor: every parameter's value in parameter order, and the
extra keywords for the catch-all. -/
structure Bound where
  declared : List (String × Value)
  extra : List (String × Value)

namespace Constructor

/-- The parameter of an attribute name. -/
def param? (c : Constructor) (name : String) : Option Property :=
  c.params.find? (·.name == name)

/-- Whether extra keywords are taken. -/
def acceptsExtra (c : Constructor) : Bool := c.catchAll.isSome

/-- The signature: `Owner(p: C, q: C = None, **kwargs: C)`. -/
def signature (c : Constructor) : String :=
  let params := c.params.map fun p =>
    match p.default with
    | .required => p.name ++ ": " ++ p.constraint.text
    | .value .null => p.name ++ ": " ++ p.constraint.text ++ " = None"
    | .value v => p.name ++ ": " ++ p.constraint.text ++ " = " ++ v.display
  let extra := match c.catchAll with
    | some ca => ["**kwargs: " ++ ca.constraint.text]
    | none => []
  c.owner ++ "(" ++ ", ".intercalate (params ++ extra) ++ ")"

/-- Sorts keywords into declared parameters and extras, refusing a parameter given twice
and a keyword nobody takes. -/
def sortKeywords (c : Constructor) (given extra : List (String × Value)) :
    List (String × Value) → Except Error (List (String × Value) × List (String × Value))
  | [] => .ok (given, extra)
  | (name, v) :: rest =>
    if (c.param? name).isSome then
      if given.any (·.1 == name) then
        .error (Error.typeAt (c.owner ++ "() got multiple values for argument '" ++ name ++ "'"))
      else sortKeywords c (given ++ [(name, v)]) extra rest
    else if c.acceptsExtra then sortKeywords c given (Value.setEntry extra name v) rest
    else .error (Error.typeAt (c.owner ++ "() got an unexpected keyword argument '" ++ name ++ "'"))

/-- Binds arguments to the parameters. -/
def bind (c : Constructor) (args : Arguments) : Except Error Bound := do
  if args.positional.length > c.params.length then
    throw (Error.typeAt (c.owner ++ "() takes " ++ toString c.params.length ++
      " positional arguments but " ++ toString args.positional.length ++ " were given"))
  let given := (c.params.zip args.positional).map fun (p, v) => (p.name, v)
  let (given, extra) ← c.sortKeywords given [] args.keyword
  let declared := c.params.filterMap fun p =>
    match Value.lookup given p.name, p.default with
    | some v, _ => some (p.name, v)
    | none, .value d => some (p.name, d)
    | none, .required => none
  let missing := c.params.filter fun p =>
    match Value.lookup given p.name, p.default with
    | none, .required => true
    | _, _ => false
  match missing with
  | [] => .ok ⟨declared, extra⟩
  | first :: _ =>
    throw ((Error.typeAt (c.owner ++ "() missing " ++ toString missing.length ++
      " required argument" ++ (if missing.length = 1 then "" else "s") ++ ": " ++
      ", ".intercalate (missing.map fun p => "'" ++ p.name ++ "'"))).atField first.externalName)

end Constructor

namespace Initializer

/-- The parameters callers bind against. -/
def signature : Initializer → Constructor
  | .direct c => c
  | .combined s _ => s

/-- The same initializer reported under another owner. -/
def renamed (owner : String) : Initializer → Initializer
  | .direct c => .direct { c with owner }
  | .combined s parents => .combined { s with owner } parents

end Initializer

/-- Where a composite type's properties come from. -/
inductive CompositeKind where
  /-- its own definition -/
  | custom
  /-- a reference to another composite type -/
  | passthrough (parent : String)
  /-- several parents, merged -/
  | multiInheritance (parents : List String)

/-- A composite type. `special` holds the names that keep their spelling between data and
attributes. -/
structure Composite where
  name : String
  kind : CompositeKind
  description : Option String := none
  properties : List Property := []
  catchAll : Option CatchAll := none
  initializer : Initializer
  special : SpecialNames := {}

namespace Composite

/-- A new composite type with no properties. -/
def empty (name : String) (kind : CompositeKind) : Composite :=
  { name, kind, initializer := .direct ⟨name, [], none⟩ }

/-- The parent types. -/
def parents (c : Composite) : List String :=
  match c.kind with
  | .custom => []
  | .passthrough parent => [parent]
  | .multiInheritance parents => parents

/-- The property of an attribute name. -/
def property? (c : Composite) (name : String) : Option Property :=
  c.properties.find? (·.name == name)

/-- Sets a property by attribute name: in place if present, else at the end. -/
def setProperty (ps : List Property) (p : Property) : List Property :=
  if ps.any (·.name == p.name) then ps.map fun q => if q.name == p.name then p else q
  else ps ++ [p]

/-- The type with its direct initializer built from its properties and catch-all. -/
def resynthesized (c : Composite) : Composite :=
  { c with initializer := .direct ⟨c.name, c.properties, c.catchAll⟩ }

/-- The signature of the type's initializer. -/
def signature (c : Composite) : String := c.initializer.signature.signature

/-- The attribute name of a name in data, with the special names `special`: a property's
own external name maps to its attribute; other names convert from PascalCase, which may add
the name to the special names. -/
def internalName (c : Composite) (special : SpecialNames) (external : String) :
    String × SpecialNames :=
  match c.properties.find? (·.externalName == external) with
  | some p => (p.name, special)
  | none => Naming.pascalToSnake external special

/-- The name in data of an attribute name, with the special names `special`. -/
def externalName (c : Composite) (special : SpecialNames) (internal : String) : String :=
  match c.property? internal with
  | some p => p.externalName
  | none => Naming.snakeToPascal internal special

end Composite

/-! ## Enumerations -/

/-- An enumeration: its members by member name. -/
structure EnumType where
  name : String
  members : List EnumMember

/-- The id of a literal: a string itself, anything else its JSON text. -/
def literalId : Json → String
  | .str s => s
  | j => Json.compact j

/-- The id a value stands for, when it is a string, an integer or a boolean. -/
def Value.id? : Value → Option String
  | .str s => some s
  | .int n => some (toString n)
  | .bool b => some (if b then "true" else "false")
  | _ => none

namespace EnumType

/-- Sets a member by member name: in place if present, else at the end. -/
def setMember (ms : List EnumMember) (m : EnumMember) : List EnumMember :=
  if ms.any (·.name == m.name) then ms.map fun q => if q.name == m.name then m else q
  else ms ++ [m]

/-- Reads the members from the values of `enum`. -/
def readMembers (name : String) (scratch : SpecialNames) (acc : List EnumMember) :
    List Json → Except Error (List EnumMember)
  | [] => .ok acc
  | .null :: rest => readMembers name scratch acc rest
  | raw :: rest => do
    let (id, description, literal) ← match raw with
      | .obj entry =>
        match Json.lookup entry "Id" with
        | some idJson =>
          .ok (literalId idJson, (Json.lookup entry "Description").bind Json.str?, none)
        | none => .error (Error.unsupported name ("enum member without Id: " ++ Json.compact raw))
      | other => .ok (literalId other, none, some other)
    let (memberName, scratch') := Naming.pascalToScreamingSnake id scratch
    readMembers name scratch' (setMember acc ⟨name, memberName, id, description, literal⟩) rest

/-- The enumeration of a definition, which must have an `enum` list. -/
def ofDefinition (name : String) (d : Definition) : Except Error EnumType := do
  match d.enumValues? with
  | none => throw ((Error.unidentified none (Json.compact d.toJson)).named name)
  | some values =>
    let members ← readMembers name {} [] values
    .ok ⟨name, members⟩

/-- The member of a member name. -/
def member? (e : EnumType) (name : String) : Option EnumMember := e.members.find? (·.name == name)

/-- The first member with an id. -/
def byId? (e : EnumType) (id : String) : Option EnumMember := e.members.find? (·.id == id)

/-- The member a value stands for: a member of this enumeration by its name, a map by its
`Id`, a string, integer or boolean by its id. -/
def lookup (e : EnumType) : Value → Option EnumMember
  | .enum m => if m.enumName == e.name then e.member? m.name else none
  | .map es => ((Value.lookup es "Id").bind Value.id?).bind e.byId?
  | v => v.id?.bind e.byId?

end EnumType

end SchemaTypes
