import SchemaTypes.Proofs.Compilation
import SchemaTypes.Proofs.CastSafety

/-! # Compiled registries

A registry compiled from a document is complete, closed and acyclic. Every definition of the
document is registered with its own definition and the category its shape fits. Every name
that an entry's handle or caster mentions, at any depth and through the branches of
polymorphs, and every name that a composite type's properties, catch-all, initializer or
parents mention, is the name of a type the registry holds. No composite type is its own
ancestor. So no cast, instantiation, discrimination, load or construction through the
registry fails for want of a type.

Every entry is registered with a definition that sits in the document at the entry's name.
The name does not tell the schemas at one name apart: an inline schema whose synthesized name
is already the name of a document definition is typed by that definition, and what the inline
schema refers to is never registered through it, so a cycle through it goes unnoticed.
-/

namespace SchemaTypes

namespace Registry

/-- `p` is a parent of the composite type named `x`. -/
def ParentOf (r : Registry) (p x : String) : Prop :=
  ∃ c ∈ r.composites, c.name = x ∧ p ∈ c.parents

variable {r : Registry}

/-- In a sound registry whose parents are composite types, a parent comes before its
child. -/
theorem Sound.parentOf_earlier (sound : r.Sound)
    (closed : ∀ c ∈ r.composites, ∀ p ∈ c.parents, p ∈ r.compositeNames) {p x : String}
    (parent : r.ParentOf p x) : r.compositeNames.idxOf p < r.compositeNames.idxOf x := by
  obtain ⟨c, present, rfl, member⟩ := parent
  exact sound.parentsEarlier c present p member (closed c present p member)

/-- No composite type of a sound registry whose parents are composite types is its own
ancestor. -/
theorem Sound.acyclic (sound : r.Sound)
    (closed : ∀ c ∈ r.composites, ∀ p ∈ c.parents, p ∈ r.compositeNames) (x : String) :
    ¬ Relation.TransGen r.ParentOf x x := by
  -- every step along the parents goes to a composite type registered earlier
  have earlier : ∀ {a b}, Relation.TransGen r.ParentOf a b →
      r.compositeNames.idxOf a < r.compositeNames.idxOf b := by
    intro a b chain
    induction chain with
    | single parent => exact sound.parentOf_earlier closed parent
    | tail _ parent before => exact Nat.lt_trans before (sound.parentOf_earlier closed parent)
  exact fun cycle => Nat.lt_irrefl _ (earlier cycle)

end Registry

/-- What a registry compiled from the document `D` is: complete (every definition is
registered with its own definition and category, and the root is the document's), closed
(every name that entries and composite types mention, parents included, is a type the
registry holds), acyclic, and such that nothing cast, instantiated, discriminated, loaded or
constructed through it fails for want of a type. -/
structure ClosedRegistry (D : Document) (R : Registry) : Prop where
  registered : ∀ p ∈ D.definitions, ∃ e ∈ R.entries,
    e.name = p.1 ∧ e.definition = p.2 ∧ p.2.shapeCategory = .ok e.category
  root : R.root = D.root
  entriesClosed : ∀ e ∈ R.entries, R.Covers (e.handle.mentions ++ e.caster.mentions)
  compositesClosed : ∀ c ∈ R.composites, R.Covers c.mentions
  parentsClosed : ∀ c ∈ R.composites, ∀ p ∈ c.parents, p ∈ R.compositeNames
  acyclic : ∀ x, ¬ Relation.TransGen R.ParentOf x x
  entriesFind : ∀ e ∈ R.entries, ∀ v, Avoids Error.Missing (R.cast e.caster v) ∧
    Avoids Error.Missing (R.instantiate e.name v) ∧ Avoids Error.Missing (R.discriminateAs e.name v)
  compositesFind : ∀ c ∈ R.composites, (∀ raw, Avoids Error.Missing (R.fromDict c raw)) ∧
    (∀ args, Avoids Error.Missing (R.constructInstance c args)) ∧
    ∀ p ∈ c.properties, ∀ v, Avoids Error.Missing (R.cast p.caster v)

/-- A registry compiled from a document whose definitions have distinct names is complete,
closed and acyclic, and nothing cast through it fails for want of a type. -/
theorem compiled_registry_closed {D : Document} {R : Registry}
    (distinct : (D.definitions.map (·.1)).Nodup) (compiled : D.compile = .ok R) :
    ClosedRegistry D R := by
  have facts := compile_compiled distinct compiled
  have sound := facts.sound
  refine ⟨facts.registered, facts.root, sound.entriesCovered, sound.compositesCovered,
    facts.parentsComposite, sound.acyclic facts.parentsComposite,
    fun e present v => ⟨?_, sound.instantiate_safe present v, sound.discriminateAs_safe present v⟩,
    fun c present => ⟨sound.fromDict_safe present, sound.constructInstance_safe present, ?_⟩⟩
  · exact sound.cast_safe (Registry.covers_append.mp (sound.entriesCovered e present)).2 v
  · -- a property's caster is among what its composite type mentions
    intro p member v
    have covers := sound.compositesCovered c present
    simp only [Composite.mentions, Registry.covers_append, Registry.covers_flatMap] at covers
    exact sound.cast_safe (Registry.covers_append.mp (covers.1.1 p member)).2 v

/-- A compilation known to succeed gives the registry it holds. -/
theorem Document.compile_of_toBool {D : Document} (succeeds : D.compile.toBool = true) :
    D.compile = .ok (D.compile.toOption.getD {}) := by
  cases compiled : D.compile with
  | ok R => rfl
  | error e =>
    rw [compiled] at succeeds
    cases succeeds

/-- A document: animals with names, pets with owners, dogs that are both, and a name for
dogs. -/
def kennel : Document :=
  { title := none, root := some "Dog",
    definitions := [
      ("Animal", ⟨[("type", .str "object"),
        ("properties", .obj [("Name", .obj [("type", .str "string")])])]⟩),
      ("Pet", ⟨[("type", .str "object"),
        ("properties", .obj [("Owner", .obj [("type", .str "string")])])]⟩),
      ("Dog", ⟨[("allOf", .arr [.obj [("$ref", .str "#/$defs/Animal")],
        .obj [("$ref", .str "#/$defs/Pet")]])]⟩),
      ("Hound", ⟨[("$ref", .str "#/$defs/Dog")]⟩)] }

/-- The registry compiled from `kennel`. -/
def kennelRegistry : Registry := kennel.compile.toOption.getD {}

theorem kennel_compiles : kennel.compile = .ok kennelRegistry :=
  Document.compile_of_toBool (by decide +kernel)

theorem kennel_registry_closed : ClosedRegistry kennel kennelRegistry :=
  compiled_registry_closed (by decide) kennel_compiles

/-- Every entry of a registry compiled from a document whose definitions have distinct names
is registered with a definition that sits in the document at the entry's name. -/
theorem compiled_entries_placed {D : Document} {R : Registry}
    (distinct : (D.definitions.map (·.1)).Nodup) (compiled : D.compile = .ok R) :
    ∀ e ∈ R.entries, Placed D e.name e.definition :=
  (compile_compiled distinct compiled).placed

theorem kennel_entries_placed :
    ∃ e ∈ kennelRegistry.entries, e.name = "Hound" ∧ Placed kennel e.name e.definition := by
  have registered : kennelRegistry.contains "Hound" = true := by decide +kernel
  obtain ⟨e, found⟩ := Registry.entry_of_contains registered
  obtain ⟨present, named⟩ := Registry.entry_ok found
  exact ⟨e, present, named, compiled_entries_placed (by decide) kennel_compiles e present⟩

/-- The schema of an inline address object. -/
def addressObject : Definition :=
  ⟨[("type", .str "object"), ("properties", .obj [("City", .obj [("type", .str "string")])])]⟩

/-- A document with a person whose address is an inline object, and a string type named the
way the compiler names that object. -/
def personnel : Document :=
  { title := none, root := none,
    definitions := [
      ("Person", ⟨[("type", .str "object"),
        ("properties", .obj [("Address", .obj addressObject.members)])]⟩),
      ("Person_address", ⟨[("type", .str "string")]⟩)] }

/-- The registry compiled from `personnel`. -/
def personnelRegistry : Registry := personnel.compile.toOption.getD {}

theorem personnel_compiles : personnel.compile = .ok personnelRegistry :=
  Document.compile_of_toBool (by decide +kernel)

/-- The inline address object sits at `Person_address`, a custom type, but the name is the
document's string type: the compiled registry types the address as a string. -/
theorem namesake_types_inline_object :
    personnel.compile = .ok personnelRegistry ∧
    Placed personnel "Person_address" addressObject ∧ addressObject.shapeCategory = .ok .custom ∧
    (personnelRegistry.entry "Person_address").toOption.map (·.category) = some .native ∧
    ((personnelRegistry.composite "Person").toOption.bind (·.property? "address")).map
      (·.caster.text) = some "string" := by
  have custom : addressObject.shapeCategory = .ok .custom := rfl
  refine ⟨personnel_compiles, ?_, custom, by decide +kernel, by decide +kernel⟩
  have named : "Person_address" = "Person" ++ "_" ++ (Naming.pascalToSnake "Address" {}).1 := by
    decide +kernel
  rw [named]
  exact .property (.document List.mem_cons_self) rfl (List.mem_singleton.mpr rfl) rfl

/-- An inline parent that inherits from the type `X`. -/
def loopingParent : Definition := ⟨[("allOf", .arr [.obj [("$ref", .str "#/$defs/X")]])]⟩

/-- A document in which `X` is `Y`, `Y` inherits from the inline `loopingParent`, and that
parent inherits from `X` again; an object type is named the way the compiler names the parent. -/
def hiddenCycle : Document :=
  { title := none, root := none,
    definitions := [
      ("X", ⟨[("$ref", .str "#/$defs/Y")]⟩),
      ("Y", ⟨[("allOf", .arr [.obj loopingParent.members])]⟩),
      ("Y_Parent0", ⟨[("type", .str "object"),
        ("properties", .obj [("Z", .obj [("type", .str "string")])])]⟩)] }

/-- The registry compiled from `hiddenCycle`. -/
def hiddenCycleRegistry : Registry := hiddenCycle.compile.toOption.getD {}

theorem hiddenCycle_compiles : hiddenCycle.compile = .ok hiddenCycleRegistry :=
  Document.compile_of_toBool (by decide +kernel)

/-- A cycle through an inline parent goes unnoticed when the parent's synthesized name is the
name of a document definition: `X` is `Y`, the one parent of `Y` inherits from `X`, and yet the
document compiles, with the document's object registered at the parent's name. -/
theorem namesake_parent_hides_cycle :
    hiddenCycle.compile = .ok hiddenCycleRegistry ∧
    (hiddenCycle.definitions.lookup "X").bind Definition.referenceName? = some "Y" ∧
    Placed hiddenCycle "Y_Parent0" loopingParent ∧
    loopingParent.shapeCategory = .ok .multiInheritance ∧
    (loopingParent.allOf?.getD []).filterMap
      (fun part => (Definition.ofJson part).toOption.bind Definition.referenceName?) = ["X"] ∧
    (hiddenCycleRegistry.entry "Y_Parent0").toOption.map (·.category) = some .custom := by
  have inherits : loopingParent.shapeCategory = .ok .multiInheritance := rfl
  refine ⟨hiddenCycle_compiles, by decide +kernel, ?_, inherits, by decide +kernel,
    by decide +kernel⟩
  have named : "Y_Parent0" = "Y" ++ "_Parent" ++ toString 0 := by decide
  rw [named]
  have placed : Placed hiddenCycle "Y" ⟨[("allOf", .arr [.obj loopingParent.members])]⟩ :=
    .document (by simp [hiddenCycle])
  exact .parent placed rfl (List.mem_singleton.mpr rfl) rfl

end SchemaTypes
