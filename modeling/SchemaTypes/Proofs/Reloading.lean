import SchemaTypes.Proofs.FlatRecords

/-! # Reloading a written instance

An instance loaded from JSON and written back as JSON should load again as the same instance
and write the same JSON. For flat records of scalars it does, from any special names
(`flat_record_round_trip`): each field is written under its property's external name, reads
back as itself, and the coercion of the second load keeps it.

Beyond them it can fail. A conditional polymorph chooses its branch by comparing the data with
the constants of each condition, and the branch then casts the data; the written instance
holds the cast values, which may no longer equal the constants. In `shapes` a `Shape` is a
`Tri` when its `Sides` is the text `"3"`, and `Tri` reads `Sides` as an integer: the instance
is written with `Sides` the number `3`, which selects no branch when it is loaded again.
-/

namespace SchemaTypes

/-- Loading a flat record of scalars from JSON data, writing it as JSON and loading that JSON
again gives the same instance and the same JSON, whatever special names the loads start
from. -/
theorem flat_record_round_trip {D : Document} {R : Registry}
    (distinct : (D.definitions.map (·.1)).Nodup) (compiled : D.compile = .ok R)
    {c : Composite} (present : c ∈ R.composites) (flat : c.isFlatRecord = true)
    {data : Json} {vocab vocab₁ : Vocabulary} {o : Value} {j : Json}
    (loaded : (R.fromDict c (Value.ofJson data)).run' vocab = (.ok o, vocab₁))
    (written : R.valueJson vocab₁ o = .ok j) :
    ∃ vocab₂, (R.fromDict c (Value.ofJson j)).run' vocab₁ = (.ok o, vocab₂) ∧
      R.valueJson vocab₂ o = .ok j := by
  have sound := (compile_compiled distinct compiled).sound
  obtain ⟨ctor, flatRecord⟩ := c.flatRecord_of_isFlatRecord flat
  obtain ⟨cells, params, rfl, settled⟩ :=
    Registry.fromDict_settles flatRecord ⟨vocab, vocab₁, loaded⟩
  -- the written JSON reads back as the data of the loaded fields, which load as themselves
  have reread := Registry.valueJson_reads_back sound present flatRecord params settled written
  obtain ⟨vocab₂, reloaded⟩ :=
    Registry.fromDict_returns sound present flatRecord params settled vocab₁
  refine ⟨vocab₂, by rw [reread]; exact reloaded, ?_⟩
  rw [Registry.valueJson_flat sound present flatRecord params settled vocab₂ vocab₁]
  exact written

namespace Registry

/-- Loads `data` as the composite type `c` from the special names `vocab` and writes the
instance as JSON: the instance, the special names after the load, and the JSON. -/
def loadWrite (r : Registry) (c : Composite) (data : Value) (vocab : Vocabulary) :
    Option (Value × Vocabulary × Json) :=
  match (r.fromDict c data).run' vocab with
  | (.error _, _) => none
  | (.ok o, vocab') =>
    match r.valueJson vocab' o with
    | .error _ => none
    | .ok j => some (o, vocab', j)

theorem loadWrite_some {r : Registry} {c : Composite} {data : Value} {vocab vocab' : Vocabulary}
    {o : Value} {j : Json} (wrote : r.loadWrite c data vocab = some (o, vocab', j)) :
    (r.fromDict c data).run' vocab = (.ok o, vocab') ∧ r.valueJson vocab' o = .ok j := by
  unfold loadWrite at wrote
  split at wrote
  · cases wrote
  · next o' vocab'' loaded =>
    split at wrote
    · cases wrote
    · next j' json =>
      cases wrote
      exact ⟨loaded, json⟩

end Registry

/-- A dog's name, as data. -/
def rex : Json := .obj [("Name", .str "Rex")]

theorem animal_round_trip :
    ∃ c ∈ kennelRegistry.composites, ∃ o vocab₁ j vocab₂,
      (kennelRegistry.fromDict c (Value.ofJson rex)).run' kennelRegistry.vocabulary =
        (.ok o, vocab₁) ∧ kennelRegistry.valueJson vocab₁ o = .ok j ∧
      (kennelRegistry.fromDict c (Value.ofJson j)).run' vocab₁ = (.ok o, vocab₂) ∧
      kennelRegistry.valueJson vocab₂ o = .ok j := by
  have named : "Animal" ∈ kennelRegistry.compositeNames := by decide +kernel
  obtain ⟨c, found⟩ := Registry.composite_of_mem named
  have present := (Registry.composite_ok found).1
  have checked : (kennelRegistry.composite "Animal").toOption.map (fun c => (c.isFlatRecord,
      (kennelRegistry.loadWrite c (Value.ofJson rex) kennelRegistry.vocabulary).isSome)) =
      some (true, true) := by
    decide +kernel
  rw [found] at checked
  simp only [Except.toOption, Option.map_some, Option.some.injEq, Prod.mk.injEq] at checked
  obtain ⟨flat, wrote⟩ := checked
  obtain ⟨⟨o, vocab₁, j⟩, wroteSome⟩ := Option.isSome_iff_exists.mp wrote
  obtain ⟨loaded, json⟩ := Registry.loadWrite_some wroteSome
  obtain ⟨vocab₂, reloaded, rewritten⟩ :=
    flat_record_round_trip (by decide) kennel_compiles present flat loaded json
  exact ⟨c, present, o, vocab₁, j, vocab₂, loaded, json, reloaded, rewritten⟩

namespace Registry

/-- Whether loading `data` as the composite type `name`, from the registry's own special names,
succeeds and writes as JSON, and that JSON then fails to load as the same type. -/
def reloadFails (r : Registry) (name : String) (data : Value) : Bool :=
  match r.composite name with
  | .error _ => false
  | .ok c =>
    match r.loadWrite c data r.vocabulary with
    | none => false
    | some (_, vocab, j) => !((r.fromDict c (Value.ofJson j)).run' vocab).1.toBool

theorem reloadFails_spec {r : Registry} {name : String} {data : Value}
    (fails : r.reloadFails name data = true) :
    ∃ c ∈ r.composites, ∃ o vocab j e vocab',
      (r.fromDict c data).run' r.vocabulary = (.ok o, vocab) ∧ r.valueJson vocab o = .ok j ∧
      (r.fromDict c (Value.ofJson j)).run' vocab = (.error e, vocab') := by
  unfold reloadFails at fails
  split at fails
  · cases fails
  · next c found =>
    split at fails
    · cases fails
    · next o vocab j wrote =>
      obtain ⟨loaded, written⟩ := loadWrite_some wrote
      cases reloaded : (r.fromDict c (Value.ofJson j)).run' vocab with
      | mk result vocab' =>
        rw [reloaded] at fails
        cases result with
        | ok _ => cases fails
        | error e =>
          exact ⟨c, (composite_ok found).1, o, vocab, j, e, vocab', loaded, written, reloaded⟩

end Registry

/-- Shapes chosen by a condition on a text constant, with a type that reads the same field as
an integer. -/
def shapes : Document :=
  { title := none, root := none,
    definitions := [
      ("Tri", ⟨[("type", .str "object"),
        ("properties", .obj [("Sides", .obj [("type", .str "integer")])])]⟩),
      ("Shape", ⟨[("allOf", .arr [.obj [
        ("if", .obj [("properties", .obj [("Sides", .obj [("const", .str "3")])])]),
        ("then", .obj [("$ref", .str "#/$defs/Tri")])]])]⟩),
      ("Holder", ⟨[("type", .str "object"),
        ("properties", .obj [("S", .obj [("$ref", .str "#/$defs/Shape")])])]⟩)] }

/-- The registry compiled from `shapes`. -/
def shapesRegistry : Registry := shapes.compile.toOption.getD {}

theorem shapes_compiles : shapes.compile = .ok shapesRegistry :=
  Document.compile_of_toBool (by decide +kernel)

/-- A holder of a shape whose `Sides` is the text `"3"`. -/
def sidesAsText : Value := .map [("S", .map [("Sides", .str "3")])]

/-- Loading an instance, writing it as JSON and loading the JSON again can fail. -/
theorem written_instance_may_not_reload :
    ∃ R, shapes.compile = .ok R ∧ ∃ c ∈ R.composites, ∃ o vocab j e vocab',
      (R.fromDict c sidesAsText).run' R.vocabulary = (.ok o, vocab) ∧
      R.valueJson vocab o = .ok j ∧
      (R.fromDict c (Value.ofJson j)).run' vocab = (.error e, vocab') :=
  ⟨shapesRegistry, shapes_compiles,
    @Registry.reloadFails_spec shapesRegistry "Holder" sidesAsText (by decide +kernel)⟩

end SchemaTypes
