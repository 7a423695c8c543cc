import SchemaTypes.Proofs.Stubs
import SchemaTypes.Proofs.Placements

/-! # The property tables of custom types

The binding pass walks the group of custom types from its start while inline types found on
the way join it, and gives each its property table (`Composite.BoundBy`): every member of
`properties` bound in the order `Definition.declared` gives, required ones first, under its
attribute name (the key in snake case) and its key as data name, with the caster its schema
resolves to and a constraint agreeing with it, required ones without default and optional ones
with the default `null` and a constraint that takes `null`; the members are set one by one by
attribute name, so two keys with the same attribute name share one property. The type has a
catch-all exactly when `additionalProperties` is there and not `false`.

A step binds the type at its position and adds types only as stubs (`Compiler.Stubbed`), so
the invariant of the pass (`Compiler.Binding`) is that the types before the position have their
tables and the others are still stubs. The pass runs for one more round than the bound
`depthBound` gives, and no compilation holds more definitions than that
(`Sound.definitions_length_le`): every custom type is reached.
-/

namespace SchemaTypes

/-- The members of `properties` in the order they are bound, each with whether `required`
lists it: the required ones first, then the others, each in the order of `properties`. -/
def Definition.declared (d : Definition) : List ((String × Json) × Bool) :=
  d.splitByRequired.1.map (·, true) ++ d.splitByRequired.2.map (·, false)

/-- Whether the custom type of a definition takes extra fields: `additionalProperties` is there
and not `false`. -/
def Definition.takesExtra (d : Definition) : Bool :=
  match d.additionalProperties? with
  | none | some (.bool false) => false
  | some _ => true

/-- The property bound for a declared member: its attribute is the key in snake case and its
data name the key itself. Its schema resolves to a handle that agrees with the property's
caster; a required property has no default and that handle as its constraint, an optional one
defaults to `null` and its constraint is the handle taking `null` too. -/
def Property.Binds (member : (String × Json) × Bool) (p : Property) : Prop :=
  p.externalName = member.1.1 ∧ p.name = (Naming.pascalToSnake member.1.1 {}).1 ∧
    ∃ h : TypeHandle, Agree h p.caster ∧
      if member.2 then p.default = .required ∧ p.constraint = h
      else p.default = .value .null ∧ p.constraint = h.orNull

/-- The property table of the custom type of `d`: the declared members, bound, set one by one
by attribute name; a catch-all exactly when `d` takes extra fields; and the direct initializer
over them. -/
def Composite.BoundBy (c : Composite) (d : Definition) : Prop :=
  ∃ bound : List Property, List.Forall₂ Property.Binds d.declared bound ∧
    c.properties = bound.foldl Composite.setProperty [] ∧ c.catchAll.isSome = d.takesExtra ∧
    c.initializer = .direct ⟨c.name, c.properties, c.catchAll⟩

theorem Definition.takesExtra_of_some {d : Definition} {x : Json}
    (given : d.additionalProperties? = some x) (notFalse : x ≠ .bool false) : d.takesExtra = true := by
  unfold takesExtra
  rw [given]
  split
  · next absent => cases absent
  · next isFalse => cases isFalse; exact absurd rfl notFalse
  · rfl

/-- A declared member is a member of the definition's properties. -/
theorem Definition.mem_properties_of_declared {d : Definition} {m : (String × Json) × Bool}
    (member : m ∈ d.declared) : m.1 ∈ d.properties?.getD [] := by
  apply Compiler.mem_of_splitByRequired
  simp only [Definition.declared, List.mem_append, List.mem_map] at member
  rcases member with ⟨y, found, rfl⟩ | ⟨y, found, rfl⟩
  · exact .inl found
  · exact .inr found

namespace Composite

/-- Setting properties one at a time, each time building the initializer anew, sets them on
the table and keeps the name, kind and catch-all; the initializer stays the direct one over the
table. -/
theorem foldl_resynthesized : ∀ (ps : List Property) (c : Composite),
    let c' := ps.foldl (fun c p =>
      { c with properties := Composite.setProperty c.properties p }.resynthesized) c
    c'.name = c.name ∧ c'.kind = c.kind ∧ c'.catchAll = c.catchAll ∧
      c'.properties = ps.foldl Composite.setProperty c.properties ∧
      (c.initializer = .direct ⟨c.name, c.properties, c.catchAll⟩ →
        c'.initializer = .direct ⟨c'.name, c'.properties, c'.catchAll⟩)
  | [], _ => ⟨rfl, rfl, rfl, rfl, id⟩
  | p :: ps, c => by
    obtain ⟨named, kind, catchAll, properties, direct⟩ := foldl_resynthesized ps
      ({ c with properties := Composite.setProperty c.properties p }.resynthesized)
    exact ⟨named, kind, catchAll, properties, fun _ => direct rfl⟩

/-- Properties whose attribute names are distinct are set as they are, in order. -/
theorem foldl_setProperty_of_nodup :
    ∀ (ps acc : List Property), ((acc ++ ps).map (·.name)).Nodup →
      ps.foldl Composite.setProperty acc = acc ++ ps
  | [], acc, _ => by simp
  | p :: ps, acc, distinct => by
    have fresh : acc.any (·.name == p.name) = false := by
      rw [List.map_append, List.map_cons, List.nodup_append] at distinct
      simpa using fun q member same => distinct.2.2 _ (List.mem_map_of_mem member) _
        List.mem_cons_self same
    rw [List.foldl_cons, setProperty, fresh, if_neg Bool.false_ne_true]
    rw [foldl_setProperty_of_nodup ps (acc ++ [p]) (by simpa using distinct)]
    simp

end Composite

theorem Property.names_of_binds {ms : List ((String × Json) × Bool)} {ps : List Property}
    (related : List.Forall₂ Property.Binds ms ps) :
    ps.map (·.name) = ms.map fun m => (Naming.pascalToSnake m.1.1 {}).1 := by
  induction related with
  | nil => rfl
  | cons binds _ ih => rw [List.map_cons, List.map_cons, ih, binds.2.1]

/-- When the keys of a custom type have distinct attribute names, its table holds exactly one
property per member of `properties`, in the order bound. -/
theorem Composite.BoundBy.exact {c : Composite} {d : Definition} (bound : c.BoundBy d)
    (distinct : (d.declared.map fun m => (Naming.pascalToSnake m.1.1 {}).1).Nodup) :
    List.Forall₂ Property.Binds d.declared c.properties := by
  obtain ⟨ps, related, table, -⟩ := bound
  have names := Property.names_of_binds related
  rw [table, Composite.foldl_setProperty_of_nodup ps [] (by simpa [names] using distinct)]
  simpa using related

namespace Compiler

variable {D : Document}

theorem take_of_prefix {α : Type} {l₁ l₂ : List α} {i : Nat} (pre : l₁ <+: l₂)
    (within : i ≤ l₁.length) : l₂.take i = l₁.take i := by
  obtain ⟨rest, rfl⟩ := pre
  exact List.take_append_of_le_length within

theorem getElem?_longer {α : Type} {l₁ l₂ : List α} {i : Nat} {a : α} (pre : l₁ <+: l₂)
    (found : l₁[i]? = some a) : l₂[i]? = some a := by
  obtain ⟨rest, rfl⟩ := pre
  rw [List.getElem?_append_left (List.getElem?_eq_some_iff.mp found).1, found]

theorem not_mem_take {α : Type} {l : List α} {i : Nat} {a : α} (nodup : l.Nodup)
    (found : l[i]? = some a) : a ∉ l.take i := by
  intro early
  have later : a ∈ l.drop i := by
    rw [List.mem_iff_getElem?]
    exact ⟨0, by rw [List.getElem?_drop]; simpa using found⟩
  rw [← List.take_append_drop i l] at nodup
  exact List.disjoint_of_nodup_append nodup early later

/-- Binding a declared property adds composite types only as stubs and gives the property its
attribute name, data name and default. -/
theorem bindProperty_binds {fuel : Nat} {name external : String}
    {special special' : SpecialNames} {schema : Json} {required : Bool} {d : Definition}
    {s t : Compiler} {p : Property}
    (run : (bindProperty fuel name special external schema required).run s =
      .ok ((p, special'), t))
    (sound : Sound D s) (spelling : Naming.KeepsSpelling special) (placed : Placed D name d)
    (custom : d.shapeCategory = .ok .custom) (member : (external, schema) ∈ d.properties?.getD []) :
    Stubbed s t ∧ Property.Binds ((external, schema), required) p := by
  have spelled := (Naming.pascalToSnake_special spelling external).1
  unfold bindProperty at run
  generalize Naming.pascalToSnake external special = converted at run spelled
  obtain ⟨internal, converted⟩ := converted
  dsimp only at run spelled
  obtain ⟨nested, middle, reading, resolving⟩ := Compiling.bind_ok run
  obtain ⟨rfl, read⟩ := definitionOf_ok reading
  obtain ⟨⟨h, k⟩, last, resolved, building⟩ := Compiling.bind_ok resolving
  have placedHint : Placed D (name ++ "_" ++ internal) nested := by
    rw [spelled]
    exact .property placed custom member read
  have stubbed := (frames fuel).resolve resolved sound placedHint
  -- the resolved handle and caster agree, as every resolution gives them
  have agree : Agree h k := ((specs fuel).resolve resolved sound placedHint).2.2
  dsimp only at building
  split at building
  · next isRequired =>
    obtain ⟨same, rfl⟩ := Compiling.pure_ok building
    obtain ⟨rfl, rfl⟩ := Prod.mk.inj same
    refine ⟨stubbed, rfl, spelled, h, agree, ?_⟩
    dsimp only
    rw [if_pos isRequired]
    exact ⟨rfl, rfl⟩
  · next notRequired =>
    obtain ⟨same, rfl⟩ := Compiling.pure_ok building
    obtain ⟨rfl, rfl⟩ := Prod.mk.inj same
    refine ⟨stubbed, rfl, spelled, h, agree, ?_⟩
    dsimp only
    rw [if_neg notRequired]
    exact ⟨rfl, rfl⟩

/-- Binding the catch-all adds composite types only as stubs and gives one exactly when the
definition takes extra fields. -/
theorem bindCatchAll_binds {fuel : Nat} {name : String} {d : Definition} {s t : Compiler}
    {catchAll : Option CatchAll} (run : (bindCatchAll fuel name d).run s = .ok (catchAll, t))
    (sound : Sound D s) (placed : Placed D name d) (custom : d.shapeCategory = .ok .custom) :
    Stubbed s t ∧ catchAll.isSome = d.takesExtra := by
  unfold bindCatchAll at run
  split at run
  · next absent =>
    obtain ⟨rfl, rfl⟩ := Compiling.pure_ok run
    exact ⟨.refl _, by simp [Definition.takesExtra, absent]⟩
  · next isFalse =>
    obtain ⟨rfl, rfl⟩ := Compiling.pure_ok run
    exact ⟨.refl _, by simp [Definition.takesExtra, isFalse]⟩
  · next isTrue =>
    obtain ⟨rfl, rfl⟩ := Compiling.pure_ok run
    exact ⟨.refl _, (Definition.takesExtra_of_some isTrue (by simp)).symm⟩
  · next schema notFalse notTrue given =>
    obtain ⟨nested, middle, reading, resolving⟩ := Compiling.bind_ok run
    obtain ⟨rfl, read⟩ := definitionOf_ok reading
    obtain ⟨⟨h, k⟩, last, resolved, building⟩ := Compiling.bind_ok resolving
    have stubbed := (frames fuel).resolve resolved sound
      (.extra placed custom given (fun same => notTrue same) (fun same => notFalse same) read)
    obtain ⟨rfl, rfl⟩ := Compiling.pure_ok building
    exact ⟨stubbed, (Definition.takesExtra_of_some given fun same => notFalse same).symm⟩

/-- Binding a custom type resolves its properties and catch-all, which adds only stubs, and then
replaces its composite type by one with the same name and kind which, when the type was still a
stub, has the table of its definition. -/
theorem bindComposite_binds {fuel : Nat} {name : String} {s t : Compiler}
    (run : (bindComposite fuel name).run s = .ok ((), t)) (sound : Sound D s)
    (member : name ∈ s.group .custom) :
    ∃ u c₀ c d, Keeps D s u ∧ Stubbed s u ∧ u.registry.composite name = .ok c₀ ∧
      s.definition? name = some d ∧ c.name = name ∧ c.kind = c₀.kind ∧
      (c₀.IsStub → c.BoundBy d) ∧ t = { u with registry := u.registry.insertComposite c } := by
  obtain ⟨d, defined, placed, custom⟩ := sound.custom member
  have keepsAll := bindComposite_keeps run sound member
  unfold bindComposite at run
  have run := get_bind_ok run
  rw [defined] at run
  dsimp only at run
  generalize splitting : d.splitByRequired = parts at run
  obtain ⟨required, optional⟩ := parts
  have declared : d.declared = required.map (·, true) ++ optional.map (·, false) := by
    rw [Definition.declared, splitting]
  dsimp only at run
  obtain ⟨⟨properties, special⟩, folded, folding, run⟩ := Compiling.bind_ok run
  -- the properties bound so far are those of the members bound so far
  obtain ⟨foldedKeeps, foldedStubbed, -, related⟩ := Compiling.foldlM_prefix
    (fun done (acc : List Property × SpecialNames) v =>
      Keeps D s v ∧ Stubbed s v ∧ Naming.KeepsSpelling acc.2 ∧
        List.Forall₂ Property.Binds done acc.1)
    (by
      intro done x prefixed acc v acc' v' held step
      obtain ⟨keeps, stubbed, spelling, bound⟩ := held
      obtain ⟨⟨external, schema⟩, req⟩ := x
      obtain ⟨ps, sp⟩ := acc
      dsimp only at step
      obtain ⟨⟨p, sp'⟩, middle, binding, step⟩ := Compiling.bind_ok step
      dsimp only at step
      obtain ⟨rfl, rfl⟩ := Compiling.pure_ok step
      have listed : (external, schema) ∈ d.properties?.getD [] := by
        refine @Definition.mem_properties_of_declared d ((external, schema), req) ?_
        rw [declared]
        exact prefixed.subset (List.mem_append_right done List.mem_cons_self)
      obtain ⟨stepKeeps, -, stepSpelling⟩ :=
        bindProperty_keeps binding keeps.1 spelling placed custom listed
      obtain ⟨stepStubbed, binds⟩ :=
        bindProperty_binds binding keeps.1 spelling placed custom listed
      exact ⟨keeps.trans stepKeeps, stubbed.trans stepStubbed, stepSpelling,
        List.rel_append bound (.cons binds .nil)⟩)
    ([], {}) s (properties, special) folded
    ⟨Keeps.refl sound, .refl s, fun _ member => by simp at member, .nil⟩ folding
  obtain ⟨catchAll, caught, catching, finishing⟩ := Compiling.bind_ok run
  obtain ⟨caughtKeeps, -⟩ := bindCatchAll_keeps catching foldedKeeps.1 placed custom
  obtain ⟨caughtStubbed, extra⟩ := bindCatchAll_binds catching foldedKeeps.1 placed custom
  have finishing := get_bind_ok finishing
  obtain ⟨c₀, looked, lookup, replacing⟩ := Compiling.bind_ok finishing
  obtain ⟨found, same⟩ := Compiling.liftExcept_ok lookup
  subst looked
  obtain ⟨-, named₀⟩ := Registry.composite_ok found
  simp only [updateRegistry, Compiling.run_modify, Except.ok.injEq, Prod.mk.injEq,
    true_and] at replacing
  obtain ⟨named, kind, sameExtra, table, direct⟩ := Composite.foldl_resynthesized properties
    { c₀ with special := c₀.special.union special }
  refine ⟨caught, c₀, _, d, foldedKeeps.trans caughtKeeps, foldedStubbed.trans caughtStubbed,
    found, defined, ?_, ?_, ?_, replacing.symm⟩
  · split <;> exact named.trans named₀
  · split <;> exact kind
  · intro stub
    obtain ⟨empty, noExtra, initial⟩ := stub
    have start : c₀.initializer = .direct ⟨c₀.name, c₀.properties, c₀.catchAll⟩ := by
      rw [initial, empty, noExtra]
    refine ⟨properties, declared ▸ related, ?_, ?_, ?_⟩
    · split <;> exact table.trans (by rw [empty])
    · split
      · exact extra
      · next absent =>
        exact (congrArg Option.isSome (sameExtra.trans noExtra)).trans
          ((Bool.eq_false_iff.mpr absent).symm.trans extra)
    · split
      · rfl
      · exact direct start

/-- The state of the binding pass at position `ix` of the custom types: the types before it are
composite types with their tables, every other composite type is still a stub. -/
structure Binding (D : Document) (ix : Nat) (s : Compiler) : Prop where
  sound : Sound D s
  present : ∀ n ∈ (s.group .custom).take ix, n ∈ s.registry.compositeNames
  tables : ∀ c ∈ s.registry.composites,
    (c.name ∈ (s.group .custom).take ix → ∃ d, s.definition? c.name = some d ∧ c.BoundBy d) ∧
    (c.name ∉ (s.group .custom).take ix → c.IsStub)

/-- Binding the custom type at position `ix` moves the binding pass one position on. -/
theorem bindComposite_binding {fuel ix : Nat} {name : String} {s t : Compiler}
    (run : (bindComposite fuel name).run s = .ok ((), t)) (binding : Binding D ix s)
    (found : (s.group .custom)[ix]? = some name) : Binding D (ix + 1) t := by
  have member := List.mem_of_getElem? found
  have keepsAll := bindComposite_keeps run binding.sound member
  obtain ⟨u, c₀, c, d, keeps, stubbed, looked, defined, named, kind, bound, rfl⟩ :=
    bindComposite_binds run binding.sound member
  obtain ⟨present₀, named₀⟩ := Registry.composite_ok looked
  have grows := keeps.2.1
  -- the positions before `ix + 1` are those before `ix` and the type just bound
  have taken : (u.group .custom).take (ix + 1) = (s.group .custom).take ix ++ [name] := by
    have within : ix < (s.group .custom).length := (List.getElem?_eq_some_iff.mp found).1
    rw [List.take_add_one, take_of_prefix (grows.groups .custom) within.le,
      getElem?_longer (grows.groups .custom) found, Option.toList_some]
  have fresh : name ∉ (s.group .custom).take ix :=
    not_mem_take (binding.sound.groupsNodup .custom) found
  obtain ⟨added, grown, stubs⟩ := stubbed
  have distinct : (u.registry.composites.map (·.name)).Nodup := keeps.1.registry.compositesNodup
  have stub : c₀.IsStub := by
    rw [grown] at present₀
    rcases List.mem_append.mp present₀ with old | new
    · exact (binding.tables c₀ old).2 (named₀ ▸ fresh)
    · exact stubs c₀ new
  have presentName : c.name ∈ u.registry.compositeNames := by
    rw [named, ← named₀]
    exact List.mem_map_of_mem (Registry.composite_ok looked).1
  have replaced := Registry.insertComposite_of_present presentName
  have sameGroup : ({ u with registry := u.registry.insertComposite c } : Compiler).group .custom =
      u.group .custom := rfl
  refine ⟨keepsAll.1, ?_, ?_⟩
  · intro n early
    simp only [replaced, Registry.compositeNames, Registry.names_replaced]
    change n ∈ (u.group .custom).take (ix + 1) at early
    rw [taken] at early
    rcases List.mem_append.mp early with old | new
    · exact grows.compositeNames.subset (binding.present n old)
    · rw [List.mem_singleton.mp new, ← named₀]
      exact List.mem_map_of_mem (Registry.composite_ok looked).1
  · intro x present
    rw [sameGroup, taken]
    simp only [replaced] at present
    obtain ⟨y, old, rfl⟩ := List.mem_map.mp present
    by_cases same : y.name = c.name
    · -- the type just bound
      simp only [same, beq_self_eq_true, if_true]
      refine ⟨fun _ => ⟨d, named ▸ grows.found defined, bound stub⟩, fun absent => ?_⟩
      exact absurd (List.mem_append_right _ (List.mem_singleton.mpr named)) absent
    · simp only [same, beq_iff_eq, if_false]
      have other : y.name ≠ name := named ▸ same
      rw [grown] at old
      rcases List.mem_append.mp old with old | new
      · obtain ⟨tabled, stubbed⟩ := binding.tables y old
        refine ⟨fun early => ?_, fun late => stubbed fun early => late (List.mem_append_left _ early)⟩
        rcases List.mem_append.mp early with early | new
        · obtain ⟨d', defined', table⟩ := tabled early
          exact ⟨d', grows.found defined', table⟩
        · exact absurd (List.mem_singleton.mp new) other
      · -- a stub added while binding has a name no composite type had before
        refine ⟨fun early => ?_, fun _ => stubs y new⟩
        rcases List.mem_append.mp early with early | new'
        · have before := binding.present _ early
          rw [grown, List.map_append] at distinct
          exact absurd before ((List.nodup_append.mp distinct).2.2 _ · _
            (List.mem_map_of_mem new) rfl)
        · exact absurd (List.mem_singleton.mp new') other

/-- The binding pass ends with every type before some position at least the group's length
bound, provided it has rounds enough for the group it ends with. -/
theorem bindFrom_binding {fuel : Nat} :
    ∀ (rounds ix : Nat) (s t : Compiler), (bindFrom fuel ix rounds).run s = .ok ((), t) →
      Binding D ix s → (t.group .custom).length ≤ ix + rounds →
      ∃ ix', (t.group .custom).length ≤ ix' ∧ Binding D ix' t
  | 0, ix, s, t, run, binding, short => by
    rw [bindFrom] at run
    obtain ⟨-, rfl⟩ := Compiling.pure_ok run
    exact ⟨ix, short, binding⟩
  | rounds + 1, ix, s, t, run, binding, short => by
    rw [bindFrom] at run
    have run := get_bind_ok run
    split at run
    · next missing =>
      obtain ⟨-, rfl⟩ := Compiling.pure_ok run
      exact ⟨ix, List.getElem?_eq_none_iff.mp missing, binding⟩
    · next name found =>
      obtain ⟨⟨⟩, middle, binding', rest⟩ := Compiling.bind_ok run
      exact bindFrom_binding rounds (ix + 1) middle t rest
        (bindComposite_binding binding' binding found) (by omega)

end Compiler

end SchemaTypes
