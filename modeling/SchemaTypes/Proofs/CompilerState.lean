import SchemaTypes.Proofs.Compiling
import SchemaTypes.Proofs.RegistrySound

/-! # The state of a compilation

Compiling a document registers every definition of it, and also schemas found inside
definitions, each under a name made from where it sits: `Owner_Item` for the items of a
list, `Owner_OptionN` for the `N`-th alternative of a union or the `then` part of the `N`-th
condition of a polymorph, `Owner_ParentN` for the `N`-th part of an inheritance,
`Owner_attribute` for a property and `Owner_AdditionalProperties` for the extra fields of a
custom type. `Placed D name d` says that `d` sits in the document `D` at a position that
the compiler names `name`.

`Compiler.Sound D s` is the invariant of a compilation of `D` once every definition has its
category: every definition is placed and named once, every definition has a category that
fits it and is in the group of that category, every entry is registered under a defined name
with its definition and category, the names being registered are not registered yet, the
composite types that take properties from others are in the groups finalization walks, and
the registry is sound. `Compiler.Grows s t` says that `t` extends `s`: lists only grow at
their end.
-/

namespace SchemaTypes

/-- Where a definition sits in a document, under the name the compiler gives the type at
that position: a definition of the document under its own name, or a schema inside a placed
definition of the category that looks there. -/
inductive Placed (D : Document) : String → Definition → Prop
  | document {name : String} {d : Definition} : (name, d) ∈ D.definitions → Placed D name d
  | item {name : String} {d e : Definition} {items : Json} :
      Placed D name d → d.shapeCategory = .ok .list → d.items? = some items →
      items ≠ .bool true → Definition.ofJson items = .ok e → Placed D (name ++ "_Item") e
  | option {name : String} {d e : Definition} {alternative : Json} {ix : Nat} :
      Placed D name d → d.shapeCategory = .ok .union →
      (alternative, ix) ∈ (d.oneOf?.getD []).zipIdx →
      (alternative.get? "type").bind Json.str? ≠ some "null" →
      Definition.ofJson alternative = .ok e → Placed D (name ++ "_Option" ++ toString ix) e
  | branch {name : String} {d e : Definition} {parts : List Json} {part : Json} {ix : Nat} :
      Placed D name d → d.shapeCategory = .ok .polymorph → d.allOf? = some parts →
      (part, ix) ∈ parts.zipIdx → Definition.ofJson ((part.get? "then").getD .null) = .ok e →
      Placed D (name ++ "_Option" ++ toString ix) e
  | parent {name : String} {d e : Definition} {part : Json} {ix : Nat} :
      Placed D name d → d.shapeCategory = .ok .multiInheritance →
      (part, ix) ∈ (d.allOf?.getD []).zipIdx → Definition.ofJson part = .ok e →
      Placed D (name ++ "_Parent" ++ toString ix) e
  | property {name key : String} {d e : Definition} {schema : Json} :
      Placed D name d → d.shapeCategory = .ok .custom → (key, schema) ∈ d.properties?.getD [] →
      Definition.ofJson schema = .ok e → Placed D (name ++ "_" ++ (Naming.pascalToSnake key {}).1) e
  | extra {name : String} {d e : Definition} {schema : Json} :
      Placed D name d → d.shapeCategory = .ok .custom → d.additionalProperties? = some schema →
      schema ≠ .bool true → schema ≠ .bool false → Definition.ofJson schema = .ok e →
      Placed D (name ++ "_AdditionalProperties") e

namespace Compiler

/-- The invariant of a compilation of `D`, from the end of `categorize` on. -/
structure Sound (D : Document) (s : Compiler) : Prop where
  placed : ∀ p ∈ s.definitions, Placed D p.1 p.2
  definitionsNodup : (s.definitions.map (·.1)).Nodup
  tracked : ∀ p ∈ s.definitions, ∃ c, (p.1, c) ∈ s.categories
  categorized : ∀ n c, (n, c) ∈ s.categories →
    ∃ d, s.definition? n = some d ∧ d.shapeCategory = .ok c
  grouped : ∀ n c, n ∈ s.group c ↔ (n, c) ∈ s.categories
  groupsKeyed : ∀ c, (s.groups.find? (·.1 == c)).isSome = true
  groupsNodup : ∀ c, (s.group c).Nodup
  entriesDefined : ∀ e ∈ s.registry.entries,
    s.definition? e.name = some e.definition ∧ e.definition.shapeCategory = .ok e.category
  fresh : ∀ n ∈ s.resolving, s.registry.contains n = false
  resolvingNodup : s.resolving.Nodup
  kinds : ∀ c ∈ s.registry.composites,
    (c.kind = .custom → c.name ∈ s.group .custom) ∧
    (∀ p, c.kind = .passthrough p → c.name ∈ s.group .passthrough) ∧
    (∀ ps, c.kind = .multiInheritance ps → c.name ∈ s.group .multiInheritance)
  registry : s.registry.Sound

/-- `t` extends `s`: definitions, groups, entries, composite types and enumerations only grow
at their end. -/
structure Grows (s t : Compiler) : Prop where
  definitions : s.definitions <+: t.definitions
  groups : ∀ c, s.group c <+: t.group c
  entries : s.registry.entries <+: t.registry.entries
  compositeNames : s.registry.compositeNames <+: t.registry.compositeNames
  enumNames : s.registry.enumNames <+: t.registry.enumNames

theorem Grows.refl (s : Compiler) : Grows s s :=
  ⟨List.prefix_refl _, fun _ => List.prefix_refl _, List.prefix_refl _, List.prefix_refl _,
    List.prefix_refl _⟩

theorem Grows.trans {a b c : Compiler} (first : Grows a b) (second : Grows b c) : Grows a c :=
  ⟨first.definitions.trans second.definitions,
    fun g => (first.groups g).trans (second.groups g), first.entries.trans second.entries,
    first.compositeNames.trans second.compositeNames, first.enumNames.trans second.enumNames⟩

theorem Grows.contains {s t : Compiler} {name : String} (grows : Grows s t)
    (registered : s.registry.contains name = true) : t.registry.contains name = true :=
  Registry.contains_of_prefix grows.entries registered

theorem Grows.covers {s t : Compiler} {ms : List Mention} (grows : Grows s t)
    (covers : s.registry.Covers ms) : t.registry.Covers ms :=
  covers.mono grows.compositeNames.subset grows.enumNames.subset

/-! ## Definitions by name -/

variable {D : Document} {s t : Compiler} {name : String} {d : Definition}

theorem mem_of_definition? (found : s.definition? name = some d) : (name, d) ∈ s.definitions := by
  unfold definition? at found
  cases lookup : s.definitions.find? (·.1 == name) with
  | none => rw [lookup] at found; cases found
  | some p =>
    rw [lookup] at found
    cases found
    obtain ⟨member, named⟩ := find?_named lookup
    rw [← named]
    exact member

theorem definition?_of_mem (nodup : (s.definitions.map (·.1)).Nodup)
    (member : (name, d) ∈ s.definitions) : s.definition? name = some d := by
  obtain ⟨p, found⟩ := @find?_named_isSome _ _ Prod.fst _ (List.mem_map_of_mem member)
  obtain ⟨present, named⟩ := find?_named found
  have same : p = (name, d) := List.inj_on_of_nodup_map nodup present member named
  simp [definition?, found, same]

/-- A definition found by name stays found as the definitions grow. -/
theorem Grows.found (grows : Grows s t) (found : s.definition? name = some d) :
    t.definition? name = some d := by
  obtain ⟨more, extended⟩ := grows.definitions
  unfold Compiler.definition? at found ⊢
  rw [← extended, List.find?_append]
  cases lookup : s.definitions.find? (·.1 == name) with
  | none => rw [lookup] at found; cases found
  | some p => rw [lookup] at found; simpa using found

/-- The definition a sound state has under a name sits at that name. -/
theorem Sound.placed_of_definition? (sound : Sound D s) (found : s.definition? name = some d) :
    Placed D name d :=
  sound.placed _ (mem_of_definition? found)

/-- A definition found by name in a sound state is the one it has. -/
theorem Sound.definition?_eq (sound : Sound D s) (member : (name, d) ∈ s.definitions) :
    s.definition? name = some d :=
  definition?_of_mem sound.definitionsNodup member

/-- A name without a definition has no category. -/
theorem Sound.untracked (sound : Sound D s) (undefined : s.definition? name = none) :
    ∀ c, (name, c) ∉ s.categories := by
  intro c tracked
  obtain ⟨d, defined, -⟩ := sound.categorized name c tracked
  rw [undefined] at defined
  cases defined

/-- A name defined in a sound state has its category recorded, given by `categorize` or by the
adoption of its definition. -/
theorem Sound.category_found (sound : Sound D s) (defined : s.definition? name = some d) :
    ∃ c, s.categories.find? (·.1 == name) = some (name, c) ∧ (name, c) ∈ s.categories := by
  obtain ⟨c, tracked⟩ := sound.tracked _ (mem_of_definition? defined)
  obtain ⟨⟨n', c'⟩, found⟩ := Option.isSome_iff_exists.mp
    (List.find?_isSome.mpr ⟨(name, c), tracked, by simp⟩ :
      (s.categories.find? (·.1 == name)).isSome = true)
  obtain ⟨member, named⟩ := @find?_named _ _ Prod.fst _ _ found
  subst named
  exact ⟨c', found, member⟩

/-- Marking a name that is not registered as being registered keeps a compilation sound. -/
theorem Sound.push (sound : Sound D s) (fresh : s.registry.contains name = false)
    (outside : name ∉ s.resolving) : Sound D { s with resolving := name :: s.resolving } := by
  refine ⟨sound.placed, sound.definitionsNodup, sound.tracked, sound.categorized, sound.grouped,
    sound.groupsKeyed, sound.groupsNodup, sound.entriesDefined, ?_,
    List.nodup_cons.mpr ⟨outside, sound.resolvingNodup⟩, sound.kinds, sound.registry⟩
  intro m marked
  rcases List.mem_cons.mp marked with rfl | old
  · exact fresh
  · exact sound.fresh m old

theorem definition?_append_fresh (extra : Definition) (undefined : s.definition? name = none) :
    ∀ n, (({ s with definitions := s.definitions ++ [(name, extra)] } : Compiler).definition? n) =
      if n = name then some extra else s.definition? n := by
  intro n
  unfold Compiler.definition? at undefined ⊢
  rw [List.find?_append]
  by_cases same : n = name
  · subst same
    have none : s.definitions.find? (·.1 == n) = none := by
      cases lookup : s.definitions.find? (·.1 == n) with
      | none => rfl
      | some p => rw [lookup] at undefined; cases undefined
    simp [none]
  · cases lookup : s.definitions.find? (·.1 == n) with
    | none => simp [same, Ne.symm same]
    | some p => simp [same]

/-! ## Handles and casters of types -/

/-- A handle and caster that mention only types the registry holds and agree. -/
def Fine (r : Registry) (h : TypeHandle) (k : Caster) : Prop :=
  r.Covers (h.mentions ++ k.mentions) ∧ Agree h k

theorem fine_any (r : Registry) : Fine r .any .identity :=
  ⟨by simp [Registry.Covers, TypeHandle.mentions, Caster.mentions], .any⟩

theorem fine_native (r : Registry) (kind : NativeType) : Fine r (.native kind) (.native kind) :=
  ⟨by simp [Registry.Covers, TypeHandle.mentions, Caster.mentions], .native kind⟩

theorem Grows.fine {h : TypeHandle} {k : Caster} (grows : Grows s t) (fine : Fine s.registry h k) :
    Fine t.registry h k :=
  ⟨grows.covers fine.1, fine.2⟩

/-! ## Categories and groups -/

/-- Tracking the category of a name that has none appends it to the categories and to the
group of that category. -/
theorem track_fresh {c : Category} (run : (track name c).run s = .ok ((), t))
    (untracked : ∀ c', (name, c') ∉ s.categories)
    (keyed : ∀ c', (s.groups.find? (·.1 == c')).isSome = true) :
    t = { s with categories := s.categories ++ [(name, c)], groups := t.groups } ∧
      (∀ c', t.group c' = if c' = c then s.group c' ++ [name] else s.group c') ∧
      (∀ c', (t.groups.find? (·.1 == c')).isSome = true) := by
  simp only [track, Compiling.run_modify, Except.ok.injEq, Prod.mk.injEq, true_and] at run
  subst run
  have absent : s.categories.any (·.1 == name) = false := by
    simp only [List.any_eq_false, beq_iff_eq]
    rintro ⟨n, c'⟩ member rfl
    exact untracked c' member
  -- the groups keep their keys, so a lookup by key finds the changed group
  have keys : ∀ f : Category × List String → Category × List String,
      (∀ g names, (f (g, names)).1 = g) →
      ∀ c', (fun (e : Category × List String) => e.1 == c') ∘ f = (fun e => e.1 == c') := by
    intro f kept c'
    funext ⟨g, names⟩
    simp only [Function.comp_apply, kept]
  have kept : ∀ g names, (if g == c then (g, names ++ [name]) else (g, names)).1 = g := by
    intro g names
    by_cases same : g = c <;> simp [same]
  refine ⟨by simp [absent], ?_, ?_⟩
  · intro c'
    unfold Compiler.group
    simp only
    rw [List.find?_map, keys _ ?fst c']
    case fst => exact kept
    obtain ⟨found, lookup⟩ := Option.isSome_iff_exists.mp (keyed c')
    obtain ⟨g, names⟩ := found
    have key : g = c' := by simpa using List.find?_some lookup
    subst key
    rw [lookup]
    by_cases same : g = c <;> simp [same]
  · intro c'
    rw [List.find?_map, keys _ ?fst c']
    case fst => exact kept
    simpa using keyed c'

/-- Adopting an inline definition under a name that has none keeps a compilation sound when
the definition sits at that name and has the category it is adopted with. -/
theorem adopt_keeps {c : Category} (run : (adopt name d c).run s = .ok ((), t))
    (sound : Sound D s) (undefined : s.definition? name = none) (placed : Placed D name d)
    (category : d.shapeCategory = .ok c) :
    Sound D t ∧ Grows s t ∧ t.resolving = s.resolving ∧ t.registry = s.registry ∧
      t.definition? name = some d := by
  unfold adopt at run
  obtain ⟨⟨⟩, middle, first, tracking⟩ := Compiling.bind_ok run
  simp only [Compiling.run_modify, Except.ok.injEq, Prod.mk.injEq, true_and] at first
  have absent : s.definitions.any (·.1 == name) = false := by
    cases any : s.definitions.any (·.1 == name) with
    | false => rfl
    | true =>
      obtain ⟨⟨pName, pDefinition⟩, member, named⟩ := List.any_eq_true.mp any
      have found := sound.definition?_eq member
      rw [show pName = name by simpa using named, undefined] at found
      cases found
  simp only [absent, Bool.false_eq_true, if_false] at first
  subst first
  have lookups := definition?_append_fresh d undefined
  obtain ⟨shape, groups, keyed⟩ := track_fresh tracking (sound.untracked undefined) sound.groupsKeyed
  replace groups : ∀ c', t.group c' = if c' = c then s.group c' ++ [name] else s.group c' := groups
  have definitions : t.definitions = s.definitions ++ [(name, d)] := by rw [shape]
  have categories : t.categories = s.categories ++ [(name, c)] := by rw [shape]
  have sameRegistry : t.registry = s.registry := by rw [shape]
  have sameResolving : t.resolving = s.resolving := by rw [shape]
  have found : ∀ n, t.definition? n = if n = name then some d else s.definition? n := by
    intro n; rw [shape]; exact lookups n
  have grownGroups : ∀ c', s.group c' <+: t.group c' := by
    intro c'
    rw [groups c']
    split
    · exact List.prefix_append _ _
    · exact List.prefix_refl _
  have keep : ∀ {n d'}, s.definition? n = some d' → t.definition? n = some d' := by
    intro n d' old
    rw [found n]
    split
    · next same => subst same; rw [undefined] at old; cases old
    · exact old
  have grows : Grows s t :=
    ⟨by rw [definitions]; exact List.prefix_append _ _, grownGroups,
      sameRegistry ▸ List.prefix_refl _, sameRegistry ▸ List.prefix_refl _,
      sameRegistry ▸ List.prefix_refl _⟩
  refine ⟨⟨?_, ?_, ?_, ?_, ?_, keyed, ?_, ?_, ?_, ?_, ?_, ?_⟩, grows, sameResolving,
    sameRegistry, by rw [found name]; simp⟩
  · rw [definitions]
    intro p member
    rcases List.mem_append.mp member with old | new
    · exact sound.placed p old
    · rw [List.mem_singleton.mp new]; exact placed
  · rw [definitions]
    have fresh : name ∉ s.definitions.map (·.1) := by
      intro present
      obtain ⟨⟨pName, pDefinition⟩, member, named⟩ := List.mem_map.mp present
      have old := sound.definition?_eq member
      rw [show pName = name from named, undefined] at old
      cases old
    simpa only [List.map_append, List.map_cons, List.map_nil] using
      Registry.nodup_snoc sound.definitionsNodup fresh
  · rw [definitions, categories]
    intro p member
    rcases List.mem_append.mp member with old | new
    · obtain ⟨c', tracked⟩ := sound.tracked p old
      exact ⟨c', List.mem_append_left _ tracked⟩
    · rw [List.mem_singleton.mp new]; exact ⟨c, by simp⟩
  · rw [categories]
    intro n c' member
    rcases List.mem_append.mp member with old | new
    · obtain ⟨d', defined, fits⟩ := sound.categorized n c' old
      exact ⟨d', keep defined, fits⟩
    · obtain ⟨rfl, rfl⟩ := Prod.mk.inj (List.mem_singleton.mp new)
      exact ⟨d, by rw [found n]; simp, category⟩
  · intro n c'
    rw [groups c', categories, List.mem_append, ← sound.grouped n c', List.mem_singleton,
      Prod.mk.injEq]
    by_cases same : c' = c
    · subst same; simp [List.mem_append, and_comm]
    · simp [same]
  · -- the adopted name had no category, so it is in no group yet
    intro c'
    rw [groups c']
    split
    · next same =>
      subst same
      exact Registry.nodup_snoc (sound.groupsNodup _) fun present =>
        sound.untracked undefined c' ((sound.grouped name c').mp present)
    · exact sound.groupsNodup c'
  · rw [sameRegistry]
    intro e member
    obtain ⟨defined, fits⟩ := sound.entriesDefined e member
    exact ⟨keep defined, fits⟩
  · rw [sameRegistry, sameResolving]; exact sound.fresh
  · rw [sameResolving]; exact sound.resolvingNodup
  · rw [sameRegistry]
    intro x member
    obtain ⟨custom, passthrough, inheritance⟩ := sound.kinds x member
    exact ⟨fun kindIs => (grownGroups _).subset (custom kindIs),
      fun p kindIs => (grownGroups _).subset (passthrough p kindIs),
      fun ps kindIs => (grownGroups _).subset (inheritance ps kindIs)⟩
  · rw [sameRegistry]; exact sound.registry

/-! ## Steps that only read -/

theorem get_bind_ok {α : Type} {f : Compiler → Compiling α} {a : α}
    (run : (get >>= f).run s = .ok (a, t)) : (f s).run s = .ok (a, t) := run

/-- Looking up a registered name finds its entry's handle and caster. -/
theorem registered_ok {hk : TypeHandle × Caster} (run : (registered name).run s = .ok (hk, t)) :
    t = s ∧ ∃ e, s.registry.entry name = .ok e ∧ hk = (e.handle, e.caster) := by
  unfold registered at run
  have run := get_bind_ok run
  obtain ⟨e, middle, lookup, rest⟩ := Compiling.bind_ok run
  obtain ⟨found, rfl⟩ := Compiling.liftExcept_ok lookup
  obtain ⟨rfl, rfl⟩ := Compiling.pure_ok rest
  exact ⟨rfl, e, found, rfl⟩

/-- What a registered name's entry holds is fine in a sound registry. -/
theorem registered_fine {hk : TypeHandle × Caster} (run : (registered name).run s = .ok (hk, t))
    (sound : Sound D s) : t = s ∧ Fine s.registry hk.1 hk.2 := by
  obtain ⟨rfl, e, found, rfl⟩ := registered_ok run
  have member := (Registry.entry_ok found).1
  exact ⟨rfl, sound.registry.entriesCovered e member, sound.registry.entriesAgree e member⟩

/-- A native definition gives a native handle and the caster of the same kind. -/
theorem native_ok {context : String} {hk : TypeHandle × Caster}
    (run : (native d context).run s = .ok (hk, t)) :
    t = s ∧ ∃ kind, hk = (.native kind, .native kind) := by
  unfold native at run
  have run := get_bind_ok run
  split at run
  · cases run
  · obtain ⟨rfl, rfl⟩ := Compiling.pure_ok run
    exact ⟨rfl, _, rfl⟩

theorem definitionOf_ok {j : Json} {context : String} (run : (definitionOf j context).run s = .ok (d, t)) :
    t = s ∧ Definition.ofJson j = .ok d := by
  unfold definitionOf at run
  split at run
  · next read =>
    obtain ⟨rfl, rfl⟩ := Compiling.pure_ok run
    exact ⟨rfl, read⟩
  · cases run

theorem categoryOf_ok {c : Category} {context : String}
    (run : (categoryOf d context).run s = .ok (c, t)) : t = s ∧ d.shapeCategory = .ok c := by
  unfold categoryOf at run
  split at run
  · next fits =>
    obtain ⟨rfl, rfl⟩ := Compiling.pure_ok run
    exact ⟨rfl, fits⟩
  · cases run

/-! ## Enumerations -/

theorem EnumType.mem_setMember {ms : List EnumMember} {m x : EnumMember}
    (member : x ∈ EnumType.setMember ms m) : x = m ∨ x ∈ ms := by
  unfold EnumType.setMember at member
  split at member
  · obtain ⟨y, old, rfl⟩ := List.mem_map.mp member
    by_cases same : y.name = m.name
    · simp [same]
    · simp [same, old]
  · simpa [or_comm] using member

/-- Every member read for an enumeration belongs to it. -/
theorem EnumType.readMembers_belong {enumName : String} :
    ∀ {values : List Json} {scratch : SpecialNames} {acc ms : List EnumMember},
      EnumType.readMembers enumName scratch acc values = .ok ms →
      (∀ m ∈ acc, m.enumName = enumName) → ∀ m ∈ ms, m.enumName = enumName
  | [], _, _, _, read, belongs => by
    simp only [EnumType.readMembers, Except.ok.injEq] at read
    exact read ▸ belongs
  | raw :: rest, scratch, acc, ms, read, belongs => by
    -- every member is set with the enumeration's name, then the rest is read
    have step : ∀ (m : EnumMember) (scratch' : SpecialNames), m.enumName = enumName →
        EnumType.readMembers enumName scratch' (EnumType.setMember acc m) rest = .ok ms →
        ∀ x ∈ ms, x.enumName = enumName := by
      intro m scratch' named rest' x member
      refine EnumType.readMembers_belong rest' (fun y inAcc => ?_) x member
      rcases EnumType.mem_setMember inAcc with rfl | old
      · exact named
      · exact belongs y old
    cases raw with
    | null =>
      simp only [EnumType.readMembers] at read
      exact EnumType.readMembers_belong read belongs
    | obj entry =>
      simp only [EnumType.readMembers] at read
      split at read
      all_goals
        obtain ⟨_, -, rest'⟩ := Compiling.except_bind_ok read
        exact step _ _ rfl rest'
    | _ =>
      simp only [EnumType.readMembers] at read
      obtain ⟨_, -, rest'⟩ := Compiling.except_bind_ok read
      exact step _ _ rfl rest'

/-- Setting a member keeps the names of the members distinct: it replaces the member of its
name or comes last under a new one. -/
theorem EnumType.setMember_distinct {ms : List EnumMember} {m : EnumMember}
    (distinct : (ms.map (·.name)).Nodup) : ((EnumType.setMember ms m).map (·.name)).Nodup := by
  unfold EnumType.setMember
  split
  · next present =>
    have names : ((ms.map fun q => if q.name == m.name then m else q).map (·.name)) =
        ms.map (·.name) := by
      rw [List.map_map]
      refine List.map_congr_left fun q _ => ?_
      by_cases same : q.name = m.name <;> simp [same]
    rw [names]
    exact distinct
  · next absent =>
    have fresh : m.name ∉ ms.map (·.name) := fun named => by
      obtain ⟨q, member, same⟩ := List.mem_map.mp named
      exact absent (List.any_eq_true.mpr ⟨q, member, by simp [same]⟩)
    simpa only [List.map_append, List.map_cons, List.map_nil] using
      Registry.nodup_snoc distinct fresh

/-- The members read for an enumeration have distinct names. -/
theorem EnumType.readMembers_distinct {enumName : String} :
    ∀ {values : List Json} {scratch : SpecialNames} {acc ms : List EnumMember},
      EnumType.readMembers enumName scratch acc values = .ok ms →
      (acc.map (·.name)).Nodup → (ms.map (·.name)).Nodup
  | [], _, _, _, read, distinct => by
    simp only [EnumType.readMembers, Except.ok.injEq] at read
    exact read ▸ distinct
  | raw :: rest, scratch, acc, ms, read, distinct => by
    cases raw with
    | null =>
      simp only [EnumType.readMembers] at read
      exact EnumType.readMembers_distinct read distinct
    | obj entry =>
      simp only [EnumType.readMembers] at read
      split at read
      all_goals
        obtain ⟨_, -, rest'⟩ := Compiling.except_bind_ok read
        exact EnumType.readMembers_distinct rest' (EnumType.setMember_distinct distinct)
    | _ =>
      simp only [EnumType.readMembers] at read
      obtain ⟨_, -, rest'⟩ := Compiling.except_bind_ok read
      exact EnumType.readMembers_distinct rest' (EnumType.setMember_distinct distinct)

/-- The enumeration of a definition has the name it is read under, and its members belong
to it and have distinct names. -/
theorem EnumType.ofDefinition_ok {et : EnumType} (read : EnumType.ofDefinition name d = .ok et) :
    et.name = name ∧ (∀ m ∈ et.members, m.enumName = et.name) ∧
      (et.members.map (·.name)).Nodup := by
  unfold EnumType.ofDefinition at read
  split at read
  · cases read
  · obtain ⟨members, readAll, built⟩ := Compiling.except_bind_ok read
    cases built
    exact ⟨rfl, EnumType.readMembers_belong readAll (by simp),
      EnumType.readMembers_distinct readAll (by simp)⟩

/-! ## Registering a name -/

/-- The registry after the name being registered gets its entry: a sound registry whose
entries gain that one entry and whose composite types are in the groups of their kinds keeps
the compilation sound once the name is no longer being registered. -/
theorem Sound.withEntry {r : Registry} {e : Entry} {rest : List String} (sound : Sound D s)
    (resolving : s.resolving = e.name :: rest) (defined : s.definition? e.name = some e.definition)
    (category : e.definition.shapeCategory = .ok e.category) (registrySound : r.Sound)
    (entries : r.entries = s.registry.entries ++ [e])
    (kinds : ∀ x ∈ r.composites,
      (x.kind = .custom → x.name ∈ s.group .custom) ∧
      (∀ p, x.kind = .passthrough p → x.name ∈ s.group .passthrough) ∧
      (∀ ps, x.kind = .multiInheritance ps → x.name ∈ s.group .multiInheritance)) :
    Sound D { s with registry := r, resolving := rest } := by
  have nodup : (e.name :: rest).Nodup := resolving ▸ sound.resolvingNodup
  refine ⟨sound.placed, sound.definitionsNodup, sound.tracked, sound.categorized, sound.grouped,
    sound.groupsKeyed, sound.groupsNodup, ?_, ?_, (List.nodup_cons.mp nodup).2, kinds,
    registrySound⟩
  · simp only [entries]
    intro x member
    rcases List.mem_append.mp member with old | new
    · exact sound.entriesDefined x old
    · rw [List.mem_singleton.mp new]; exact ⟨defined, category⟩
  · intro n later
    have wasFresh := sound.fresh n (by rw [resolving]; exact List.mem_cons_of_mem _ later)
    have other : n ≠ e.name := fun same => (List.nodup_cons.mp nodup).1 (same ▸ later)
    simp only [Registry.contains, entries, List.any_append, List.any_cons, List.any_nil,
      Bool.or_false, Bool.or_eq_false_iff, beq_eq_false_iff_ne]
    exact ⟨wasFresh, Ne.symm other⟩

/-- Registering a name under its own entry, with a handle that is not a composite type's,
keeps the compilation sound once the name is no longer being registered. -/
theorem register_keeps {h : TypeHandle} {k : Caster} {c : Category} {rest : List String}
    (run : (updateRegistry (·.register ⟨name, h, k, d, c⟩)).run s = .ok ((), t))
    (sound : Sound D s) (resolving : s.resolving = name :: rest)
    (defined : s.definition? name = some d) (category : d.shapeCategory = .ok c)
    (fine : Fine s.registry h k) (notComposite : ∀ m, h ≠ .composite m) :
    Sound D { t with resolving := rest } ∧ Grows s t ∧ t.resolving = s.resolving ∧
      t.registry.contains name = true := by
  simp only [updateRegistry, Compiling.run_modify, Except.ok.injEq, Prod.mk.injEq,
    true_and] at run
  subst run
  have fresh : s.registry.contains name = false :=
    sound.fresh name (by rw [resolving]; exact List.mem_cons_self)
  have shape := Registry.register_of_fresh ⟨name, h, k, d, c⟩ fresh
  refine ⟨?_, ⟨List.prefix_refl _, fun _ => List.prefix_refl _, ?_, ?_, ?_⟩, rfl, ?_⟩
  · refine sound.withEntry resolving defined category ?_ (by rw [shape]) ?_
    · exact sound.registry.register fresh fine.1 fine.2 fun m same => absurd same (notComposite m)
    · rw [shape]; exact sound.kinds
  · rw [shape]; exact List.prefix_append _ _
  · exact shape ▸ List.prefix_refl _
  · exact shape ▸ List.prefix_refl _
  · rw [shape]; simp [Registry.contains]

/-- Registering a name as a composite type with no properties yet keeps the compilation
sound once the name is no longer being registered, when its parents are registered, a
passthrough's parent is a composite type, and a type that takes properties from others is in
the group of its kind. -/
theorem registerComposite_keeps {kind : CompositeKind} {c : Category} {rest : List String}
    (run : (registerComposite name d kind c).run s = .ok ((), t))
    (sound : Sound D s) (resolving : s.resolving = name :: rest)
    (defined : s.definition? name = some d) (category : d.shapeCategory = .ok c)
    (parents : ∀ p ∈ (Composite.empty name kind).parents, s.registry.contains p = true)
    (passthrough : ∀ p, kind = .passthrough p → p ∈ s.registry.compositeNames)
    (grouped : (kind = .custom → name ∈ s.group .custom) ∧
      (∀ p, kind = .passthrough p → name ∈ s.group .passthrough) ∧
      (∀ ps, kind = .multiInheritance ps → name ∈ s.group .multiInheritance)) :
    Sound D { t with resolving := rest } ∧ Grows s t ∧ t.resolving = s.resolving ∧
      t.registry.contains name = true := by
  simp only [registerComposite, updateRegistry, Compiling.run_modify, Except.ok.injEq,
    Prod.mk.injEq, true_and] at run
  subst run
  have fresh : s.registry.contains name = false :=
    sound.fresh name (by rw [resolving]; exact List.mem_cons_self)
  have absent := sound.registry.not_composite fresh
  have shape := Registry.insertComposite_register_of_fresh
    { Composite.empty name kind with description := d.description? }
    ⟨name, .composite name, .composite name, d, c⟩ absent fresh
  refine ⟨?_, ⟨List.prefix_refl _, fun _ => List.prefix_refl _, ?_, ?_, ?_⟩, rfl, ?_⟩
  · refine sound.withEntry resolving defined category ?_ (by rw [shape]) ?_
    · exact sound.registry.addComposite fresh rfl rfl rfl parents passthrough
    · rw [shape]
      intro x member
      rcases List.mem_append.mp member with old | new
      · exact sound.kinds x old
      · rw [List.mem_singleton.mp new]; exact grouped
  · rw [shape]; exact List.prefix_append _ _
  · rw [shape]
    simp [Registry.compositeNames]
  · exact shape ▸ List.prefix_refl _
  · rw [shape]; simp [Registry.contains]

/-- Registering a name as an enumeration whose members belong to it and have distinct names
keeps the compilation sound once the name is no longer being registered. -/
theorem registerEnum_keeps {et : EnumType} {c : Category} {rest : List String}
    (run : (updateRegistry fun r => (r.insertEnum et).register
      ⟨name, .enum name, .enum name, d, c⟩).run s = .ok ((), t))
    (sound : Sound D s) (resolving : s.resolving = name :: rest)
    (defined : s.definition? name = some d) (category : d.shapeCategory = .ok c)
    (named : et.name = name) (members : ∀ m ∈ et.members, m.enumName = et.name)
    (distinct : (et.members.map (·.name)).Nodup) :
    Sound D { t with resolving := rest } ∧ Grows s t ∧ t.resolving = s.resolving ∧
      t.registry.contains name = true := by
  simp only [updateRegistry, Compiling.run_modify, Except.ok.injEq, Prod.mk.injEq,
    true_and] at run
  subst run named
  have fresh : s.registry.contains et.name = false :=
    sound.fresh et.name (by rw [resolving]; exact List.mem_cons_self)
  have absent : et.name ∉ s.registry.enumNames := fun present => by
    rw [sound.registry.enumsRegistered _ present] at fresh; cases fresh
  have shape := Registry.insertEnum_register_of_fresh et
    ⟨et.name, .enum et.name, .enum et.name, d, c⟩ absent fresh
  refine ⟨?_, ⟨List.prefix_refl _, fun _ => List.prefix_refl _, ?_, ?_, ?_⟩, rfl, ?_⟩
  · refine sound.withEntry resolving defined category ?_ (by rw [shape]) ?_
    · exact sound.registry.addEnum fresh members distinct
    · rw [shape]; exact sound.kinds
  · rw [shape]; exact List.prefix_append _ _
  · exact shape ▸ List.prefix_refl _
  · rw [shape]
    simp [Registry.enumNames]
  · rw [shape]; simp [Registry.contains]

/-- Replacing a composite type by a completed one of the same name and kind keeps the
compilation sound when the new one mentions only types the registry holds and agrees with
itself. -/
theorem replaceComposite_keeps {c c' : Composite}
    (run : (updateRegistry (·.insertComposite c')).run s = .ok ((), t)) (sound : Sound D s)
    (present : c ∈ s.registry.composites) (sameName : c'.name = c.name)
    (sameKind : c'.kind = c.kind) (covered : s.registry.Covers c'.mentions)
    (agrees : c'.Agrees) : Sound D t ∧ Grows s t ∧ t.resolving = s.resolving := by
  simp only [updateRegistry, Compiling.run_modify, Except.ok.injEq, Prod.mk.injEq,
    true_and] at run
  subst run
  have presentName : c'.name ∈ s.registry.compositeNames :=
    sameName ▸ List.mem_map_of_mem present
  have shape := Registry.insertComposite_of_present presentName
  have names : (s.registry.insertComposite c').compositeNames = s.registry.compositeNames := by
    rw [shape]; exact Registry.names_replaced _
  refine ⟨⟨sound.placed, sound.definitionsNodup, sound.tracked, sound.categorized, sound.grouped,
    sound.groupsKeyed, sound.groupsNodup, ?_, ?_, sound.resolvingNodup, ?_,
    sound.registry.replaceComposite present sameName sameKind covered agrees⟩,
    ⟨List.prefix_refl _, fun _ => List.prefix_refl _, ?_, ?_, ?_⟩, rfl⟩
  · rw [shape]; exact sound.entriesDefined
  · rw [shape]; exact sound.fresh
  · rw [shape]
    intro x member
    rcases Registry.mem_replaced member with rfl | old
    · obtain ⟨custom, passthrough, inheritance⟩ := sound.kinds c present
      exact ⟨fun kindIs => sameName ▸ custom (sameKind ▸ kindIs),
        fun p kindIs => sameName ▸ passthrough p (sameKind ▸ kindIs),
        fun ps kindIs => sameName ▸ inheritance ps (sameKind ▸ kindIs)⟩
    · exact sound.kinds x old
  · exact shape ▸ List.prefix_refl _
  · exact names ▸ List.prefix_refl _
  · exact shape ▸ List.prefix_refl _

end Compiler

end SchemaTypes
