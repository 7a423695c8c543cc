import SchemaTypes.Proofs.Termination
import SchemaTypes.Proofs.Eventually

/-! # Every registration on record

A compilation registers a name by a run of `registerDefinition` over the name's definition and
category, from a state in which the name is being registered and is not registered yet.
`Compiler.Recorded D F name` keeps that run: the state it started from, the state it ended in,
and the fact that the compilation went on from there to `F` (`Compiler.Later`: the state only
grew, enumerations only came last, and every composite type kept its name, kind and
description). A second compilation of the same definitions in another order meets the names in
another order; with the record of each name at hand it can follow the first compilation's run
of that name whenever it has to register the name itself.

Every registration function keeps every entry it adds on record, adds composite types only as
bare stubs and adds enumerations only at the end (`Compiler.Records`). The proof is the
induction on the bound of the other specifications of the registration functions, reading
`Specs` for the soundness of the states in between.
-/

namespace SchemaTypes

namespace Composite

/-- A composite type as registration adds it: its name, kind and description, and no
properties, catch-all or special names yet. -/
def stub (c : Composite) : Composite :=
  { Composite.empty c.name c.kind with description := c.description }

@[simp] theorem stub_name (c : Composite) : c.stub.name = c.name := rfl

@[simp] theorem stub_kind (c : Composite) : c.stub.kind = c.kind := rfl

@[simp] theorem stub_stub (c : Composite) : c.stub.stub = c.stub := rfl

end Composite

/-- Every composite type is registered under its name with the handle of that type. -/
def Registry.Handled (r : Registry) : Prop :=
  ∀ c ∈ r.composites, ∃ e ∈ r.entries, e.name = c.name ∧ e.handle = .composite c.name

namespace Compiler

variable {D : Document}

/-- `t` is a later state of the compilation that `s` is a state of: the state grew, every
enumeration stayed and new ones came last, every composite type has one with the same stub,
and the patterns are those of the start. -/
structure Later (s t : Compiler) : Prop where
  grows : Grows s t
  enums : s.registry.enums <+: t.registry.enums
  composites : ∀ c ∈ s.registry.composites, ∃ c' ∈ t.registry.composites, c'.stub = c.stub
  patterns : t.patterns = s.patterns

theorem Later.refl (s : Compiler) : Later s s :=
  ⟨.refl s, List.prefix_refl _, fun c member => ⟨c, member, rfl⟩, rfl⟩

/-- Changing the names being registered changes nothing a later compilation reads. -/
theorem Later.resolving (s : Compiler) (names : List String) :
    Later s { s with resolving := names } :=
  ⟨⟨List.prefix_refl _, fun _ => List.prefix_refl _, List.prefix_refl _, List.prefix_refl _,
    List.prefix_refl _⟩, List.prefix_refl _, fun c member => ⟨c, member, rfl⟩, rfl⟩

theorem Later.trans {a b c : Compiler} (first : Later a b) (second : Later b c) : Later a c where
  grows := first.grows.trans second.grows
  enums := first.enums.trans second.enums
  composites x member := by
    obtain ⟨y, present, same⟩ := first.composites x member
    obtain ⟨z, present', same'⟩ := second.composites y present
    exact ⟨z, present', same'.trans same⟩
  patterns := second.patterns.trans first.patterns

/-- The registration of `name` that a compilation made on its way to `F`: a run of
`registerDefinition` over the name's definition and category, from a sound state in which the
name was being registered and not registered yet. -/
def Recorded (D : Document) (F : Compiler) (name : String) : Prop :=
  ∃ (n : Nat) (s t : Compiler) (d : Definition) (c : Category) (rest : List String),
    Sound D s ∧ s.resolving = name :: rest ∧ s.registry.contains name = false ∧
    s.definition? name = some d ∧ (name, c) ∈ s.categories ∧
    (registerDefinition n name d c).run s = .ok ((), t) ∧ Later t F

theorem Recorded.later {F F' : Compiler} {name : String} (recorded : Recorded D F name)
    (later : Later F F') : Recorded D F' name := by
  obtain ⟨n, s, t, d, c, rest, sound, resolving, fresh, defined, categorized, run, reached⟩ :=
    recorded
  exact ⟨n, s, t, d, c, rest, sound, resolving, fresh, defined, categorized, run,
    reached.trans later⟩

/-- A registration step as a later compilation can follow it: it grows the state and leaves
the names being registered and the patterns as they were, adds composite types only as stubs
and enumerations only at the end under new names, and every name it registers that is not
being registered is on record. -/
structure Records (D : Document) (s t : Compiler) : Prop where
  grown : Extends s t
  stubs : ∃ added, t.registry.composites = s.registry.composites ++ added ∧
    ∀ c ∈ added, c.stub = c
  enums : s.registry.enums <+: t.registry.enums
  enumsNodup : s.registry.enumNames.Nodup → t.registry.enumNames.Nodup
  handled : s.registry.Handled → t.registry.Handled
  patterns : t.patterns = s.patterns
  recorded : ∀ name, t.registry.contains name = true → s.registry.contains name = false →
    name ∉ t.resolving → Recorded D t name

theorem Records.later {s t : Compiler} (records : Records D s t) : Later s t := by
  obtain ⟨added, grown, -⟩ := records.stubs
  exact ⟨records.grown.1, records.enums,
    fun c member => ⟨c, by rw [grown]; exact List.mem_append_left _ member, rfl⟩,
    records.patterns⟩

theorem Records.refl (s : Compiler) : Records D s s :=
  ⟨.refl s, ⟨[], by simp, by simp⟩, List.prefix_refl _, id, id, rfl,
    fun _ registered fresh _ => by rw [registered] at fresh; cases fresh⟩

theorem Records.trans {a b c : Compiler} (first : Records D a b) (second : Records D b c) :
    Records D a c where
  grown := first.grown.trans second.grown
  stubs := by
    obtain ⟨added, grown, stubs⟩ := first.stubs
    obtain ⟨added', grown', stubs'⟩ := second.stubs
    refine ⟨added ++ added', by rw [grown', grown, List.append_assoc], fun x member => ?_⟩
    rcases List.mem_append.mp member with old | new
    · exact stubs x old
    · exact stubs' x new
  enums := first.enums.trans second.enums
  enumsNodup := second.enumsNodup ∘ first.enumsNodup
  handled := second.handled ∘ first.handled
  patterns := second.patterns.trans first.patterns
  recorded name registered fresh outside := by
    -- a name registered by the first step is on record at its end, and so at the end
    cases middle : b.registry.contains name with
    | true =>
      have outside' : name ∉ b.resolving := by rw [← second.grown.2]; exact outside
      exact (first.recorded name middle fresh outside').later second.later
    | false => exact second.recorded name registered middle outside

/-! ## The steps that change the registry -/

theorem adopt_patterns {name : String} {d : Definition} {c : Category} {s t : Compiler}
    (run : (adopt name d c).run s = .ok ((), t)) : t.patterns = s.patterns := by
  unfold adopt at run
  obtain ⟨⟨⟩, middle, first, tracking⟩ := Compiling.bind_ok run
  simp only [track, Compiling.run_modify, Except.ok.injEq, Prod.mk.injEq, true_and] at first tracking
  subst first tracking
  rfl

/-- Adopting a definition registers nothing. -/
theorem adopt_records {name : String} {d : Definition} {c : Category} {s t : Compiler}
    (run : (adopt name d c).run s = .ok ((), t)) (sound : Sound D s)
    (undefined : s.definition? name = none) (placed : Placed D name d)
    (category : d.shapeCategory = .ok c) : Records D s t := by
  obtain ⟨-, grows, resolving, registry, -⟩ := adopt_keeps run sound undefined placed category
  refine ⟨⟨grows, resolving⟩, ⟨[], by rw [registry, List.append_nil], by simp⟩,
    by rw [registry], by rw [registry]; exact id, by rw [registry]; exact id, adopt_patterns run,
    fun x registered fresh _ => ?_⟩
  rw [registry, fresh] at registered
  cases registered

/-- Adding the entry of the name being registered, perhaps with a stub composite type or an
enumeration of a new name, registers no other name. -/
theorem records_of_registry {s : Compiler} {r : Registry} {e : Entry} {added : List Composite}
    (entries : r.entries = s.registry.entries ++ [e])
    (composites : r.composites = s.registry.composites ++ added)
    (enums : s.registry.enums <+: r.enums)
    (enumsNodup : s.registry.enumNames.Nodup → r.enumNames.Nodup) (marked : e.name ∈ s.resolving)
    (stubs : ∀ c ∈ added, c.stub = c ∧ c.name = e.name ∧ e.handle = .composite e.name) :
    Records D s { s with registry := r } := by
  refine ⟨⟨⟨List.prefix_refl _, fun _ => List.prefix_refl _, by rw [entries]; simp,
    by simp [Registry.compositeNames, composites], enums.map _⟩, rfl⟩,
    ⟨added, composites, fun c member => (stubs c member).1⟩, enums, enumsNodup,
    fun handled c member => ?_, rfl, fun x registered fresh outside => ?_⟩
  · -- a composite type added comes with the entry of its name
    rw [composites] at member
    rw [entries]
    rcases List.mem_append.mp member with old | new
    · obtain ⟨e', present, named, handle⟩ := handled c old
      exact ⟨e', List.mem_append_left _ present, named, handle⟩
    · obtain ⟨-, named, handle⟩ := stubs c new
      exact ⟨e, by simp, named.symm, named ▸ handle⟩
  -- the only name newly registered is the one being registered
  have same : x = e.name := by
    simp only [Registry.contains, entries, List.any_append, List.any_cons, List.any_nil,
      Bool.or_false, Bool.or_eq_true, beq_iff_eq] at registered
    rcases registered with old | new
    · rw [show s.registry.contains x = true from old] at fresh
      cases fresh
    · exact new.symm
  exact absurd (same ▸ marked) outside

theorem records_register {e : Entry} {s t : Compiler}
    (run : (updateRegistry (·.register e)).run s = .ok ((), t)) (sound : Sound D s)
    (marked : e.name ∈ s.resolving) : Records D s t := by
  simp only [updateRegistry, Compiling.run_modify, Except.ok.injEq, Prod.mk.injEq,
    true_and] at run
  subst run
  rw [Registry.register_of_fresh e (sound.fresh e.name marked)]
  exact records_of_registry rfl (List.append_nil _).symm (List.prefix_refl _) id marked (by simp)

theorem records_registerEnum {et : EnumType} {e : Entry} {s t : Compiler}
    (run : (updateRegistry fun r => (r.insertEnum et).register e).run s = .ok ((), t))
    (sound : Sound D s) (marked : e.name ∈ s.resolving) (named : et.name = e.name) :
    Records D s t := by
  simp only [updateRegistry, Compiling.run_modify, Except.ok.injEq, Prod.mk.injEq,
    true_and] at run
  subst run
  have fresh := sound.fresh e.name marked
  have absent : et.name ∉ s.registry.enumNames := fun present => by
    have registered := sound.registry.enumsRegistered _ present
    rw [named, fresh] at registered
    cases registered
  rw [Registry.insertEnum_register_of_fresh et e absent fresh]
  refine records_of_registry rfl (List.append_nil _).symm (List.prefix_append _ _)
    (fun nodup => ?_) marked (by simp)
  simp only [Registry.enumNames, List.map_append, List.map_cons, List.map_nil] at nodup ⊢
  exact List.nodup_append.mpr ⟨nodup, List.nodup_singleton _,
    fun x old y new => by rw [List.mem_singleton.mp new]; rintro rfl; exact absent old⟩

theorem records_registerComposite {name : String} {d : Definition} {kind : CompositeKind}
    {c : Category} {s t : Compiler} (run : (registerComposite name d kind c).run s = .ok ((), t))
    (sound : Sound D s) (marked : name ∈ s.resolving) : Records D s t := by
  simp only [registerComposite, updateRegistry, Compiling.run_modify, Except.ok.injEq,
    Prod.mk.injEq, true_and] at run
  subst run
  have fresh := sound.fresh name marked
  rw [Registry.insertComposite_register_of_fresh _ _ (sound.registry.not_composite fresh) fresh]
  exact records_of_registry (e := ⟨name, _, _, d, c⟩) rfl rfl (List.prefix_refl _) id marked
    (fun x member => by rw [List.mem_singleton.mp member]; exact ⟨rfl, rfl, rfl⟩)

/-- The specification of every registration function at one bound: it is a step on record.
The hypotheses are those of `Specs`. -/
structure Recording (D : Document) (n : Nat) : Prop where
  registerNamed : ∀ {name : String} {s t : Compiler},
    (registerNamed n name).run s = .ok ((), t) → Sound D s → Records D s t
  registerDefinition : ∀ {name : String} {d : Definition} {c : Category} {rest : List String}
    {s t : Compiler}, (registerDefinition n name d c).run s = .ok ((), t) → Sound D s →
    s.resolving = name :: rest → s.definition? name = some d → (name, c) ∈ s.categories →
    Records D s t
  inheritanceParents : ∀ {name : String} {d : Definition} {s : Compiler} {parents : List String}
    {t : Compiler}, (inheritanceParents n name d).run s = .ok (parents, t) → Sound D s →
    Placed D name d → d.shapeCategory = .ok .multiInheritance → Records D s t
  resolve : ∀ {d : Definition} {hint : String} {s : Compiler} {hk : TypeHandle × Caster}
    {t : Compiler}, (resolve n d hint).run s = .ok (hk, t) → Sound D s → Placed D hint d →
    Records D s t
  reference : ∀ {d : Definition} {context : String} {s : Compiler} {hk : TypeHandle × Caster}
    {t : Compiler}, (reference n d context).run s = .ok (hk, t) → Sound D s → Records D s t
  anonymous : ∀ {name : String} {d : Definition} {c : Category} {s : Compiler}
    {hk : TypeHandle × Caster} {t : Compiler}, (anonymous n name d c).run s = .ok (hk, t) →
    Sound D s → Placed D name d → d.shapeCategory = .ok c → Records D s t
  listOf : ∀ {d : Definition} {name : String} {s : Compiler} {hk : TypeHandle × Caster}
    {t : Compiler}, (listOf n d name).run s = .ok (hk, t) → Sound D s → Placed D name d →
    d.shapeCategory = .ok .list → Records D s t
  unionOf : ∀ {d : Definition} {name : String} {s : Compiler} {hk : TypeHandle × Caster}
    {t : Compiler}, (unionOf n d name).run s = .ok (hk, t) → Sound D s → Placed D name d →
    d.shapeCategory = .ok .union → Records D s t
  polymorphOf : ∀ {d : Definition} {name : String} {s : Compiler} {hk : TypeHandle × Caster}
    {t : Compiler}, (polymorphOf n d name).run s = .ok (hk, t) → Sound D s → Placed D name d →
    d.shapeCategory = .ok .polymorph → Records D s t
  conditions : ∀ {name : String} {parts : List Json} {d : Definition} {s : Compiler}
    {branches : List ((List (String × Value) × String × Caster) × TypeHandle)} {t : Compiler},
    (conditions n name parts).run s = .ok (branches, t) → Sound D s → Placed D name d →
    d.shapeCategory = .ok .polymorph → d.allOf? = some parts → Records D s t
  keyed : ∀ {name : String} {d : Definition} {s : Compiler} {hk : TypeHandle × Caster}
    {t : Compiler}, (keyed n name d).run s = .ok (hk, t) → Sound D s → Records D s t

theorem recording_zero : Recording D 0 where
  registerNamed run := by rw [registerNamed] at run; exact (Compiling.throw_ok run).elim
  registerDefinition run := by rw [registerDefinition] at run; exact (Compiling.throw_ok run).elim
  inheritanceParents run := by rw [inheritanceParents] at run; exact (Compiling.throw_ok run).elim
  resolve run := by rw [resolve] at run; exact (Compiling.throw_ok run).elim
  reference run := by rw [reference] at run; exact (Compiling.throw_ok run).elim
  anonymous run := by rw [anonymous] at run; exact (Compiling.throw_ok run).elim
  listOf run := by rw [listOf] at run; exact (Compiling.throw_ok run).elim
  unionOf run := by rw [unionOf] at run; exact (Compiling.throw_ok run).elim
  polymorphOf run := by rw [polymorphOf] at run; exact (Compiling.throw_ok run).elim
  conditions run := by rw [conditions] at run; exact (Compiling.throw_ok run).elim
  keyed run := by rw [keyed] at run; exact (Compiling.throw_ok run).elim

/-- A step that only reads the state is on record. -/
theorem Records.of_eq {s t : Compiler} (same : t = s) : Records D s t := by
  subst same
  exact .refl _

section Succ

variable {n : Nat} (ih : Recording D n)
include ih

theorem registerNamed_records {name : String} {s t : Compiler}
    (run : (registerNamed (n + 1) name).run s = .ok ((), t)) (sound : Sound D s) :
    Records D s t := by
  rw [registerNamed] at run
  have run := get_bind_ok run
  dsimp only at run
  by_cases registered : s.registry.contains name = true
  · simp only [registered, if_true] at run
    obtain ⟨-, rfl⟩ := Compiling.pure_ok run
    exact .refl _
  simp only [registered, if_false, Bool.false_eq_true] at run
  by_cases circular : s.resolving.contains name = true
  · simp only [circular, if_true] at run
    obtain ⟨_, _, thrown, -⟩ := Compiling.bind_ok run
    exact (Compiling.throw_ok thrown).elim
  simp only [circular, if_false, Bool.false_eq_true] at run
  have outside : name ∉ s.resolving := by simpa using circular
  have fresh : s.registry.contains name = false := by simpa using registered
  cases defined : s.definition? name with
  | none =>
    simp only [defined] at run
    exact (Compiling.throw_ok run).elim
  | some d =>
    simp only [defined] at run
    obtain ⟨c, found, member⟩ := sound.category_found defined
    simp only [found, pure_bind] at run
    obtain ⟨⟨⟩, pushed, push, run⟩ := Compiling.bind_ok run
    obtain ⟨⟨⟩, registeredState, registration, pop⟩ := Compiling.bind_ok run
    simp only [Compiling.run_modify, Except.ok.injEq, Prod.mk.injEq, true_and] at push pop
    subst push pop
    have inner := ih.registerDefinition registration (sound.push fresh outside) rfl defined member
    have popped := Later.resolving registeredState (registeredState.resolving.drop 1)
    have restored : registeredState.resolving.drop 1 = s.resolving := by
      rw [inner.grown.2]; rfl
    have grows := inner.grown.1
    refine ⟨⟨⟨grows.definitions, grows.groups, grows.entries, grows.compositeNames,
      grows.enumNames⟩, restored⟩, inner.stubs, inner.enums, inner.enumsNodup, inner.handled,
      inner.patterns,
      fun x contained old off => ?_⟩
    by_cases same : x = name
    · subst same
      exact ⟨n, _, registeredState, d, c, s.resolving, sound.push fresh outside, rfl, fresh,
        defined, member, registration, popped⟩
    · have off' : x ∉ registeredState.resolving := by
        rw [inner.grown.2]
        exact fun onStack => (List.mem_cons.mp onStack).elim same (restored ▸ off)
      exact (inner.recorded x contained old off').later popped

theorem registerDefinition_records {name : String} {d : Definition} {c : Category}
    {rest : List String} {s t : Compiler}
    (run : (registerDefinition (n + 1) name d c).run s = .ok ((), t)) (sound : Sound D s)
    (resolving : s.resolving = name :: rest) (defined : s.definition? name = some d)
    (categorized : (name, c) ∈ s.categories) : Records D s t := by
  obtain ⟨d', defined', category⟩ := sound.categorized name c categorized
  rw [defined] at defined'
  cases defined'
  have placed := sound.placed_of_definition? defined
  have marked : name ∈ s.resolving := by rw [resolving]; exact List.mem_cons_self
  cases c with
  | native =>
    rw [registerDefinition] at run
    obtain ⟨hk, middle, computed, registering⟩ := Compiling.bind_ok run
    obtain ⟨rfl, kind, rfl⟩ := native_ok computed
    exact records_register registering sound marked
  | enumeration =>
    rw [registerDefinition] at run
    obtain ⟨et, middle, lifted, registering⟩ := Compiling.bind_ok run
    obtain ⟨read, rfl⟩ := Compiling.liftExcept_ok lifted
    exact records_registerEnum registering sound marked (EnumType.ofDefinition_ok read).1
  | custom =>
    rw [registerDefinition] at run
    exact records_registerComposite run sound marked
  | passthrough =>
    rw [registerDefinition] at run
    cases target? : d.referenceName? with
    | none =>
      simp only [target?] at run
      exact (Compiling.throw_ok run).elim
    | some target =>
      simp only [target?] at run
      obtain ⟨⟨⟩, middle, registering, looking⟩ := Compiling.bind_ok run
      have first := ih.registerNamed registering sound
      have middleSound := ((specs n).registerNamed registering sound).1.1
      have marked' : name ∈ middle.resolving := by rw [first.grown.2]; exact marked
      obtain ⟨e, last, lookup, chosen⟩ := Compiling.bind_ok (get_bind_ok looking)
      obtain ⟨-, rfl⟩ := Compiling.liftExcept_ok lookup
      split at chosen
      · exact first.trans (records_registerComposite chosen middleSound marked')
      · exact first.trans (records_register chosen middleSound marked')
  | multiInheritance =>
    rw [registerDefinition] at run
    obtain ⟨parents, middle, inheriting, run⟩ := Compiling.bind_ok run
    have first := ih.inheritanceParents inheriting sound placed category
    have middleSound := ((specs n).inheritanceParents inheriting sound placed category).1.1
    have marked' : name ∈ middle.resolving := by rw [first.grown.2]; exact marked
    exact first.trans (records_registerComposite run middleSound marked')
  | list =>
    rw [registerDefinition] at run
    obtain ⟨hk, middle, computed, registering⟩ := Compiling.bind_ok run
    have first := ih.listOf computed sound placed category
    have middleSound := ((specs n).listOf computed sound placed category).1.1
    have marked' : name ∈ middle.resolving := by rw [first.grown.2]; exact marked
    exact first.trans (records_register registering middleSound marked')
  | union =>
    rw [registerDefinition] at run
    obtain ⟨hk, middle, computed, registering⟩ := Compiling.bind_ok run
    have first := ih.unionOf computed sound placed category
    have middleSound := ((specs n).unionOf computed sound placed category).1.1
    have marked' : name ∈ middle.resolving := by rw [first.grown.2]; exact marked
    exact first.trans (records_register registering middleSound marked')
  | polymorph =>
    rw [registerDefinition] at run
    obtain ⟨hk, middle, computed, registering⟩ := Compiling.bind_ok run
    have first := ih.polymorphOf computed sound placed category
    have middleSound := ((specs n).polymorphOf computed sound placed category).1.1
    have marked' : name ∈ middle.resolving := by rw [first.grown.2]; exact marked
    exact first.trans (records_register registering middleSound marked')

theorem reference_records {d : Definition} {context : String} {s : Compiler}
    {hk : TypeHandle × Caster} {t : Compiler}
    (run : (reference (n + 1) d context).run s = .ok (hk, t)) (sound : Sound D s) :
    Records D s t := by
  rw [reference] at run
  cases target? : d.referenceName? with
  | none =>
    simp only [target?] at run
    exact (Compiling.throw_ok run).elim
  | some target =>
    simp only [target?] at run
    obtain ⟨⟨⟩, middle, registering, looking⟩ := Compiling.bind_ok run
    obtain ⟨rfl, -⟩ := registered_ok looking
    exact ih.registerNamed registering sound

theorem anonymous_records {name : String} {d : Definition} {c : Category} {s : Compiler}
    {hk : TypeHandle × Caster} {t : Compiler}
    (run : (anonymous (n + 1) name d c).run s = .ok (hk, t)) (sound : Sound D s)
    (placed : Placed D name d) (category : d.shapeCategory = .ok c) : Records D s t := by
  rw [anonymous] at run
  have run := get_bind_ok run
  dsimp only at run
  by_cases registered : s.registry.contains name = true
  · simp only [registered, Bool.not_true, Bool.false_eq_true, if_false] at run
    obtain ⟨rfl, -⟩ := registered_ok run
    exact .refl _
  simp only [registered, Bool.not_false, if_true] at run
  split at run
  · next undefined =>
    obtain ⟨⟨⟩, adopted, adopting, run⟩ := Compiling.bind_ok run
    obtain ⟨⟨⟩, middle, registering, looking⟩ := Compiling.bind_ok run
    have undefined := Option.isNone_iff_eq_none.mp undefined
    have adoptedSound := (adopt_keeps adopting sound undefined placed category).1
    obtain ⟨rfl, -⟩ := registered_ok looking
    exact (adopt_records adopting sound undefined placed category).trans
      (ih.registerNamed registering adoptedSound)
  · obtain ⟨⟨⟩, middle, registering, looking⟩ := Compiling.bind_ok run
    obtain ⟨rfl, -⟩ := registered_ok looking
    exact ih.registerNamed registering sound

theorem resolve_records {d : Definition} {hint : String} {s : Compiler}
    {hk : TypeHandle × Caster} {t : Compiler}
    (run : (resolve (n + 1) d hint).run s = .ok (hk, t)) (sound : Sound D s)
    (placed : Placed D hint d) : Records D s t := by
  rw [resolve] at run
  by_cases unconstrained : d.isUnconstrained = true
  · simp only [unconstrained, if_true] at run
    obtain ⟨-, rfl⟩ := Compiling.pure_ok run
    exact .refl _
  simp only [unconstrained, if_false, Bool.false_eq_true] at run
  obtain ⟨c, middle, categorizing, chosen⟩ := Compiling.bind_ok run
  obtain ⟨rfl, category⟩ := categoryOf_ok categorizing
  split at chosen
  · exact ih.reference chosen sound
  · exact .of_eq (native_ok chosen).1
  · exact ih.listOf chosen sound placed category
  · exact ih.unionOf chosen sound placed category
  · exact ih.polymorphOf chosen sound placed category
  · exact ih.anonymous chosen sound placed category

theorem listOf_records {d : Definition} {name : String} {s : Compiler}
    {hk : TypeHandle × Caster} {t : Compiler}
    (run : (listOf (n + 1) d name).run s = .ok (hk, t)) (sound : Sound D s)
    (placed : Placed D name d) (category : d.shapeCategory = .ok .list) : Records D s t := by
  rw [listOf] at run
  split at run
  · obtain ⟨item, middle, first, rest⟩ := Compiling.bind_ok run
    obtain ⟨-, rfl⟩ := Compiling.pure_ok first
    exact .of_eq (Compiling.pure_ok rest).2
  · obtain ⟨item, middle, first, rest⟩ := Compiling.bind_ok run
    obtain ⟨-, rfl⟩ := Compiling.pure_ok first
    exact .of_eq (Compiling.pure_ok rest).2
  · next items notTrue found =>
    dsimp only at run
    obtain ⟨itemDefinition, middle, defining, resolvingItem⟩ := Compiling.bind_ok run
    obtain ⟨rfl, read⟩ := definitionOf_ok defining
    obtain ⟨item, last, resolving, rest⟩ := Compiling.bind_ok resolvingItem
    obtain ⟨-, rfl⟩ := Compiling.pure_ok rest
    exact ih.resolve resolving sound (.item placed category found notTrue read)

theorem unionOf_records {d : Definition} {name : String} {s : Compiler}
    {hk : TypeHandle × Caster} {t : Compiler}
    (run : (unionOf (n + 1) d name).run s = .ok (hk, t)) (sound : Sound D s)
    (placed : Placed D name d) (category : d.shapeCategory = .ok .union) : Records D s t := by
  rw [unionOf] at run
  obtain ⟨members, middle, collecting, choosing⟩ := Compiling.bind_ok run
  obtain ⟨-, records, -⟩ := Compiling.filterMapM_keeps (Sound D) (Records D)
    Records.refl (fun first second => first.trans second)
    (fun (_ : TypeHandle × Caster) (_ : Compiler) => True) (fun _ _ _ _ _ => trivial) (by
      rintro ⟨alternative, ix⟩ member s1 result s2 stepping s1Sound
      dsimp only at stepping
      split at stepping
      · obtain ⟨rfl, rfl⟩ := Compiling.pure_ok stepping
        exact ⟨s1Sound, .refl _, by simp⟩
      · next notNull =>
        obtain ⟨option, s3, defining, resolvingOption⟩ := Compiling.bind_ok stepping
        obtain ⟨rfl, read⟩ := definitionOf_ok defining
        obtain ⟨m, s4, resolving, wrapping⟩ := Compiling.bind_ok resolvingOption
        obtain ⟨rfl, rfl⟩ := Compiling.pure_ok wrapping
        have placedOption := Placed.option placed category member (by simpa using notNull) read
        exact ⟨((specs n).resolve resolving s1Sound placedOption).1.1,
          ih.resolve resolving s1Sound placedOption, by simp⟩)
    s members middle collecting sound
  split at choosing <;>
  · obtain ⟨-, rfl⟩ := Compiling.pure_ok choosing
    exact records

theorem conditions_records {name : String} {parts : List Json} {d : Definition} {s : Compiler}
    {branches : List ((List (String × Value) × String × Caster) × TypeHandle)} {t : Compiler}
    (run : (conditions (n + 1) name parts).run s = .ok (branches, t)) (sound : Sound D s)
    (placed : Placed D name d) (category : d.shapeCategory = .ok .polymorph)
    (parts? : d.allOf? = some parts) : Records D s t := by
  rw [conditions] at run
  obtain ⟨-, records, -⟩ := Compiling.mapM_keeps (Sound D) (Records D)
    Records.refl (fun first second => first.trans second)
    (fun (_ : (List (String × Value) × String × Caster) × TypeHandle) (_ : Compiler) => True)
    (fun _ _ _ _ _ => trivial) (by
      rintro ⟨part, ix⟩ member s1 b s2 stepping s1Sound
      dsimp only at stepping
      split at stepping
      · next fields found =>
        obtain ⟨constants, s3, folding, rest⟩ := Compiling.bind_ok stepping
        -- the constants are read from the condition's schema alone
        have reading := Compiling.Stateless.run_same (Compiling.Stateless.foldlM (by
          rintro acc ⟨field, schema⟩
          dsimp only
          split
          exacts [.pure _, .throw _]) []) folding
        obtain ⟨rfl, -⟩ := reading
        obtain ⟨thenPart, s4, defining, resolvingThen⟩ := Compiling.bind_ok rest
        obtain ⟨rfl, read⟩ := definitionOf_ok defining
        obtain ⟨hk, s5, resolving, wrapping⟩ := Compiling.bind_ok resolvingThen
        obtain ⟨rfl, rfl⟩ := Compiling.pure_ok wrapping
        have placedThen := Placed.branch placed category parts? member read
        exact ⟨((specs n).resolve resolving s1Sound placedThen).1.1,
          ih.resolve resolving s1Sound placedThen, trivial⟩
      · exact (Compiling.throw_ok stepping).elim)
    s branches t run sound
  exact records

theorem polymorphOf_records {d : Definition} {name : String} {s : Compiler}
    {hk : TypeHandle × Caster} {t : Compiler}
    (run : (polymorphOf (n + 1) d name).run s = .ok (hk, t)) (sound : Sound D s)
    (placed : Placed D name d) (category : d.shapeCategory = .ok .polymorph) : Records D s t := by
  rw [polymorphOf] at run
  split at run
  · next parts parts? =>
    obtain ⟨branches, middle, branching, wrapping⟩ := Compiling.bind_ok run
    obtain ⟨-, rfl⟩ := Compiling.pure_ok wrapping
    exact ih.conditions branching sound placed category parts?
  · exact ih.keyed run sound

theorem keyed_records {name : String} {d : Definition} {s : Compiler}
    {hk : TypeHandle × Caster} {t : Compiler}
    (run : (keyed (n + 1) name d).run s = .ok (hk, t)) (sound : Sound D s) : Records D s t := by
  rw [keyed] at run
  obtain ⟨disc?, middle, reading, run⟩ := Compiling.bind_ok run
  obtain ⟨-, rfl⟩ := Compiling.liftExcept_ok reading
  cases disc? with
  | none => exact (Compiling.throw_ok run).elim
  | some disc =>
    dsimp only at run
    obtain ⟨acc, last, folding, wrapping⟩ := Compiling.bind_ok run
    obtain ⟨-, records, -⟩ := Compiling.foldlM_keeps (Sound D) (Records D)
      Records.refl (fun first second => first.trans second)
      (fun (_ : List (String × String × Caster) × List TypeHandle) (_ : Compiler) => True) (by
        rintro ⟨key, target⟩ - ⟨mapping, handles⟩ s1 acc' s2 - stepping s1Sound
        obtain ⟨⟨⟩, s3, registering, looking⟩ := Compiling.bind_ok stepping
        obtain ⟨hk', s4, lookup, wrapping'⟩ := Compiling.bind_ok looking
        obtain ⟨rfl, -⟩ := registered_ok lookup
        obtain ⟨-, rfl⟩ := Compiling.pure_ok wrapping'
        exact ⟨((specs n).registerNamed registering s1Sound).1.1,
          ih.registerNamed registering s1Sound, trivial⟩)
      ([], []) middle acc last trivial folding sound
    obtain ⟨-, rfl⟩ := Compiling.pure_ok wrapping
    exact records

theorem inheritanceParents_records {name : String} {d : Definition} {s : Compiler}
    {parents : List String} {t : Compiler}
    (run : (inheritanceParents (n + 1) name d).run s = .ok (parents, t)) (sound : Sound D s)
    (placed : Placed D name d) (category : d.shapeCategory = .ok .multiInheritance) :
    Records D s t := by
  rw [inheritanceParents] at run
  obtain ⟨-, records, -⟩ := Compiling.mapM_keeps (Sound D) (Records D)
    Records.refl (fun first second => first.trans second)
    (fun (_ : String) (_ : Compiler) => True) (fun _ _ _ _ _ => trivial) (by
      rintro ⟨part, ix⟩ member s1 parent s2 stepping s1Sound
      obtain ⟨partDefinition, s3, defining, categorizing⟩ := Compiling.bind_ok stepping
      obtain ⟨same, read⟩ := definitionOf_ok defining
      subst s3
      obtain ⟨c, s4, classifying, chosen⟩ := Compiling.bind_ok categorizing
      obtain ⟨same, partCategory⟩ := categoryOf_ok classifying
      subst s4
      have stub : ∀ {c : Category}, partDefinition.shapeCategory = .ok c →
          (do
            let _ ← anonymous n (name ++ "_Parent" ++ toString ix) partDefinition c
            pure (name ++ "_Parent" ++ toString ix) : Compiling String).run s1 =
            .ok (parent, s2) →
          Sound D s2 ∧ Records D s1 s2 ∧ True := by
        intro c fits registering
        obtain ⟨hk, s5, adopting, naming⟩ := Compiling.bind_ok registering
        have placedParent := Placed.parent placed category member read
        obtain ⟨-, rfl⟩ := Compiling.pure_ok naming
        exact ⟨((specs n).anonymous adopting s1Sound placedParent fits).1.1,
          ih.anonymous adopting s1Sound placedParent fits, trivial⟩
      split at chosen
      · obtain ⟨⟨h, k⟩, s5, referring, choosing⟩ := Compiling.bind_ok chosen
        have keeps := ((specs n).reference referring s1Sound).1
        have records := ih.reference referring s1Sound
        dsimp only at choosing
        split at choosing
        · obtain ⟨-, rfl⟩ := Compiling.pure_ok choosing
          exact ⟨keeps.1, records, trivial⟩
        · exact (Compiling.throw_ok choosing).elim
      · exact stub (by rw [partCategory]) chosen
      · exact stub (by rw [partCategory]) chosen
      · exact (Compiling.throw_ok chosen).elim)
    s parents t run sound
  exact records

end Succ

/-- Every registration function is a step on record, at every bound. -/
theorem recording : ∀ n, Recording D n
  | 0 => recording_zero
  | n + 1 =>
    have ih := recording n
    { registerNamed := registerNamed_records ih
      registerDefinition := registerDefinition_records ih
      inheritanceParents := inheritanceParents_records ih
      resolve := resolve_records ih
      reference := reference_records ih
      anonymous := anonymous_records ih
      listOf := listOf_records ih
      unionOf := unionOf_records ih
      polymorphOf := polymorphOf_records ih
      conditions := conditions_records ih
      keyed := keyed_records ih }

end Compiler

end SchemaTypes
