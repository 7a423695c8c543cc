import SchemaTypes.Proofs.PropertyTables

/-! # Registration registers what it adopts

Resolving an inline schema that is neither a reference nor a plain type adopts it as a
definition of its own (`anonymous`), and the pass over properties adopts the inline objects it
finds; each adoption is followed at once by the registration of the adopted name. So a
registration step leaves no adopted definition unregistered: `Compiler.Settles s t` says that
every definition `t` holds under a name that `s` does not define is registered in `t`.

`Adoptions D n` states this of every registration function at one bound, and `adoptions`
proves it by the induction of `Specs` and `Frames`, reading the specifications for the
soundness of the states in between. Together with `Keeps`, it is what a loop of
registrations preserves (`Settling`).
-/

namespace SchemaTypes

namespace Registry

variable {r : Registry} {name : String}

/-- Registering an entry keeps every name registered: an entry of the same name is replaced
in place. -/
theorem contains_register {e : Entry} (registered : r.contains name = true) :
    (r.register e).contains name = true := by
  unfold register
  split
  · obtain ⟨x, member, named⟩ := List.any_eq_true.mp registered
    simp only [contains, List.any_map, List.any_eq_true, Function.comp_apply]
    refine ⟨x, member, ?_⟩
    by_cases same : x.name = e.name
    · simpa [same] using named
    · simpa [same] using named
  · exact contains_appended registered

theorem contains_insertComposite {c : Composite} :
    (r.insertComposite c).contains name = r.contains name := by
  simp only [contains, insertComposite_entries]

theorem contains_insertEnum {et : EnumType} : (r.insertEnum et).contains name = r.contains name := by
  unfold insertEnum
  split <;> rfl

end Registry

namespace Compiler

variable {D : Document}

/-- Every definition `t` holds under a name that `s` does not define is registered in `t`. -/
def Settles (s t : Compiler) : Prop :=
  ∀ p ∈ t.definitions, p.1 ∉ s.definitions.map (·.1) → t.registry.contains p.1 = true

theorem Settles.refl (s : Compiler) : Settles s s :=
  fun _ member absent => absurd (List.mem_map_of_mem member) absent

theorem Settles.trans {a b c : Compiler} (first : Settles a b) (second : Settles b c)
    (grows : Grows b c) : Settles a c := by
  intro p member absent
  by_cases old : p.1 ∈ b.definitions.map (·.1)
  · obtain ⟨q, present, named⟩ := List.mem_map.mp old
    rw [← named] at absent ⊢
    exact grows.contains (first q present absent)
  · exact second p member old

/-- A step that only changes the registry, keeping every name registered, settles what the
steps before it settled. -/
theorem Settles.update {s m t : Compiler} {f : Registry → Registry} (settles : Settles s m)
    (run : (updateRegistry f).run m = .ok ((), t))
    (kept : ∀ name, m.registry.contains name = true → (f m.registry).contains name = true) :
    Settles s t := by
  simp only [updateRegistry, Compiling.run_modify, Except.ok.injEq, Prod.mk.injEq,
    true_and] at run
  subst run
  exact fun p member absent => kept p.1 (settles p member absent)

/-- An adoption followed by a step that registers the adopted name settles what that step
settles. -/
theorem Settles.adopted {s a t : Compiler} {name : String} {d : Definition}
    (adopted : a.definitions = s.definitions ++ [(name, d)]) (settles : Settles a t)
    (registered : t.registry.contains name = true) : Settles s t := by
  intro p member absent
  by_cases old : p.1 ∈ a.definitions.map (·.1)
  · rw [adopted, List.map_append, List.mem_append] at old
    rcases old with inOld | new
    · exact absurd inOld absent
    · rw [show p.1 = name by simpa using new]
      exact registered
  · exact settles p member old

/-- A step of a loop of registrations: it grows the state, leaves the names being registered
as they were, and registers every definition it adopts. -/
def Settling (s t : Compiler) : Prop := Extends s t ∧ Settles s t

theorem Settling.refl (s : Compiler) : Settling s s := ⟨.refl s, .refl s⟩

theorem Settling.trans {a b c : Compiler} (first : Settling a b) (second : Settling b c) :
    Settling a c :=
  ⟨first.1.trans second.1, first.2.trans second.2 second.1.1⟩

/-- Adopting a definition under a name without one appends it and changes neither the
registry nor the names being registered. -/
theorem adopt_definitions {name : String} {d : Definition} {c : Category} {s t : Compiler}
    (run : (adopt name d c).run s = .ok ((), t)) (undefined : s.definition? name = none) :
    t.definitions = s.definitions ++ [(name, d)] ∧ t.registry = s.registry ∧
      t.resolving = s.resolving := by
  have absent : s.definitions.any (·.1 == name) = false := by
    unfold definition? at undefined
    rw [Option.map_eq_none_iff, List.find?_eq_none] at undefined
    exact List.any_eq_false.mpr undefined
  unfold adopt at run
  obtain ⟨⟨⟩, middle, first, tracking⟩ := Compiling.bind_ok run
  simp only [Compiling.run_modify, Except.ok.injEq, Prod.mk.injEq, true_and] at first
  simp only [track, Compiling.run_modify, Except.ok.injEq, Prod.mk.injEq, true_and] at tracking
  subst first tracking
  simp [absent]

/-- The specification of every registration function at one bound: it registers what it
adopts. The hypotheses are those of `Specs`. -/
structure Adoptions (D : Document) (n : Nat) : Prop where
  registerNamed : ∀ {name : String} {s t : Compiler},
    (registerNamed n name).run s = .ok ((), t) → Sound D s → Settles s t
  registerDefinition : ∀ {name : String} {d : Definition} {c : Category} {rest : List String}
    {s t : Compiler}, (registerDefinition n name d c).run s = .ok ((), t) → Sound D s →
    s.resolving = name :: rest → s.definition? name = some d → (name, c) ∈ s.categories →
    Settles s t
  inheritanceParents : ∀ {name : String} {d : Definition} {s : Compiler} {parents : List String}
    {t : Compiler}, (inheritanceParents n name d).run s = .ok (parents, t) → Sound D s →
    Placed D name d → d.shapeCategory = .ok .multiInheritance → Settles s t
  resolve : ∀ {d : Definition} {hint : String} {s : Compiler} {hk : TypeHandle × Caster}
    {t : Compiler}, (resolve n d hint).run s = .ok (hk, t) → Sound D s → Placed D hint d →
    Settles s t
  reference : ∀ {d : Definition} {context : String} {s : Compiler} {hk : TypeHandle × Caster}
    {t : Compiler}, (reference n d context).run s = .ok (hk, t) → Sound D s → Settles s t
  anonymous : ∀ {name : String} {d : Definition} {c : Category} {s : Compiler}
    {hk : TypeHandle × Caster} {t : Compiler}, (anonymous n name d c).run s = .ok (hk, t) →
    Sound D s → Placed D name d → d.shapeCategory = .ok c → Settles s t
  listOf : ∀ {d : Definition} {name : String} {s : Compiler} {hk : TypeHandle × Caster}
    {t : Compiler}, (listOf n d name).run s = .ok (hk, t) → Sound D s → Placed D name d →
    d.shapeCategory = .ok .list → Settles s t
  unionOf : ∀ {d : Definition} {name : String} {s : Compiler} {hk : TypeHandle × Caster}
    {t : Compiler}, (unionOf n d name).run s = .ok (hk, t) → Sound D s → Placed D name d →
    d.shapeCategory = .ok .union → Settles s t
  polymorphOf : ∀ {d : Definition} {name : String} {s : Compiler} {hk : TypeHandle × Caster}
    {t : Compiler}, (polymorphOf n d name).run s = .ok (hk, t) → Sound D s → Placed D name d →
    d.shapeCategory = .ok .polymorph → Settles s t
  conditions : ∀ {name : String} {parts : List Json} {d : Definition} {s : Compiler}
    {branches : List ((List (String × Value) × String × Caster) × TypeHandle)} {t : Compiler},
    (conditions n name parts).run s = .ok (branches, t) → Sound D s → Placed D name d →
    d.shapeCategory = .ok .polymorph → d.allOf? = some parts → Settles s t
  keyed : ∀ {name : String} {d : Definition} {s : Compiler} {hk : TypeHandle × Caster}
    {t : Compiler}, (keyed n name d).run s = .ok (hk, t) → Sound D s → Settles s t

theorem adoptions_zero : Adoptions D 0 where
  registerNamed run := by rw [registerNamed] at run; exact (Compiling.throw_ok run).elim
  registerDefinition run := by rw [registerDefinition] at run; exact (Compiling.throw_ok run).elim
  inheritanceParents run := by rw [inheritanceParents] at run; exact (Compiling.throw_ok run).elim
  resolve run := by rw [resolve] at run; exact (Compiling.throw_ok run).elim
  reference run := by rw [reference] at run; exact (Compiling.throw_ok run).elim
  anonymous run := by rw [anonymous] at run; exact (Compiling.throw_ok run).elim
  listOf run := by rw [listOf] at run; exact (Compiling.throw_ok run).elim
  unionOf run := by rw [unionOf] at run; exact (Compiling.throw_ok run).elim
  polymorphOf run := by rw [polymorphOf] at run; exact (Compiling.throw_ok run).elim
  conditions run := by rw [conditions] at run; exact (Compiling.throw_ok run).elim
  keyed run := by rw [keyed] at run; exact (Compiling.throw_ok run).elim

/-- Registering under a computed handle and caster settles what the step before settled. -/
theorem Settles.register {s m t : Compiler} {e : Entry} (settles : Settles s m)
    (run : (updateRegistry (·.register e)).run m = .ok ((), t)) : Settles s t :=
  settles.update run fun _ registered => Registry.contains_register registered

theorem Settles.registerComposite {s m t : Compiler} {name : String} {d : Definition}
    {kind : CompositeKind} {c : Category} (settles : Settles s m)
    (run : (registerComposite name d kind c).run m = .ok ((), t)) : Settles s t :=
  settles.update run fun _ registered =>
    Registry.contains_register (by rw [Registry.contains_insertComposite]; exact registered)

section Succ

variable {n : Nat} (ih : Adoptions D n)
include ih

theorem registerNamed_settles {name : String} {s t : Compiler}
    (run : (registerNamed (n + 1) name).run s = .ok ((), t)) (sound : Sound D s) :
    Settles s t := by
  rw [registerNamed] at run
  have run := get_bind_ok run
  dsimp only at run
  by_cases registered : s.registry.contains name = true
  · simp only [registered, if_true] at run
    obtain ⟨-, rfl⟩ := Compiling.pure_ok run
    exact .refl _
  simp only [registered, if_false, Bool.false_eq_true] at run
  by_cases circular : s.resolving.contains name = true
  · simp only [circular, if_true] at run
    obtain ⟨_, _, thrown, -⟩ := Compiling.bind_ok run
    exact (Compiling.throw_ok thrown).elim
  simp only [circular, if_false, Bool.false_eq_true] at run
  have outside : name ∉ s.resolving := by simpa using circular
  cases defined : s.definition? name with
  | none =>
    simp only [defined] at run
    exact (Compiling.throw_ok run).elim
  | some d =>
    simp only [defined] at run
    obtain ⟨c, found, member⟩ := sound.category_found defined
    simp only [found, pure_bind] at run
    obtain ⟨⟨⟩, pushed, push, run⟩ := Compiling.bind_ok run
    obtain ⟨⟨⟩, registeredState, registration, pop⟩ := Compiling.bind_ok run
    simp only [Compiling.run_modify, Except.ok.injEq, Prod.mk.injEq, true_and] at push pop
    subst push pop
    -- marking and unmarking the name change neither the definitions nor the registry
    have settles := ih.registerDefinition registration
      (sound.push (by simpa using registered) outside) rfl defined member
    exact settles

theorem registerDefinition_settles {name : String} {d : Definition} {c : Category}
    {rest : List String} {s t : Compiler}
    (run : (registerDefinition (n + 1) name d c).run s = .ok ((), t)) (sound : Sound D s)
    (resolving : s.resolving = name :: rest) (defined : s.definition? name = some d)
    (categorized : (name, c) ∈ s.categories) : Settles s t := by
  obtain ⟨d', defined', category⟩ := sound.categorized name c categorized
  rw [defined] at defined'
  cases defined'
  have placed := sound.placed_of_definition? defined
  cases c with
  | native =>
    rw [registerDefinition] at run
    obtain ⟨hk, middle, computed, registering⟩ := Compiling.bind_ok run
    obtain ⟨rfl, -⟩ := native_ok computed
    exact (Settles.refl _).register registering
  | enumeration =>
    rw [registerDefinition] at run
    obtain ⟨et, middle, lifted, registering⟩ := Compiling.bind_ok run
    obtain ⟨-, rfl⟩ := Compiling.liftExcept_ok lifted
    exact (Settles.refl _).update registering fun _ registered =>
      Registry.contains_register (by rw [Registry.contains_insertEnum]; exact registered)
  | custom =>
    rw [registerDefinition] at run
    exact (Settles.refl s).registerComposite run
  | passthrough =>
    rw [registerDefinition] at run
    cases target? : d.referenceName? with
    | none =>
      simp only [target?] at run
      exact (Compiling.throw_ok run).elim
    | some target =>
      simp only [target?] at run
      obtain ⟨⟨⟩, middle, registering, looking⟩ := Compiling.bind_ok run
      have settles := ih.registerNamed registering sound
      obtain ⟨e, last, lookup, chosen⟩ := Compiling.bind_ok (get_bind_ok looking)
      obtain ⟨-, rfl⟩ := Compiling.liftExcept_ok lookup
      split at chosen
      · exact settles.registerComposite chosen
      · exact settles.register chosen
  | multiInheritance =>
    rw [registerDefinition] at run
    obtain ⟨parents, middle, inheriting, run⟩ := Compiling.bind_ok run
    exact (ih.inheritanceParents inheriting sound placed category).registerComposite run
  | list =>
    rw [registerDefinition] at run
    obtain ⟨hk, middle, computed, registering⟩ := Compiling.bind_ok run
    exact (ih.listOf computed sound placed category).register registering
  | union =>
    rw [registerDefinition] at run
    obtain ⟨hk, middle, computed, registering⟩ := Compiling.bind_ok run
    exact (ih.unionOf computed sound placed category).register registering
  | polymorph =>
    rw [registerDefinition] at run
    obtain ⟨hk, middle, computed, registering⟩ := Compiling.bind_ok run
    exact (ih.polymorphOf computed sound placed category).register registering

theorem reference_settles {d : Definition} {context : String} {s : Compiler}
    {hk : TypeHandle × Caster} {t : Compiler}
    (run : (reference (n + 1) d context).run s = .ok (hk, t)) (sound : Sound D s) :
    Settles s t := by
  rw [reference] at run
  cases target? : d.referenceName? with
  | none =>
    simp only [target?] at run
    exact (Compiling.throw_ok run).elim
  | some target =>
    simp only [target?] at run
    obtain ⟨⟨⟩, middle, registering, looking⟩ := Compiling.bind_ok run
    obtain ⟨rfl, -⟩ := registered_ok looking
    exact ih.registerNamed registering sound

theorem anonymous_settles {name : String} {d : Definition} {c : Category} {s : Compiler}
    {hk : TypeHandle × Caster} {t : Compiler}
    (run : (anonymous (n + 1) name d c).run s = .ok (hk, t)) (sound : Sound D s)
    (placed : Placed D name d) (category : d.shapeCategory = .ok c) : Settles s t := by
  rw [anonymous] at run
  have run := get_bind_ok run
  dsimp only at run
  by_cases registered : s.registry.contains name = true
  · simp only [registered, Bool.not_true, Bool.false_eq_true, if_false] at run
    obtain ⟨rfl, -⟩ := registered_ok run
    exact .refl _
  simp only [registered, Bool.not_false, if_true] at run
  split at run
  · next undefined =>
    -- the adopted name is registered right after its adoption
    obtain ⟨⟨⟩, adopted, adopting, run⟩ := Compiling.bind_ok run
    obtain ⟨⟨⟩, middle, registering, looking⟩ := Compiling.bind_ok run
    have undefined := Option.isNone_iff_eq_none.mp undefined
    obtain ⟨adoptedSound, -, -, -, -⟩ := adopt_keeps adopting sound undefined placed category
    obtain ⟨appended, -, -⟩ := adopt_definitions adopting undefined
    obtain ⟨-, contained⟩ := (specs n).registerNamed registering adoptedSound
    obtain ⟨rfl, -⟩ := registered_ok looking
    exact Settles.adopted appended (ih.registerNamed registering adoptedSound) contained
  · obtain ⟨⟨⟩, middle, registering, looking⟩ := Compiling.bind_ok run
    obtain ⟨rfl, -⟩ := registered_ok looking
    exact ih.registerNamed registering sound

theorem resolve_settles {d : Definition} {hint : String} {s : Compiler}
    {hk : TypeHandle × Caster} {t : Compiler}
    (run : (resolve (n + 1) d hint).run s = .ok (hk, t)) (sound : Sound D s)
    (placed : Placed D hint d) : Settles s t := by
  rw [resolve] at run
  by_cases unconstrained : d.isUnconstrained = true
  · simp only [unconstrained, if_true] at run
    obtain ⟨-, rfl⟩ := Compiling.pure_ok run
    exact .refl _
  simp only [unconstrained, if_false, Bool.false_eq_true] at run
  obtain ⟨c, middle, categorizing, chosen⟩ := Compiling.bind_ok run
  obtain ⟨rfl, category⟩ := categoryOf_ok categorizing
  split at chosen
  · exact ih.reference chosen sound
  · obtain ⟨rfl, -⟩ := native_ok chosen
    exact .refl _
  · exact ih.listOf chosen sound placed category
  · exact ih.unionOf chosen sound placed category
  · exact ih.polymorphOf chosen sound placed category
  · exact ih.anonymous chosen sound placed category

theorem listOf_settles {d : Definition} {name : String} {s : Compiler}
    {hk : TypeHandle × Caster} {t : Compiler}
    (run : (listOf (n + 1) d name).run s = .ok (hk, t)) (sound : Sound D s)
    (placed : Placed D name d) (category : d.shapeCategory = .ok .list) : Settles s t := by
  rw [listOf] at run
  split at run
  · obtain ⟨item, middle, first, rest⟩ := Compiling.bind_ok run
    obtain ⟨-, rfl⟩ := Compiling.pure_ok first
    obtain ⟨-, rfl⟩ := Compiling.pure_ok rest
    exact .refl _
  · obtain ⟨item, middle, first, rest⟩ := Compiling.bind_ok run
    obtain ⟨-, rfl⟩ := Compiling.pure_ok first
    obtain ⟨-, rfl⟩ := Compiling.pure_ok rest
    exact .refl _
  · next items notTrue found =>
    dsimp only at run
    obtain ⟨itemDefinition, middle, defining, resolvingItem⟩ := Compiling.bind_ok run
    obtain ⟨rfl, read⟩ := definitionOf_ok defining
    obtain ⟨item, last, resolving, rest⟩ := Compiling.bind_ok resolvingItem
    obtain ⟨-, rfl⟩ := Compiling.pure_ok rest
    exact ih.resolve resolving sound (.item placed category found notTrue read)

theorem unionOf_settles {d : Definition} {name : String} {s : Compiler}
    {hk : TypeHandle × Caster} {t : Compiler}
    (run : (unionOf (n + 1) d name).run s = .ok (hk, t)) (sound : Sound D s)
    (placed : Placed D name d) (category : d.shapeCategory = .ok .union) : Settles s t := by
  rw [unionOf] at run
  obtain ⟨members, middle, collecting, choosing⟩ := Compiling.bind_ok run
  obtain ⟨-, ⟨-, settles⟩, -⟩ := Compiling.filterMapM_keeps (Sound D) Settling
    Settling.refl (fun first second => first.trans second)
    (fun (_ : TypeHandle × Caster) (_ : Compiler) => True) (fun _ _ _ _ _ => trivial) (by
      rintro ⟨alternative, ix⟩ member s1 result s2 stepping s1Sound
      dsimp only at stepping
      split at stepping
      · obtain ⟨rfl, rfl⟩ := Compiling.pure_ok stepping
        exact ⟨s1Sound, .refl _, by simp⟩
      · next notNull =>
        obtain ⟨option, s3, defining, resolvingOption⟩ := Compiling.bind_ok stepping
        obtain ⟨rfl, read⟩ := definitionOf_ok defining
        obtain ⟨m, s4, resolving, wrapping⟩ := Compiling.bind_ok resolvingOption
        obtain ⟨rfl, rfl⟩ := Compiling.pure_ok wrapping
        have placedOption := Placed.option placed category member (by simpa using notNull) read
        obtain ⟨keeps, -⟩ := (specs n).resolve resolving s1Sound placedOption
        exact ⟨keeps.1, ⟨keeps.2, ih.resolve resolving s1Sound placedOption⟩, by simp⟩)
    s members middle collecting sound
  split at choosing <;>
  · obtain ⟨-, rfl⟩ := Compiling.pure_ok choosing
    exact settles

theorem conditions_settles {name : String} {parts : List Json} {d : Definition} {s : Compiler}
    {branches : List ((List (String × Value) × String × Caster) × TypeHandle)} {t : Compiler}
    (run : (conditions (n + 1) name parts).run s = .ok (branches, t)) (sound : Sound D s)
    (placed : Placed D name d) (category : d.shapeCategory = .ok .polymorph)
    (parts? : d.allOf? = some parts) : Settles s t := by
  rw [conditions] at run
  obtain ⟨-, ⟨-, settles⟩, -⟩ := Compiling.mapM_keeps (Sound D) Settling
    Settling.refl (fun first second => first.trans second)
    (fun (_ : (List (String × Value) × String × Caster) × TypeHandle) (_ : Compiler) => True)
    (fun _ _ _ _ _ => trivial) (by
      rintro ⟨part, ix⟩ member s1 b s2 stepping s1Sound
      dsimp only at stepping
      split at stepping
      · next fields found =>
        obtain ⟨constants, s3, folding, rest⟩ := Compiling.bind_ok stepping
        -- reading the constants only reads the schema
        obtain ⟨-, unchanged, -⟩ := Compiling.foldlM_keeps (fun _ => True) (· = ·)
          (fun _ => rfl) (fun first second => first.trans second) (fun _ _ => True) (by
            rintro ⟨field, schema⟩ - acc s5 acc' s6 - stepping' -
            dsimp only at stepping'
            split at stepping'
            · obtain ⟨-, rfl⟩ := Compiling.pure_ok stepping'
              exact ⟨trivial, rfl, trivial⟩
            · exact (Compiling.throw_ok stepping').elim) [] s1 constants s3 trivial folding trivial
        subst unchanged
        obtain ⟨thenPart, s4, defining, resolvingThen⟩ := Compiling.bind_ok rest
        obtain ⟨rfl, read⟩ := definitionOf_ok defining
        obtain ⟨hk, s5, resolving, wrapping⟩ := Compiling.bind_ok resolvingThen
        obtain ⟨rfl, rfl⟩ := Compiling.pure_ok wrapping
        have placedThen := Placed.branch placed category parts? member read
        obtain ⟨keeps, -⟩ := (specs n).resolve resolving s1Sound placedThen
        exact ⟨keeps.1, ⟨keeps.2, ih.resolve resolving s1Sound placedThen⟩, trivial⟩
      · exact (Compiling.throw_ok stepping).elim)
    s branches t run sound
  exact settles

theorem polymorphOf_settles {d : Definition} {name : String} {s : Compiler}
    {hk : TypeHandle × Caster} {t : Compiler}
    (run : (polymorphOf (n + 1) d name).run s = .ok (hk, t)) (sound : Sound D s)
    (placed : Placed D name d) (category : d.shapeCategory = .ok .polymorph) : Settles s t := by
  rw [polymorphOf] at run
  split at run
  · next parts parts? =>
    obtain ⟨branches, middle, branching, wrapping⟩ := Compiling.bind_ok run
    obtain ⟨-, rfl⟩ := Compiling.pure_ok wrapping
    exact ih.conditions branching sound placed category parts?
  · exact ih.keyed run sound

theorem keyed_settles {name : String} {d : Definition} {s : Compiler}
    {hk : TypeHandle × Caster} {t : Compiler}
    (run : (keyed (n + 1) name d).run s = .ok (hk, t)) (sound : Sound D s) : Settles s t := by
  rw [keyed] at run
  obtain ⟨disc?, middle, reading, run⟩ := Compiling.bind_ok run
  obtain ⟨-, rfl⟩ := Compiling.liftExcept_ok reading
  cases disc? with
  | none => exact (Compiling.throw_ok run).elim
  | some disc =>
    dsimp only at run
    obtain ⟨acc, last, folding, wrapping⟩ := Compiling.bind_ok run
    obtain ⟨-, ⟨-, settles⟩, -⟩ := Compiling.foldlM_keeps (Sound D) Settling
      Settling.refl (fun first second => first.trans second)
      (fun (_ : List (String × String × Caster) × List TypeHandle) (_ : Compiler) => True) (by
        rintro ⟨key, target⟩ - ⟨mapping, handles⟩ s1 acc' s2 - stepping s1Sound
        obtain ⟨⟨⟩, s3, registering, looking⟩ := Compiling.bind_ok stepping
        obtain ⟨keeps, -⟩ := (specs n).registerNamed registering s1Sound
        obtain ⟨hk', s4, lookup, wrapping'⟩ := Compiling.bind_ok looking
        obtain ⟨rfl, -⟩ := registered_ok lookup
        obtain ⟨-, rfl⟩ := Compiling.pure_ok wrapping'
        exact ⟨keeps.1, ⟨keeps.2, ih.registerNamed registering s1Sound⟩, trivial⟩)
      ([], []) middle acc last trivial folding sound
    obtain ⟨-, rfl⟩ := Compiling.pure_ok wrapping
    exact settles

theorem inheritanceParents_settles {name : String} {d : Definition} {s : Compiler}
    {parents : List String} {t : Compiler}
    (run : (inheritanceParents (n + 1) name d).run s = .ok (parents, t)) (sound : Sound D s)
    (placed : Placed D name d) (category : d.shapeCategory = .ok .multiInheritance) :
    Settles s t := by
  rw [inheritanceParents] at run
  obtain ⟨-, ⟨-, settles⟩, -⟩ := Compiling.mapM_keeps (Sound D) Settling
    Settling.refl (fun first second => first.trans second)
    (fun (_ : String) (_ : Compiler) => True) (fun _ _ _ _ _ => trivial) (by
      rintro ⟨part, ix⟩ member s1 parent s2 stepping s1Sound
      obtain ⟨partDefinition, s3, defining, categorizing⟩ := Compiling.bind_ok stepping
      obtain ⟨same, read⟩ := definitionOf_ok defining
      subst s3
      obtain ⟨c, s4, classifying, chosen⟩ := Compiling.bind_ok categorizing
      obtain ⟨same, partCategory⟩ := categoryOf_ok classifying
      subst s4
      have stub : ∀ {c : Category}, partDefinition.shapeCategory = .ok c →
          (do
            let _ ← anonymous n (name ++ "_Parent" ++ toString ix) partDefinition c
            pure (name ++ "_Parent" ++ toString ix) : Compiling String).run s1 =
            .ok (parent, s2) →
          Sound D s2 ∧ Settling s1 s2 ∧ True := by
        intro c fits registering
        obtain ⟨hk, s5, adopting, naming⟩ := Compiling.bind_ok registering
        have placedParent := Placed.parent placed category member read
        obtain ⟨keeps, -⟩ := (specs n).anonymous adopting s1Sound placedParent fits
        obtain ⟨-, rfl⟩ := Compiling.pure_ok naming
        exact ⟨keeps.1, ⟨keeps.2, ih.anonymous adopting s1Sound placedParent fits⟩, trivial⟩
      split at chosen
      · obtain ⟨⟨h, k⟩, s5, referring, choosing⟩ := Compiling.bind_ok chosen
        obtain ⟨keeps, -⟩ := (specs n).reference referring s1Sound
        have settles := ih.reference referring s1Sound
        dsimp only at choosing
        split at choosing
        · obtain ⟨-, rfl⟩ := Compiling.pure_ok choosing
          exact ⟨keeps.1, ⟨keeps.2, settles⟩, trivial⟩
        · exact (Compiling.throw_ok choosing).elim
      · exact stub (by rw [partCategory]) chosen
      · exact stub (by rw [partCategory]) chosen
      · exact (Compiling.throw_ok chosen).elim)
    s parents t run sound
  exact settles

end Succ

/-- Every registration function registers what it adopts, at every bound. -/
theorem adoptions : ∀ n, Adoptions D n
  | 0 => adoptions_zero
  | n + 1 =>
    have ih := adoptions n
    { registerNamed := registerNamed_settles ih
      registerDefinition := registerDefinition_settles ih
      inheritanceParents := inheritanceParents_settles ih
      resolve := resolve_settles ih
      reference := reference_settles ih
      anonymous := anonymous_settles ih
      listOf := listOf_settles ih
      unionOf := unionOf_settles ih
      polymorphOf := polymorphOf_settles ih
      conditions := conditions_settles ih
      keyed := keyed_settles ih }

end Compiler

end SchemaTypes
