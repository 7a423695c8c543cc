import SchemaTypes.Proofs.Passes

/-! # Registration adds composite types as stubs

Registering a name and resolving an inline schema add a composite type only under a name not
registered before, and add it with no properties yet; the composite types already there stay
as they are (`Compiler.Stubbed`). Only binding and finalization fill composite types in.

The proof is the same induction on the bound as that of the specifications of the
registration functions (`Frames`, beside `Specs`). It reads those specifications for what it
needs of the states in between: that they are sound and that the name being registered is
still not registered, so that the composite type added under it is new. The two passes that
register follow (`registerCategories_stubbed`, `discoverNested_stubbed`).
-/

namespace SchemaTypes

/-- A composite type as registration leaves it: no properties, no catch-all, and the direct
initializer with no parameters. -/
def Composite.IsStub (c : Composite) : Prop :=
  c.properties = [] ∧ c.catchAll = none ∧ c.initializer = .direct ⟨c.name, [], none⟩

namespace Compiler

variable {D : Document}

/-- `t` holds the composite types of `s` as they are, followed by stubs. -/
def Stubbed (s t : Compiler) : Prop :=
  ∃ added : List Composite, t.registry.composites = s.registry.composites ++ added ∧
    ∀ c ∈ added, c.IsStub

theorem Stubbed.refl (s : Compiler) : Stubbed s s := ⟨[], by simp, by simp⟩

theorem Stubbed.trans {a b c : Compiler} (first : Stubbed a b) (second : Stubbed b c) :
    Stubbed a c := by
  obtain ⟨added, grown, stubs⟩ := first
  obtain ⟨added', grown', stubs'⟩ := second
  refine ⟨added ++ added', by rw [grown', grown, List.append_assoc], fun x member => ?_⟩
  rcases List.mem_append.mp member with old | new
  · exact stubs x old
  · exact stubs' x new

theorem Stubbed.of_composites {s t : Compiler}
    (same : t.registry.composites = s.registry.composites) : Stubbed s t :=
  ⟨[], by rw [same, List.append_nil], by simp⟩

/-! ## The steps that change the registry -/

theorem register_stubbed {e : Entry} {s t : Compiler}
    (run : (updateRegistry (·.register e)).run s = .ok ((), t)) : Stubbed s t := by
  simp only [updateRegistry, Compiling.run_modify, Except.ok.injEq, Prod.mk.injEq,
    true_and] at run
  subst run
  refine Stubbed.of_composites ?_
  unfold Registry.register
  split <;> rfl

theorem registerEnum_stubbed {e : Entry} {et : EnumType} {s t : Compiler}
    (run : (updateRegistry fun r => (r.insertEnum et).register e).run s = .ok ((), t)) :
    Stubbed s t := by
  simp only [updateRegistry, Compiling.run_modify, Except.ok.injEq, Prod.mk.injEq,
    true_and] at run
  subst run
  refine Stubbed.of_composites ?_
  unfold Registry.register Registry.insertEnum
  split <;> split <;> rfl

/-- Registering a composite type under a name not registered adds a stub. -/
theorem registerComposite_stubbed {name : String} {d : Definition} {kind : CompositeKind}
    {c : Category} {s t : Compiler} (run : (registerComposite name d kind c).run s = .ok ((), t))
    (sound : Sound D s) (fresh : s.registry.contains name = false) : Stubbed s t := by
  simp only [registerComposite, updateRegistry, Compiling.run_modify, Except.ok.injEq,
    Prod.mk.injEq, true_and] at run
  subst run
  have shape := Registry.insertComposite_register_of_fresh
    { Composite.empty name kind with description := d.description? }
    ⟨name, .composite name, .composite name, d, c⟩ (sound.registry.not_composite fresh) fresh
  refine ⟨[{ Composite.empty name kind with description := d.description? }], by rw [shape],
    fun x member => ?_⟩
  rw [List.mem_singleton.mp member]
  exact ⟨rfl, rfl, rfl⟩

/-- The specification of every registration function at one bound: it adds composite types
only as stubs. The hypotheses are those of `Specs`. -/
structure Frames (D : Document) (n : Nat) : Prop where
  registerNamed : ∀ {name : String} {s t : Compiler},
    (registerNamed n name).run s = .ok ((), t) → Sound D s → Stubbed s t
  registerDefinition : ∀ {name : String} {d : Definition} {c : Category} {rest : List String}
    {s t : Compiler}, (registerDefinition n name d c).run s = .ok ((), t) → Sound D s →
    s.resolving = name :: rest → s.definition? name = some d → (name, c) ∈ s.categories →
    Stubbed s t
  inheritanceParents : ∀ {name : String} {d : Definition} {s : Compiler} {parents : List String}
    {t : Compiler}, (inheritanceParents n name d).run s = .ok (parents, t) → Sound D s →
    Placed D name d → d.shapeCategory = .ok .multiInheritance → Stubbed s t
  resolve : ∀ {d : Definition} {hint : String} {s : Compiler} {hk : TypeHandle × Caster}
    {t : Compiler}, (resolve n d hint).run s = .ok (hk, t) → Sound D s → Placed D hint d →
    Stubbed s t
  reference : ∀ {d : Definition} {context : String} {s : Compiler} {hk : TypeHandle × Caster}
    {t : Compiler}, (reference n d context).run s = .ok (hk, t) → Sound D s → Stubbed s t
  anonymous : ∀ {name : String} {d : Definition} {c : Category} {s : Compiler}
    {hk : TypeHandle × Caster} {t : Compiler}, (anonymous n name d c).run s = .ok (hk, t) →
    Sound D s → Placed D name d → d.shapeCategory = .ok c → Stubbed s t
  listOf : ∀ {d : Definition} {name : String} {s : Compiler} {hk : TypeHandle × Caster}
    {t : Compiler}, (listOf n d name).run s = .ok (hk, t) → Sound D s → Placed D name d →
    d.shapeCategory = .ok .list → Stubbed s t
  unionOf : ∀ {d : Definition} {name : String} {s : Compiler} {hk : TypeHandle × Caster}
    {t : Compiler}, (unionOf n d name).run s = .ok (hk, t) → Sound D s → Placed D name d →
    d.shapeCategory = .ok .union → Stubbed s t
  polymorphOf : ∀ {d : Definition} {name : String} {s : Compiler} {hk : TypeHandle × Caster}
    {t : Compiler}, (polymorphOf n d name).run s = .ok (hk, t) → Sound D s → Placed D name d →
    d.shapeCategory = .ok .polymorph → Stubbed s t
  conditions : ∀ {name : String} {parts : List Json} {d : Definition} {s : Compiler}
    {branches : List ((List (String × Value) × String × Caster) × TypeHandle)} {t : Compiler},
    (conditions n name parts).run s = .ok (branches, t) → Sound D s → Placed D name d →
    d.shapeCategory = .ok .polymorph → d.allOf? = some parts → Stubbed s t
  keyed : ∀ {name : String} {d : Definition} {s : Compiler} {hk : TypeHandle × Caster}
    {t : Compiler}, (keyed n name d).run s = .ok (hk, t) → Sound D s → Stubbed s t

theorem frames_zero : Frames D 0 where
  registerNamed run := by rw [registerNamed] at run; exact (Compiling.throw_ok run).elim
  registerDefinition run := by rw [registerDefinition] at run; exact (Compiling.throw_ok run).elim
  inheritanceParents run := by rw [inheritanceParents] at run; exact (Compiling.throw_ok run).elim
  resolve run := by rw [resolve] at run; exact (Compiling.throw_ok run).elim
  reference run := by rw [reference] at run; exact (Compiling.throw_ok run).elim
  anonymous run := by rw [anonymous] at run; exact (Compiling.throw_ok run).elim
  listOf run := by rw [listOf] at run; exact (Compiling.throw_ok run).elim
  unionOf run := by rw [unionOf] at run; exact (Compiling.throw_ok run).elim
  polymorphOf run := by rw [polymorphOf] at run; exact (Compiling.throw_ok run).elim
  conditions run := by rw [conditions] at run; exact (Compiling.throw_ok run).elim
  keyed run := by rw [keyed] at run; exact (Compiling.throw_ok run).elim

/-- A step of a loop of registrations: it keeps the compilation sound, grows the state and
adds composite types only as stubs. -/
def Registers (s t : Compiler) : Prop := Extends s t ∧ Stubbed s t

theorem Registers.refl (s : Compiler) : Registers s s := ⟨.refl s, .refl s⟩

theorem Registers.trans {a b c : Compiler} (first : Registers a b) (second : Registers b c) :
    Registers a c :=
  ⟨first.1.trans second.1, first.2.trans second.2⟩

section Succ

variable {n : Nat} (ih : Frames D n)
include ih

theorem registerNamed_stubbed {name : String} {s t : Compiler}
    (run : (registerNamed (n + 1) name).run s = .ok ((), t)) (sound : Sound D s) :
    Stubbed s t := by
  rw [registerNamed] at run
  have run := get_bind_ok run
  dsimp only at run
  by_cases registered : s.registry.contains name = true
  · simp only [registered, if_true] at run
    obtain ⟨-, rfl⟩ := Compiling.pure_ok run
    exact .refl _
  simp only [registered, if_false, Bool.false_eq_true] at run
  by_cases circular : s.resolving.contains name = true
  · simp only [circular, if_true] at run
    obtain ⟨_, _, thrown, -⟩ := Compiling.bind_ok run
    exact (Compiling.throw_ok thrown).elim
  simp only [circular, if_false, Bool.false_eq_true] at run
  have outside : name ∉ s.resolving := by simpa using circular
  cases defined : s.definition? name with
  | none =>
    simp only [defined] at run
    exact (Compiling.throw_ok run).elim
  | some d =>
    simp only [defined] at run
    obtain ⟨c, found, member⟩ := sound.category_found defined
    simp only [found, pure_bind] at run
    obtain ⟨⟨⟩, pushed, push, run⟩ := Compiling.bind_ok run
    obtain ⟨⟨⟩, registeredState, registration, pop⟩ := Compiling.bind_ok run
    simp only [Compiling.run_modify, Except.ok.injEq, Prod.mk.injEq, true_and] at push pop
    subst push pop
    have stubbed := ih.registerDefinition registration
      (sound.push (by simpa using registered) outside) rfl defined member
    exact (Stubbed.of_composites rfl).trans (stubbed.trans (Stubbed.of_composites rfl))

theorem registerDefinition_stubbed {name : String} {d : Definition} {c : Category}
    {rest : List String} {s t : Compiler}
    (run : (registerDefinition (n + 1) name d c).run s = .ok ((), t)) (sound : Sound D s)
    (resolving : s.resolving = name :: rest) (defined : s.definition? name = some d)
    (categorized : (name, c) ∈ s.categories) : Stubbed s t := by
  obtain ⟨d', defined', category⟩ := sound.categorized name c categorized
  rw [defined] at defined'
  cases defined'
  have placed := sound.placed_of_definition? defined
  -- the name being registered is not registered in any sound state with the same names being
  -- registered, so the composite type added under it is new
  have fresh : ∀ {u : Compiler}, Sound D u → u.resolving = s.resolving →
      u.registry.contains name = false := fun uSound same =>
    uSound.fresh name (by rw [same, resolving]; exact List.mem_cons_self)
  cases c with
  | native =>
    rw [registerDefinition] at run
    obtain ⟨hk, middle, computed, registering⟩ := Compiling.bind_ok run
    obtain ⟨rfl, -⟩ := native_ok computed
    exact register_stubbed registering
  | enumeration =>
    rw [registerDefinition] at run
    obtain ⟨et, middle, lifted, registering⟩ := Compiling.bind_ok run
    obtain ⟨-, rfl⟩ := Compiling.liftExcept_ok lifted
    exact registerEnum_stubbed registering
  | custom =>
    rw [registerDefinition] at run
    exact registerComposite_stubbed run sound (fresh sound rfl)
  | passthrough =>
    rw [registerDefinition] at run
    cases target? : d.referenceName? with
    | none =>
      simp only [target?] at run
      exact (Compiling.throw_ok run).elim
    | some target =>
      simp only [target?] at run
      obtain ⟨⟨⟩, middle, registering, looking⟩ := Compiling.bind_ok run
      have stubbed := ih.registerNamed registering sound
      obtain ⟨keeps, -⟩ := (specs n).registerNamed registering sound
      obtain ⟨e, last, lookup, chosen⟩ := Compiling.bind_ok (get_bind_ok looking)
      obtain ⟨-, rfl⟩ := Compiling.liftExcept_ok lookup
      split at chosen
      · exact stubbed.trans (registerComposite_stubbed chosen keeps.1 (fresh keeps.1 keeps.2.2))
      · exact stubbed.trans (register_stubbed chosen)
  | multiInheritance =>
    rw [registerDefinition] at run
    obtain ⟨parents, middle, inheriting, run⟩ := Compiling.bind_ok run
    have stubbed := ih.inheritanceParents inheriting sound placed category
    obtain ⟨keeps, -⟩ := (specs n).inheritanceParents inheriting sound placed category
    exact stubbed.trans (registerComposite_stubbed run keeps.1 (fresh keeps.1 keeps.2.2))
  | list =>
    rw [registerDefinition] at run
    obtain ⟨hk, middle, computed, registering⟩ := Compiling.bind_ok run
    exact (ih.listOf computed sound placed category).trans (register_stubbed registering)
  | union =>
    rw [registerDefinition] at run
    obtain ⟨hk, middle, computed, registering⟩ := Compiling.bind_ok run
    exact (ih.unionOf computed sound placed category).trans (register_stubbed registering)
  | polymorph =>
    rw [registerDefinition] at run
    obtain ⟨hk, middle, computed, registering⟩ := Compiling.bind_ok run
    exact (ih.polymorphOf computed sound placed category).trans (register_stubbed registering)

theorem reference_stubbed {d : Definition} {context : String} {s : Compiler}
    {hk : TypeHandle × Caster} {t : Compiler}
    (run : (reference (n + 1) d context).run s = .ok (hk, t)) (sound : Sound D s) :
    Stubbed s t := by
  rw [reference] at run
  cases target? : d.referenceName? with
  | none =>
    simp only [target?] at run
    exact (Compiling.throw_ok run).elim
  | some target =>
    simp only [target?] at run
    obtain ⟨⟨⟩, middle, registering, looking⟩ := Compiling.bind_ok run
    obtain ⟨rfl, -⟩ := registered_ok looking
    exact ih.registerNamed registering sound

theorem anonymous_stubbed {name : String} {d : Definition} {c : Category} {s : Compiler}
    {hk : TypeHandle × Caster} {t : Compiler}
    (run : (anonymous (n + 1) name d c).run s = .ok (hk, t)) (sound : Sound D s)
    (placed : Placed D name d) (category : d.shapeCategory = .ok c) : Stubbed s t := by
  rw [anonymous] at run
  have run := get_bind_ok run
  dsimp only at run
  by_cases registered : s.registry.contains name = true
  · simp only [registered, Bool.not_true, Bool.false_eq_true, if_false] at run
    obtain ⟨rfl, -⟩ := registered_ok run
    exact .refl _
  simp only [registered, Bool.not_false, if_true] at run
  split at run
  · next undefined =>
    obtain ⟨⟨⟩, adopted, adopting, run⟩ := Compiling.bind_ok run
    obtain ⟨⟨⟩, middle, registering, looking⟩ := Compiling.bind_ok run
    obtain ⟨adoptedSound, -, -, sameRegistry, -⟩ :=
      adopt_keeps adopting sound (Option.isNone_iff_eq_none.mp undefined) placed category
    obtain ⟨rfl, -⟩ := registered_ok looking
    exact (Stubbed.of_composites (by rw [sameRegistry])).trans
      (ih.registerNamed registering adoptedSound)
  · obtain ⟨⟨⟩, middle, registering, looking⟩ := Compiling.bind_ok run
    obtain ⟨rfl, -⟩ := registered_ok looking
    exact ih.registerNamed registering sound

theorem resolve_stubbed {d : Definition} {hint : String} {s : Compiler}
    {hk : TypeHandle × Caster} {t : Compiler}
    (run : (resolve (n + 1) d hint).run s = .ok (hk, t)) (sound : Sound D s)
    (placed : Placed D hint d) : Stubbed s t := by
  rw [resolve] at run
  by_cases unconstrained : d.isUnconstrained = true
  · simp only [unconstrained, if_true] at run
    obtain ⟨-, rfl⟩ := Compiling.pure_ok run
    exact .refl _
  simp only [unconstrained, if_false, Bool.false_eq_true] at run
  obtain ⟨c, middle, categorizing, chosen⟩ := Compiling.bind_ok run
  obtain ⟨rfl, category⟩ := categoryOf_ok categorizing
  split at chosen
  · exact ih.reference chosen sound
  · obtain ⟨rfl, -⟩ := native_ok chosen
    exact .refl _
  · exact ih.listOf chosen sound placed category
  · exact ih.unionOf chosen sound placed category
  · exact ih.polymorphOf chosen sound placed category
  · exact ih.anonymous chosen sound placed category

theorem listOf_stubbed {d : Definition} {name : String} {s : Compiler}
    {hk : TypeHandle × Caster} {t : Compiler}
    (run : (listOf (n + 1) d name).run s = .ok (hk, t)) (sound : Sound D s)
    (placed : Placed D name d) (category : d.shapeCategory = .ok .list) : Stubbed s t := by
  rw [listOf] at run
  split at run
  · obtain ⟨item, middle, first, rest⟩ := Compiling.bind_ok run
    obtain ⟨-, rfl⟩ := Compiling.pure_ok first
    obtain ⟨-, rfl⟩ := Compiling.pure_ok rest
    exact .refl _
  · obtain ⟨item, middle, first, rest⟩ := Compiling.bind_ok run
    obtain ⟨-, rfl⟩ := Compiling.pure_ok first
    obtain ⟨-, rfl⟩ := Compiling.pure_ok rest
    exact .refl _
  · next items notTrue found =>
    dsimp only at run
    obtain ⟨itemDefinition, middle, defining, resolvingItem⟩ := Compiling.bind_ok run
    obtain ⟨rfl, read⟩ := definitionOf_ok defining
    obtain ⟨item, last, resolving, rest⟩ := Compiling.bind_ok resolvingItem
    obtain ⟨-, rfl⟩ := Compiling.pure_ok rest
    exact ih.resolve resolving sound (.item placed category found notTrue read)

theorem unionOf_stubbed {d : Definition} {name : String} {s : Compiler}
    {hk : TypeHandle × Caster} {t : Compiler}
    (run : (unionOf (n + 1) d name).run s = .ok (hk, t)) (sound : Sound D s)
    (placed : Placed D name d) (category : d.shapeCategory = .ok .union) : Stubbed s t := by
  rw [unionOf] at run
  obtain ⟨members, middle, collecting, choosing⟩ := Compiling.bind_ok run
  obtain ⟨-, ⟨-, stubbed⟩, -⟩ := Compiling.filterMapM_keeps (Sound D) Registers
    Registers.refl (fun first second => first.trans second)
    (fun (_ : TypeHandle × Caster) (_ : Compiler) => True) (fun _ _ _ _ _ => trivial) (by
      rintro ⟨alternative, ix⟩ member s1 result s2 stepping s1Sound
      dsimp only at stepping
      split at stepping
      · obtain ⟨rfl, rfl⟩ := Compiling.pure_ok stepping
        exact ⟨s1Sound, .refl _, by simp⟩
      · next notNull =>
        obtain ⟨option, s3, defining, resolvingOption⟩ := Compiling.bind_ok stepping
        obtain ⟨rfl, read⟩ := definitionOf_ok defining
        obtain ⟨m, s4, resolving, wrapping⟩ := Compiling.bind_ok resolvingOption
        obtain ⟨rfl, rfl⟩ := Compiling.pure_ok wrapping
        have placedOption := Placed.option placed category member (by simpa using notNull) read
        obtain ⟨keeps, -⟩ := (specs n).resolve resolving s1Sound placedOption
        exact ⟨keeps.1, ⟨keeps.2, ih.resolve resolving s1Sound placedOption⟩, by simp⟩)
    s members middle collecting sound
  split at choosing <;>
  · obtain ⟨-, rfl⟩ := Compiling.pure_ok choosing
    exact stubbed

theorem conditions_stubbed {name : String} {parts : List Json} {d : Definition} {s : Compiler}
    {branches : List ((List (String × Value) × String × Caster) × TypeHandle)} {t : Compiler}
    (run : (conditions (n + 1) name parts).run s = .ok (branches, t)) (sound : Sound D s)
    (placed : Placed D name d) (category : d.shapeCategory = .ok .polymorph)
    (parts? : d.allOf? = some parts) : Stubbed s t := by
  rw [conditions] at run
  obtain ⟨-, ⟨-, stubbed⟩, -⟩ := Compiling.mapM_keeps (Sound D) Registers
    Registers.refl (fun first second => first.trans second)
    (fun (_ : (List (String × Value) × String × Caster) × TypeHandle) (_ : Compiler) => True)
    (fun _ _ _ _ _ => trivial) (by
      rintro ⟨part, ix⟩ member s1 b s2 stepping s1Sound
      dsimp only at stepping
      split at stepping
      · next fields found =>
        obtain ⟨constants, s3, folding, rest⟩ := Compiling.bind_ok stepping
        -- reading the constants only reads the schema
        obtain ⟨-, unchanged, -⟩ := Compiling.foldlM_keeps (fun _ => True) (· = ·)
          (fun _ => rfl) (fun first second => first.trans second) (fun _ _ => True) (by
            rintro ⟨field, schema⟩ - acc s5 acc' s6 - stepping' -
            dsimp only at stepping'
            split at stepping'
            · obtain ⟨-, rfl⟩ := Compiling.pure_ok stepping'
              exact ⟨trivial, rfl, trivial⟩
            · exact (Compiling.throw_ok stepping').elim) [] s1 constants s3 trivial folding trivial
        subst unchanged
        obtain ⟨thenPart, s4, defining, resolvingThen⟩ := Compiling.bind_ok rest
        obtain ⟨rfl, read⟩ := definitionOf_ok defining
        obtain ⟨hk, s5, resolving, wrapping⟩ := Compiling.bind_ok resolvingThen
        obtain ⟨rfl, rfl⟩ := Compiling.pure_ok wrapping
        have placedThen := Placed.branch placed category parts? member read
        obtain ⟨keeps, -⟩ := (specs n).resolve resolving s1Sound placedThen
        exact ⟨keeps.1, ⟨keeps.2, ih.resolve resolving s1Sound placedThen⟩, trivial⟩
      · exact (Compiling.throw_ok stepping).elim)
    s branches t run sound
  exact stubbed

theorem polymorphOf_stubbed {d : Definition} {name : String} {s : Compiler}
    {hk : TypeHandle × Caster} {t : Compiler}
    (run : (polymorphOf (n + 1) d name).run s = .ok (hk, t)) (sound : Sound D s)
    (placed : Placed D name d) (category : d.shapeCategory = .ok .polymorph) : Stubbed s t := by
  rw [polymorphOf] at run
  split at run
  · next parts parts? =>
    obtain ⟨branches, middle, branching, wrapping⟩ := Compiling.bind_ok run
    obtain ⟨-, rfl⟩ := Compiling.pure_ok wrapping
    exact ih.conditions branching sound placed category parts?
  · exact ih.keyed run sound

theorem keyed_stubbed {name : String} {d : Definition} {s : Compiler}
    {hk : TypeHandle × Caster} {t : Compiler}
    (run : (keyed (n + 1) name d).run s = .ok (hk, t)) (sound : Sound D s) : Stubbed s t := by
  rw [keyed] at run
  obtain ⟨disc?, middle, reading, run⟩ := Compiling.bind_ok run
  obtain ⟨-, rfl⟩ := Compiling.liftExcept_ok reading
  cases disc? with
  | none => exact (Compiling.throw_ok run).elim
  | some disc =>
    dsimp only at run
    obtain ⟨acc, last, folding, wrapping⟩ := Compiling.bind_ok run
    -- every target is registered, and looking it up changes nothing
    obtain ⟨-, ⟨-, stubbed⟩, -⟩ := Compiling.foldlM_keeps (Sound D) Registers
      Registers.refl (fun first second => first.trans second)
      (fun (_ : List (String × String × Caster) × List TypeHandle) (_ : Compiler) => True) (by
        rintro ⟨key, target⟩ - ⟨mapping, handles⟩ s1 acc' s2 - stepping s1Sound
        obtain ⟨⟨⟩, s3, registering, looking⟩ := Compiling.bind_ok stepping
        obtain ⟨keeps, -⟩ := (specs n).registerNamed registering s1Sound
        obtain ⟨hk', s4, lookup, wrapping'⟩ := Compiling.bind_ok looking
        obtain ⟨rfl, -⟩ := registered_ok lookup
        obtain ⟨-, rfl⟩ := Compiling.pure_ok wrapping'
        exact ⟨keeps.1, ⟨keeps.2, ih.registerNamed registering s1Sound⟩, trivial⟩)
      ([], []) middle acc last trivial folding sound
    obtain ⟨-, rfl⟩ := Compiling.pure_ok wrapping
    exact stubbed

theorem inheritanceParents_stubbed {name : String} {d : Definition} {s : Compiler}
    {parents : List String} {t : Compiler}
    (run : (inheritanceParents (n + 1) name d).run s = .ok (parents, t)) (sound : Sound D s)
    (placed : Placed D name d) (category : d.shapeCategory = .ok .multiInheritance) :
    Stubbed s t := by
  rw [inheritanceParents] at run
  obtain ⟨-, ⟨-, stubbed⟩, -⟩ := Compiling.mapM_keeps (Sound D) Registers
    Registers.refl (fun first second => first.trans second)
    (fun (_ : String) (_ : Compiler) => True) (fun _ _ _ _ _ => trivial) (by
      rintro ⟨part, ix⟩ member s1 parent s2 stepping s1Sound
      obtain ⟨partDefinition, s3, defining, categorizing⟩ := Compiling.bind_ok stepping
      obtain ⟨same, read⟩ := definitionOf_ok defining
      subst s3
      obtain ⟨c, s4, classifying, chosen⟩ := Compiling.bind_ok categorizing
      obtain ⟨same, partCategory⟩ := categoryOf_ok classifying
      subst s4
      have stub : ∀ {c : Category}, partDefinition.shapeCategory = .ok c →
          (do
            let _ ← anonymous n (name ++ "_Parent" ++ toString ix) partDefinition c
            pure (name ++ "_Parent" ++ toString ix) : Compiling String).run s1 =
            .ok (parent, s2) →
          Sound D s2 ∧ Registers s1 s2 ∧ True := by
        intro c fits registering
        obtain ⟨hk, s5, adopting, naming⟩ := Compiling.bind_ok registering
        have placedParent := Placed.parent placed category member read
        obtain ⟨keeps, -⟩ := (specs n).anonymous adopting s1Sound placedParent fits
        obtain ⟨-, rfl⟩ := Compiling.pure_ok naming
        exact ⟨keeps.1, ⟨keeps.2, ih.anonymous adopting s1Sound placedParent fits⟩, trivial⟩
      split at chosen
      · obtain ⟨⟨h, k⟩, s5, referring, choosing⟩ := Compiling.bind_ok chosen
        obtain ⟨keeps, -⟩ := (specs n).reference referring s1Sound
        have stubbed := ih.reference referring s1Sound
        dsimp only at choosing
        split at choosing
        · obtain ⟨-, rfl⟩ := Compiling.pure_ok choosing
          exact ⟨keeps.1, ⟨keeps.2, stubbed⟩, trivial⟩
        · exact (Compiling.throw_ok choosing).elim
      · exact stub (by rw [partCategory]) chosen
      · exact stub (by rw [partCategory]) chosen
      · exact (Compiling.throw_ok chosen).elim)
    s parents t run sound
  exact stubbed

end Succ

/-- Every registration function adds composite types only as stubs, at every bound. -/
theorem frames : ∀ n, Frames D n
  | 0 => frames_zero
  | n + 1 =>
    have ih := frames n
    { registerNamed := registerNamed_stubbed ih
      registerDefinition := registerDefinition_stubbed ih
      inheritanceParents := inheritanceParents_stubbed ih
      resolve := resolve_stubbed ih
      reference := reference_stubbed ih
      anonymous := anonymous_stubbed ih
      listOf := listOf_stubbed ih
      unionOf := unionOf_stubbed ih
      polymorphOf := polymorphOf_stubbed ih
      conditions := conditions_stubbed ih
      keyed := keyed_stubbed ih }

/-! ## The registration passes -/

/-- Registering every category in order adds composite types only as stubs. -/
theorem registerCategories_stubbed {fuel : Nat} {s t : Compiler}
    (run : (Category.order.forM (registerCategory fuel)).run s = .ok ((), t)) (sound : Sound D s) :
    Stubbed s t := by
  obtain ⟨-, ⟨-, stubbed⟩, -⟩ := Compiling.forM_keeps (Sound D) Registers Registers.refl
    (fun first second => first.trans second) (fun _ _ => True) (fun _ _ _ _ _ => trivial)
    (fun c _ middle middle' step middleSound => by
      unfold registerCategory at step
      have step := get_bind_ok step
      obtain ⟨after, registers, -⟩ := Compiling.forM_keeps (Sound D) Registers Registers.refl
        (fun first second => first.trans second) (fun _ _ => True) (fun _ _ _ _ _ => trivial)
        (fun n _ u u' registering uSound => by
          obtain ⟨keeps, -⟩ := (specs fuel).registerNamed registering uSound
          exact ⟨keeps.1, ⟨keeps.2, (frames fuel).registerNamed registering uSound⟩, trivial⟩)
        middle middle' step middleSound
      exact ⟨after, registers, trivial⟩)
    s t run sound
  exact stubbed

/-- Discovering the inline objects under the properties of custom types adds composite types
only as stubs. -/
theorem discoverNested_stubbed {fuel : Nat} :
    ∀ (rounds ix : Nat) (s t : Compiler), (discoverNested fuel ix rounds).run s = .ok ((), t) →
      Sound D s → Stubbed s t
  | 0, _, s, t, run, _ => by
    rw [discoverNested] at run
    obtain ⟨-, rfl⟩ := Compiling.pure_ok run
    exact .refl _
  | rounds + 1, ix, s, t, run, sound => by
    rw [discoverNested] at run
    have run := get_bind_ok run
    split at run
    · obtain ⟨-, rfl⟩ := Compiling.pure_ok run
      exact .refl _
    · next owner found =>
      obtain ⟨d, defined, placed, custom⟩ := sound.custom (List.mem_of_getElem? found)
      obtain ⟨⟨⟩, middle, discovering, rest⟩ := Compiling.bind_ok run
      obtain ⟨middleSound, ⟨-, stubbed⟩, -⟩ := Compiling.forM_keeps (Sound D) Registers
        Registers.refl (fun first second => first.trans second) (fun _ _ => True)
        (fun _ _ _ _ _ => trivial)
        (fun field member s s' step sound => by
          obtain ⟨property, schema⟩ := field
          dsimp only at step
          rw [defined] at member
          suffices registers : Sound D s' ∧ Registers s s' from
            ⟨registers.1, registers.2, trivial⟩
          -- only an inline custom object without a definition of its name is registered
          split at step
          · obtain ⟨-, rfl⟩ := Compiling.pure_ok step
            exact ⟨sound, .refl _⟩
          · next nested read =>
            split at step
            · obtain ⟨-, rfl⟩ := Compiling.pure_ok step
              exact ⟨sound, .refl _⟩
            · split at step
              · next fits =>
                have step := get_bind_ok step
                split at step
                · obtain ⟨-, rfl⟩ := Compiling.pure_ok step
                  exact ⟨sound, .refl _⟩
                · next undefined =>
                  obtain ⟨⟨⟩, adopted, adopting, registering⟩ := Compiling.bind_ok step
                  obtain ⟨adoptedSound, grows, resolving, sameRegistry, -⟩ := adopt_keeps
                    adopting sound (by simpa using undefined) (.property placed custom member read)
                    fits
                  obtain ⟨keeps, -⟩ := (specs fuel).registerNamed registering adoptedSound
                  exact ⟨keeps.1, (show Extends s adopted from ⟨grows, resolving⟩).trans keeps.2,
                    (Stubbed.of_composites (by rw [sameRegistry])).trans
                      ((frames fuel).registerNamed registering adoptedSound)⟩
              · obtain ⟨-, rfl⟩ := Compiling.pure_ok step
                exact ⟨sound, .refl _⟩)
        s middle discovering sound
      exact stubbed.trans (discoverNested_stubbed rounds (ix + 1) middle t rest middleSound)

end Compiler

end SchemaTypes
