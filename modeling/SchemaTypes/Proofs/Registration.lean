import SchemaTypes.Proofs.CompilerState

/-! # Registering names and resolving inline schemas

The registration functions call each other: registering a name registers the names its
definition refers to first, and resolving an inline schema may register it under a name of
its own. They share one bound on the depth of these calls, and each call goes one level
down, so their specifications are proved together by induction on the bound: `Specs D n`
holds the specification of every function at bound `n`, and `specs` proves it for every
bound from the one below.

Every function keeps the compilation sound, grows the state and leaves the names being
registered as they were (`Keeps`). On top of that, registering a name leaves it registered,
the parents of an inheritance are registered, and every handle and caster returned mentions
only types the registry holds and agree with each other (`Fine`); the handles of lists,
unions and polymorphs are never a composite type's, so that an entry with a composite handle
is always the composite type's own.

The definitions passed in sit at the names they are resolved under (`Placed`): that is what
makes every definition the compiler adopts sit at its name.
-/

namespace SchemaTypes.Compiler

variable {D : Document}

/-- The state grows and the names being registered are as they were. -/
def Extends (s t : Compiler) : Prop := Grows s t ∧ t.resolving = s.resolving

theorem Extends.refl (s : Compiler) : Extends s s := ⟨.refl s, rfl⟩

theorem Extends.trans {a b c : Compiler} (first : Extends a b) (second : Extends b c) :
    Extends a c :=
  ⟨first.1.trans second.1, second.2.trans first.2⟩

/-- A step keeps the compilation sound, grows the state and leaves the names being
registered as they were. -/
def Keeps (D : Document) (s t : Compiler) : Prop := Sound D t ∧ Extends s t

theorem Keeps.refl {s : Compiler} (sound : Sound D s) : Keeps D s s :=
  ⟨sound, .refl s, rfl⟩

theorem Keeps.trans {a b c : Compiler} (first : Keeps D a b) (second : Keeps D b c) :
    Keeps D a c :=
  ⟨second.1, first.2.1.trans second.2.1, second.2.2.trans first.2.2⟩

/-- The specification of every registration function at one bound on the depth of calls. -/
structure Specs (D : Document) (n : Nat) : Prop where
  registerNamed : ∀ {name : String} {s t : Compiler},
    (registerNamed n name).run s = .ok ((), t) → Sound D s →
    Keeps D s t ∧ t.registry.contains name = true
  registerDefinition : ∀ {name : String} {d : Definition} {c : Category} {rest : List String}
    {s t : Compiler}, (registerDefinition n name d c).run s = .ok ((), t) → Sound D s →
    s.resolving = name :: rest → s.definition? name = some d → (name, c) ∈ s.categories →
    Sound D { t with resolving := rest } ∧ Grows s t ∧ t.resolving = s.resolving ∧
      t.registry.contains name = true
  inheritanceParents : ∀ {name : String} {d : Definition} {s : Compiler} {parents : List String}
    {t : Compiler}, (inheritanceParents n name d).run s = .ok (parents, t) → Sound D s →
    Placed D name d → d.shapeCategory = .ok .multiInheritance →
    Keeps D s t ∧ ∀ p ∈ parents, t.registry.contains p = true
  resolve : ∀ {d : Definition} {hint : String} {s : Compiler} {hk : TypeHandle × Caster}
    {t : Compiler}, (resolve n d hint).run s = .ok (hk, t) → Sound D s → Placed D hint d →
    Keeps D s t ∧ Fine t.registry hk.1 hk.2
  reference : ∀ {d : Definition} {context : String} {s : Compiler} {hk : TypeHandle × Caster}
    {t : Compiler}, (reference n d context).run s = .ok (hk, t) → Sound D s →
    Keeps D s t ∧ Fine t.registry hk.1 hk.2
  anonymous : ∀ {name : String} {d : Definition} {c : Category} {s : Compiler}
    {hk : TypeHandle × Caster} {t : Compiler}, (anonymous n name d c).run s = .ok (hk, t) →
    Sound D s → Placed D name d → d.shapeCategory = .ok c →
    Keeps D s t ∧ Fine t.registry hk.1 hk.2 ∧ t.registry.contains name = true
  listOf : ∀ {d : Definition} {name : String} {s : Compiler} {hk : TypeHandle × Caster}
    {t : Compiler}, (listOf n d name).run s = .ok (hk, t) → Sound D s → Placed D name d →
    d.shapeCategory = .ok .list →
    Keeps D s t ∧ Fine t.registry hk.1 hk.2 ∧ ∀ m, hk.1 ≠ .composite m
  unionOf : ∀ {d : Definition} {name : String} {s : Compiler} {hk : TypeHandle × Caster}
    {t : Compiler}, (unionOf n d name).run s = .ok (hk, t) → Sound D s → Placed D name d →
    d.shapeCategory = .ok .union →
    Keeps D s t ∧ Fine t.registry hk.1 hk.2 ∧ ∀ m, hk.1 ≠ .composite m
  polymorphOf : ∀ {d : Definition} {name : String} {s : Compiler} {hk : TypeHandle × Caster}
    {t : Compiler}, (polymorphOf n d name).run s = .ok (hk, t) → Sound D s → Placed D name d →
    d.shapeCategory = .ok .polymorph →
    Keeps D s t ∧ Fine t.registry hk.1 hk.2 ∧ ∀ m, hk.1 ≠ .composite m
  conditions : ∀ {name : String} {parts : List Json} {d : Definition} {s : Compiler}
    {branches : List ((List (String × Value) × String × Caster) × TypeHandle)} {t : Compiler},
    (conditions n name parts).run s = .ok (branches, t) → Sound D s → Placed D name d →
    d.shapeCategory = .ok .polymorph → d.allOf? = some parts →
    Keeps D s t ∧ ∀ b ∈ branches, Fine t.registry b.2 b.1.2.2
  keyed : ∀ {name : String} {d : Definition} {s : Compiler} {hk : TypeHandle × Caster}
    {t : Compiler}, (keyed n name d).run s = .ok (hk, t) → Sound D s →
    Keeps D s t ∧ Fine t.registry hk.1 hk.2 ∧ hk.2.isPolymorph = true ∧
      ∀ m, hk.1 ≠ .composite m

/-- At bound zero every registration function gives up. -/
theorem specs_zero : Specs D 0 where
  registerNamed run := by rw [registerNamed] at run; exact (Compiling.throw_ok run).elim
  registerDefinition run := by rw [registerDefinition] at run; exact (Compiling.throw_ok run).elim
  inheritanceParents run := by rw [inheritanceParents] at run; exact (Compiling.throw_ok run).elim
  resolve run := by rw [resolve] at run; exact (Compiling.throw_ok run).elim
  reference run := by rw [reference] at run; exact (Compiling.throw_ok run).elim
  anonymous run := by rw [anonymous] at run; exact (Compiling.throw_ok run).elim
  listOf run := by rw [listOf] at run; exact (Compiling.throw_ok run).elim
  unionOf run := by rw [unionOf] at run; exact (Compiling.throw_ok run).elim
  polymorphOf run := by rw [polymorphOf] at run; exact (Compiling.throw_ok run).elim
  conditions run := by rw [conditions] at run; exact (Compiling.throw_ok run).elim
  keyed run := by rw [keyed] at run; exact (Compiling.throw_ok run).elim

/-- Registering a name under a computed handle and caster, after a step that kept the
compilation sound. -/
theorem register_after {name : String} {d : Definition} {c : Category} {rest : List String}
    {h : TypeHandle} {k : Caster} {s middle t : Compiler}
    (registering : (updateRegistry (·.register ⟨name, h, k, d, c⟩)).run middle = .ok ((), t))
    (keeps : Keeps D s middle) (resolving : s.resolving = name :: rest)
    (defined : s.definition? name = some d) (category : d.shapeCategory = .ok c)
    (fine : Fine middle.registry h k) (notComposite : ∀ m, h ≠ .composite m) :
    Sound D { t with resolving := rest } ∧ Grows s t ∧ t.resolving = s.resolving ∧
      t.registry.contains name = true := by
  obtain ⟨middleSound, grows, sameResolving⟩ := keeps
  obtain ⟨after, grown, same, registered⟩ := register_keeps registering middleSound
    (sameResolving.trans resolving) (grows.found defined) category fine notComposite
  exact ⟨after, grows.trans grown, same.trans sameResolving, registered⟩

/-! ## Registering a name -/

section Succ

variable {n : Nat} (ih : Specs D n)
include ih

/-- The end of a registration: the name is marked as being registered, its definition is
registered, and the mark is taken off again. -/
theorem push_register_pop {name : String} {d : Definition} {c : Category} {s t : Compiler}
    (run : (do
      modify fun (s : Compiler) => { s with resolving := name :: s.resolving }
      registerDefinition n name d c
      modify fun (s : Compiler) => { s with resolving := s.resolving.drop 1 } :
        Compiling Unit).run s = .ok ((), t))
    (sound : Sound D s) (fresh : s.registry.contains name = false) (outside : name ∉ s.resolving)
    (defined : s.definition? name = some d) (categorized : (name, c) ∈ s.categories) :
    Keeps D s t ∧ t.registry.contains name = true := by
  obtain ⟨⟨⟩, pushed, push, run⟩ := Compiling.bind_ok run
  obtain ⟨⟨⟩, registeredState, registration, pop⟩ := Compiling.bind_ok run
  simp only [Compiling.run_modify, Except.ok.injEq, Prod.mk.injEq, true_and] at push pop
  subst push pop
  obtain ⟨after, grows, sameResolving, registered⟩ :=
    ih.registerDefinition registration (sound.push fresh outside) rfl defined categorized
  have popped : registeredState.resolving.drop 1 = s.resolving := by
    rw [sameResolving]; rfl
  refine ⟨⟨?_, ⟨grows.definitions, grows.groups, grows.entries, grows.compositeNames,
    grows.enumNames⟩, popped⟩, registered⟩
  rw [popped]
  exact after

/-- Registering a name keeps the compilation sound and leaves the name registered. -/
theorem registerNamed_keeps {name : String} {s t : Compiler}
    (run : (registerNamed (n + 1) name).run s = .ok ((), t)) (sound : Sound D s) :
    Keeps D s t ∧ t.registry.contains name = true := by
  rw [registerNamed] at run
  have run := get_bind_ok run
  dsimp only at run
  by_cases registered : s.registry.contains name = true
  · simp only [registered, if_true] at run
    obtain ⟨-, rfl⟩ := Compiling.pure_ok run
    exact ⟨.refl sound, registered⟩
  simp only [registered, if_false, Bool.false_eq_true] at run
  by_cases circular : s.resolving.contains name = true
  · simp only [circular, if_true] at run
    obtain ⟨_, _, thrown, -⟩ := Compiling.bind_ok run
    exact (Compiling.throw_ok thrown).elim
  simp only [circular, if_false, Bool.false_eq_true] at run
  have outside : name ∉ s.resolving := by simpa using circular
  cases defined : s.definition? name with
  | none =>
    simp only [defined] at run
    exact (Compiling.throw_ok run).elim
  | some d =>
    simp only [defined] at run
    obtain ⟨c, found, member⟩ := sound.category_found defined
    simp only [found, pure_bind] at run
    exact push_register_pop ih run sound (by simpa using registered) outside defined member

/-- Registering a definition registers its name, keeping the compilation sound once the
name is no longer being registered. -/
theorem registerDefinition_keeps {name : String} {d : Definition} {c : Category}
    {rest : List String} {s t : Compiler}
    (run : (registerDefinition (n + 1) name d c).run s = .ok ((), t)) (sound : Sound D s)
    (resolving : s.resolving = name :: rest) (defined : s.definition? name = some d)
    (categorized : (name, c) ∈ s.categories) :
    Sound D { t with resolving := rest } ∧ Grows s t ∧ t.resolving = s.resolving ∧
      t.registry.contains name = true := by
  obtain ⟨d', defined', category⟩ := sound.categorized name c categorized
  rw [defined] at defined'
  cases defined'
  have grouped := (sound.grouped name c).mpr categorized
  have placed := sound.placed_of_definition? defined
  cases c with
  | native =>
    rw [registerDefinition] at run
    obtain ⟨hk, middle, computed, registering⟩ := Compiling.bind_ok run
    obtain ⟨rfl, kind, rfl⟩ := native_ok computed
    exact register_after registering (.refl sound) resolving defined category
      ⟨by simp [Registry.Covers, TypeHandle.mentions, Caster.mentions], .native kind⟩ (by simp)
  | enumeration =>
    rw [registerDefinition] at run
    obtain ⟨et, middle, lifted, registering⟩ := Compiling.bind_ok run
    obtain ⟨read, rfl⟩ := Compiling.liftExcept_ok lifted
    obtain ⟨named, members, distinct⟩ := EnumType.ofDefinition_ok read
    exact registerEnum_keeps registering sound resolving defined category named members distinct
  | custom =>
    rw [registerDefinition] at run
    exact registerComposite_keeps run sound resolving defined category
      (by simp [Composite.empty, Composite.parents]) (by simp) ⟨fun _ => grouped, by simp, by simp⟩
  | passthrough =>
    rw [registerDefinition] at run
    cases target? : d.referenceName? with
    | none =>
      simp only [target?] at run
      exact (Compiling.throw_ok run).elim
    | some target =>
      simp only [target?] at run
      obtain ⟨⟨⟩, middle, registering, looking⟩ := Compiling.bind_ok run
      obtain ⟨keeps, registered⟩ := ih.registerNamed registering sound
      obtain ⟨e, last, lookup, chosen⟩ := Compiling.bind_ok (get_bind_ok looking)
      obtain ⟨found, rfl⟩ := Compiling.liftExcept_ok lookup
      obtain ⟨member, named⟩ := Registry.entry_ok found
      have middleSound := keeps.1
      split at chosen
      · next parent handle =>
        -- a passthrough to a composite type is a composite type with that parent
        have parentNamed := middleSound.registry.compositeHandles e member parent handle
        have covered := middleSound.registry.entriesCovered e member
        rw [handle] at covered
        obtain ⟨after, grows, same, contains⟩ := registerComposite_keeps chosen middleSound
          (keeps.2.2.trans resolving) (keeps.2.1.found defined) category
          (by simpa [Composite.empty, Composite.parents, parentNamed, named] using registered)
          (fun p kindIs => by
            cases kindIs
            exact covered (.composite parent) (by simp [TypeHandle.mentions]))
          ⟨(by intro kindIs; cases kindIs), fun _ _ => (keeps.2.1.groups _).subset grouped,
            (by intro _ kindIs; cases kindIs)⟩
        exact ⟨after, keeps.2.1.trans grows, same.trans keeps.2.2, contains⟩
      · next notComposite =>
        exact register_after chosen keeps resolving defined category
          ⟨(middleSound.registry.entriesCovered e member),
            middleSound.registry.entriesAgree e member⟩ notComposite
  | multiInheritance =>
    rw [registerDefinition] at run
    obtain ⟨parents, middle, inheriting, run⟩ := Compiling.bind_ok run
    obtain ⟨keeps, registered⟩ := ih.inheritanceParents inheriting sound placed category
    obtain ⟨after, grows, same, contains⟩ := registerComposite_keeps run keeps.1
      (keeps.2.2.trans resolving) (keeps.2.1.found defined) category
      (by simpa [Composite.empty, Composite.parents] using registered)
      (by intro _ kindIs; cases kindIs)
      ⟨(by intro kindIs; cases kindIs), (by intro _ kindIs; cases kindIs),
        fun _ _ => (keeps.2.1.groups _).subset grouped⟩
    exact ⟨after, keeps.2.1.trans grows, same.trans keeps.2.2, contains⟩
  | list =>
    rw [registerDefinition] at run
    obtain ⟨hk, middle, computed, registering⟩ := Compiling.bind_ok run
    obtain ⟨keeps, fine, notComposite⟩ := ih.listOf computed sound placed category
    exact register_after registering keeps resolving defined category fine notComposite
  | union =>
    rw [registerDefinition] at run
    obtain ⟨hk, middle, computed, registering⟩ := Compiling.bind_ok run
    obtain ⟨keeps, fine, notComposite⟩ := ih.unionOf computed sound placed category
    exact register_after registering keeps resolving defined category fine notComposite
  | polymorph =>
    rw [registerDefinition] at run
    obtain ⟨hk, middle, computed, registering⟩ := Compiling.bind_ok run
    obtain ⟨keeps, fine, notComposite⟩ := ih.polymorphOf computed sound placed category
    exact register_after registering keeps resolving defined category fine notComposite

/-- Resolving a reference registers its target and gives the target's handle and caster. -/
theorem reference_keeps {d : Definition} {context : String} {s : Compiler}
    {hk : TypeHandle × Caster} {t : Compiler}
    (run : (reference (n + 1) d context).run s = .ok (hk, t)) (sound : Sound D s) :
    Keeps D s t ∧ Fine t.registry hk.1 hk.2 := by
  rw [reference] at run
  cases target? : d.referenceName? with
  | none =>
    simp only [target?] at run
    exact (Compiling.throw_ok run).elim
  | some target =>
    simp only [target?] at run
    obtain ⟨⟨⟩, middle, registering, looking⟩ := Compiling.bind_ok run
    obtain ⟨keeps, -⟩ := ih.registerNamed registering sound
    obtain ⟨rfl, fine⟩ := registered_fine looking keeps.1
    exact ⟨keeps, fine⟩

/-- An inline definition is registered under its name, adopted first when the name has no
definition yet, and the name's entry gives the handle and caster. -/
theorem anonymous_keeps {name : String} {d : Definition} {c : Category} {s : Compiler}
    {hk : TypeHandle × Caster} {t : Compiler}
    (run : (anonymous (n + 1) name d c).run s = .ok (hk, t)) (sound : Sound D s)
    (placed : Placed D name d) (category : d.shapeCategory = .ok c) :
    Keeps D s t ∧ Fine t.registry hk.1 hk.2 ∧ t.registry.contains name = true := by
  rw [anonymous] at run
  have run := get_bind_ok run
  dsimp only at run
  have finish : ∀ {middle : Compiler}, Keeps D s middle → middle.registry.contains name = true →
      (Compiler.registered name).run middle = .ok (hk, t) →
      Keeps D s t ∧ Fine t.registry hk.1 hk.2 ∧ t.registry.contains name = true := by
    intro middle keeps contained looking
    obtain ⟨rfl, fine⟩ := registered_fine looking keeps.1
    exact ⟨keeps, fine, contained⟩
  by_cases registered : s.registry.contains name = true
  · simp only [registered, Bool.not_true, Bool.false_eq_true, if_false] at run
    exact finish (.refl sound) registered run
  simp only [registered, Bool.not_false, if_true] at run
  split at run
  · next undefined =>
    obtain ⟨⟨⟩, adopted, adopting, run⟩ := Compiling.bind_ok run
    obtain ⟨⟨⟩, middle, registering, looking⟩ := Compiling.bind_ok run
    obtain ⟨adoptedSound, grows, same, -, -⟩ :=
      adopt_keeps adopting sound (Option.isNone_iff_eq_none.mp undefined) placed category
    obtain ⟨keeps, contained⟩ := ih.registerNamed registering adoptedSound
    exact finish (Keeps.trans ⟨adoptedSound, grows, same⟩ keeps) contained looking
  · obtain ⟨⟨⟩, middle, registering, looking⟩ := Compiling.bind_ok run
    obtain ⟨keeps, contained⟩ := ih.registerNamed registering sound
    exact finish keeps contained looking

/-- Resolving an inline definition by its category. -/
theorem resolve_keeps {d : Definition} {hint : String} {s : Compiler}
    {hk : TypeHandle × Caster} {t : Compiler}
    (run : (resolve (n + 1) d hint).run s = .ok (hk, t)) (sound : Sound D s)
    (placed : Placed D hint d) : Keeps D s t ∧ Fine t.registry hk.1 hk.2 := by
  rw [resolve] at run
  by_cases unconstrained : d.isUnconstrained = true
  · simp only [unconstrained, if_true] at run
    obtain ⟨rfl, rfl⟩ := Compiling.pure_ok run
    exact ⟨.refl sound, fine_any _⟩
  simp only [unconstrained, if_false, Bool.false_eq_true] at run
  obtain ⟨c, middle, categorizing, chosen⟩ := Compiling.bind_ok run
  obtain ⟨rfl, category⟩ := categoryOf_ok categorizing
  split at chosen
  · exact ih.reference chosen sound
  · obtain ⟨rfl, kind, rfl⟩ := native_ok chosen
    exact ⟨.refl sound, fine_native _ kind⟩
  · obtain ⟨keeps, fine, -⟩ := ih.listOf chosen sound placed category
    exact ⟨keeps, fine⟩
  · obtain ⟨keeps, fine, -⟩ := ih.unionOf chosen sound placed category
    exact ⟨keeps, fine⟩
  · obtain ⟨keeps, fine, -⟩ := ih.polymorphOf chosen sound placed category
    exact ⟨keeps, fine⟩
  · obtain ⟨keeps, fine, -⟩ := ih.anonymous chosen sound placed category
    exact ⟨keeps, fine⟩

/-- A list type: its items are any value, or the schema under `items` resolved as
`Name_Item`. -/
theorem listOf_keeps {d : Definition} {name : String} {s : Compiler}
    {hk : TypeHandle × Caster} {t : Compiler}
    (run : (listOf (n + 1) d name).run s = .ok (hk, t)) (sound : Sound D s)
    (placed : Placed D name d) (category : d.shapeCategory = .ok .list) :
    Keeps D s t ∧ Fine t.registry hk.1 hk.2 ∧ ∀ m, hk.1 ≠ .composite m := by
  rw [listOf] at run
  have listed : ∀ (item : TypeHandle × Caster) {middle : Compiler}, Keeps D s middle →
      Fine middle.registry item.1 item.2 →
      (pure (item.1.list, item.2.list) : Compiling _).run middle = .ok (hk, t) →
      Keeps D s t ∧ Fine t.registry hk.1 hk.2 ∧ ∀ m, hk.1 ≠ .composite m := by
    intro item middle keeps fine listing
    obtain ⟨rfl, rfl⟩ := Compiling.pure_ok listing
    exact ⟨keeps, ⟨fine.1, .list fine.2⟩, by simp⟩
  split at run
  · obtain ⟨item, middle, first, rest⟩ := Compiling.bind_ok run
    obtain ⟨rfl, rfl⟩ := Compiling.pure_ok first
    exact listed (.any, .identity) (.refl sound) (fine_any _) rest
  · obtain ⟨item, middle, first, rest⟩ := Compiling.bind_ok run
    obtain ⟨rfl, rfl⟩ := Compiling.pure_ok first
    exact listed (.any, .identity) (.refl sound) (fine_any _) rest
  · next items notTrue found =>
    dsimp only at run
    obtain ⟨itemDefinition, middle, defining, resolvingItem⟩ := Compiling.bind_ok run
    obtain ⟨rfl, read⟩ := definitionOf_ok defining
    obtain ⟨item, last, resolving, rest⟩ := Compiling.bind_ok resolvingItem
    obtain ⟨keeps, fine⟩ := ih.resolve resolving sound (.item placed category found notTrue read)
    exact listed item keeps fine rest

/-- A union type: the alternatives other than `null`, resolved as `Name_OptionN`; optional
when `null` is among them, and the one other alternative itself when it is the only one. -/
theorem unionOf_keeps {d : Definition} {name : String} {s : Compiler}
    {hk : TypeHandle × Caster} {t : Compiler}
    (run : (unionOf (n + 1) d name).run s = .ok (hk, t)) (sound : Sound D s)
    (placed : Placed D name d) (category : d.shapeCategory = .ok .union) :
    Keeps D s t ∧ Fine t.registry hk.1 hk.2 ∧ ∀ m, hk.1 ≠ .composite m := by
  rw [unionOf] at run
  obtain ⟨members, middle, collecting, choosing⟩ := Compiling.bind_ok run
  obtain ⟨middleSound, extended, fines⟩ := Compiling.filterMapM_keeps (Sound D) Extends
    Extends.refl (fun first second => first.trans second)
    (fun (m : TypeHandle × Caster) (t : Compiler) => Fine t.registry m.1 m.2)
    (fun _ _ _ fine grows => grows.1.fine fine) (by
      rintro ⟨alternative, ix⟩ member s1 result s2 stepping s1Sound
      dsimp only at stepping
      split at stepping
      · obtain ⟨rfl, rfl⟩ := Compiling.pure_ok stepping
        exact ⟨s1Sound, .refl _, by simp⟩
      · next notNull =>
        obtain ⟨option, s3, defining, resolvingOption⟩ := Compiling.bind_ok stepping
        obtain ⟨rfl, read⟩ := definitionOf_ok defining
        obtain ⟨m, s4, resolving, wrapping⟩ := Compiling.bind_ok resolvingOption
        obtain ⟨rfl, rfl⟩ := Compiling.pure_ok wrapping
        obtain ⟨keeps, fine⟩ := ih.resolve resolving s1Sound
          (.option placed category member (by simpa using notNull) read)
        exact ⟨keeps.1, keeps.2, fun y same => by cases same; exact fine⟩)
    s members middle collecting sound
  have keeps : Keeps D s middle := ⟨middleSound, extended⟩
  have handles : middle.registry.Covers (TypeHandle.mentionsAll (members.map (·.1))) := by
    intro m mentioned
    obtain ⟨h, member, inside⟩ := TypeHandle.mem_mentionsAll.mp mentioned
    obtain ⟨pair, memberPair, rfl⟩ := List.mem_map.mp member
    exact (fines pair memberPair).1 m (List.mem_append_left _ inside)
  have covered : middle.registry.Covers
      ((TypeHandle.union (members.map (·.1))).mentions ++ Caster.identity.mentions) := by
    simpa [TypeHandle.mentions, Caster.mentions] using handles
  split at choosing
  · next _ _ h k _ =>
    obtain ⟨rfl, rfl⟩ := Compiling.pure_ok choosing
    have fine := fines (h, k) (by simp)
    refine ⟨keeps, ⟨by simpa using fine.1, fine.2.orNull⟩, ?_⟩
    intro m
    cases h <;> simp [TypeHandle.orNull]
  · obtain ⟨rfl, rfl⟩ := Compiling.pure_ok choosing
    refine ⟨keeps, ?_, ?_⟩
    · dsimp only
      split
      · exact ⟨by simpa using covered, (Agree.plain _).orNull⟩
      · exact ⟨covered, .plain _⟩
    · intro m
      dsimp only
      split <;> simp [TypeHandle.orNull]

/-- The branches of a conditional polymorph: each part's constants and its `then` part,
resolved as `Name_OptionN`. -/
theorem conditions_keeps {name : String} {parts : List Json} {d : Definition} {s : Compiler}
    {branches : List ((List (String × Value) × String × Caster) × TypeHandle)} {t : Compiler}
    (run : (conditions (n + 1) name parts).run s = .ok (branches, t)) (sound : Sound D s)
    (placed : Placed D name d) (category : d.shapeCategory = .ok .polymorph)
    (parts? : d.allOf? = some parts) :
    Keeps D s t ∧ ∀ b ∈ branches, Fine t.registry b.2 b.1.2.2 := by
  rw [conditions] at run
  obtain ⟨finalSound, extended, fines⟩ := Compiling.mapM_keeps (Sound D) Extends
    Extends.refl (fun first second => first.trans second)
    (fun (b : (List (String × Value) × String × Caster) × TypeHandle) (t : Compiler) =>
      Fine t.registry b.2 b.1.2.2)
    (fun _ _ _ fine grows => grows.1.fine fine) (by
      rintro ⟨part, ix⟩ member s1 b s2 stepping s1Sound
      dsimp only at stepping
      split at stepping
      · next fields found =>
        obtain ⟨constants, s3, folding, rest⟩ := Compiling.bind_ok stepping
        -- reading the constants only reads the schema
        obtain ⟨-, unchanged, -⟩ := Compiling.foldlM_keeps (fun _ => True) (· = ·)
          (fun _ => rfl) (fun first second => first.trans second) (fun _ _ => True) (by
            rintro ⟨field, schema⟩ - acc s5 acc' s6 - stepping' -
            dsimp only at stepping'
            split at stepping'
            · obtain ⟨-, rfl⟩ := Compiling.pure_ok stepping'
              exact ⟨trivial, rfl, trivial⟩
            · exact (Compiling.throw_ok stepping').elim) [] s1 constants s3 trivial folding trivial
        subst unchanged
        obtain ⟨thenPart, s4, defining, resolvingThen⟩ := Compiling.bind_ok rest
        obtain ⟨rfl, read⟩ := definitionOf_ok defining
        obtain ⟨hk, s5, resolving, wrapping⟩ := Compiling.bind_ok resolvingThen
        obtain ⟨rfl, rfl⟩ := Compiling.pure_ok wrapping
        obtain ⟨keeps, fine⟩ := ih.resolve resolving s1Sound
          (.branch placed category parts? member read)
        exact ⟨keeps.1, keeps.2, fine⟩
      · exact (Compiling.throw_ok stepping).elim)
    s branches t run sound
  exact ⟨⟨finalSound, extended⟩, fines⟩

/-- A polymorph: conditional on its `allOf` parts, or keyed by its discriminator. Its handle
is the union of the branches' handles, and every branch's caster agrees with one of them. -/
theorem polymorphOf_keeps {d : Definition} {name : String} {s : Compiler}
    {hk : TypeHandle × Caster} {t : Compiler}
    (run : (polymorphOf (n + 1) d name).run s = .ok (hk, t)) (sound : Sound D s)
    (placed : Placed D name d) (category : d.shapeCategory = .ok .polymorph) :
    Keeps D s t ∧ Fine t.registry hk.1 hk.2 ∧ ∀ m, hk.1 ≠ .composite m := by
  rw [polymorphOf] at run
  split at run
  · next parts parts? =>
    obtain ⟨branches, middle, branching, wrapping⟩ := Compiling.bind_ok run
    obtain ⟨keeps, fines⟩ := ih.conditions branching sound placed category parts?
    have covered : middle.registry.Covers
        ((TypeHandle.union (branches.map (·.2))).mentions ++
          (Caster.conditional (branches.map (·.1))).mentions) := by
      intro m mentioned
      rcases List.mem_append.mp mentioned with inHandle | inCaster
      · obtain ⟨h, member, inside⟩ := TypeHandle.mem_mentionsAll.mp inHandle
        obtain ⟨b, memberB, rfl⟩ := List.mem_map.mp member
        exact (fines b memberB).1 m (List.mem_append_left _ inside)
      · obtain ⟨branch, memberBranch, inside⟩ := Caster.mem_branchMentions inCaster
        obtain ⟨b, memberB, rfl⟩ := List.mem_map.mp memberBranch
        exact (fines b memberB).1 m (List.mem_append_right _ inside)
    have agree : Agree (.union (branches.map (·.2))) (.conditional (branches.map (·.1))) := by
      refine Agree.ofBranches rfl ?_
      intro k member
      simp only [Caster.branchCasters, List.map_map] at member
      obtain ⟨b, memberB, rfl⟩ := List.mem_map.mp member
      exact ⟨b.2, List.mem_map_of_mem memberB, (fines b memberB).2⟩
    obtain ⟨rfl, rfl⟩ := Compiling.pure_ok wrapping
    exact ⟨keeps, ⟨covered, agree⟩, by simp⟩
  · obtain ⟨keeps, fine, -, notComposite⟩ := ih.keyed run sound
    exact ⟨keeps, fine, notComposite⟩

/-- A keyed polymorph: every target of the discriminator is registered, and its caster is
mapped from its key; the handles of the targets, without repeats, make the union. -/
theorem keyed_keeps {name : String} {d : Definition} {s : Compiler}
    {hk : TypeHandle × Caster} {t : Compiler}
    (run : (keyed (n + 1) name d).run s = .ok (hk, t)) (sound : Sound D s) :
    Keeps D s t ∧ Fine t.registry hk.1 hk.2 ∧ hk.2.isPolymorph = true ∧
      ∀ m, hk.1 ≠ .composite m := by
  rw [keyed] at run
  obtain ⟨disc?, middle, reading, run⟩ := Compiling.bind_ok run
  obtain ⟨-, rfl⟩ := Compiling.liftExcept_ok reading
  cases disc? with
  | none => exact (Compiling.throw_ok run).elim
  | some disc =>
    dsimp only at run
    obtain ⟨acc, last, folding, wrapping⟩ := Compiling.bind_ok run
    -- the mapping's casters agree with handles collected so far, all of which the registry covers
    obtain ⟨lastSound, extended, collected⟩ := Compiling.foldlM_keeps (Sound D) Extends
      Extends.refl (fun first second => first.trans second)
      (fun (acc : List (String × String × Caster) × List TypeHandle) (t : Compiler) =>
        (∀ e ∈ acc.1, t.registry.Covers e.2.2.mentions ∧ ∃ h ∈ acc.2, Agree h e.2.2) ∧
          ∀ h ∈ acc.2, t.registry.Covers h.mentions) (by
        rintro ⟨key, target⟩ - ⟨mapping, handles⟩ s1 acc' s2 ⟨entries, covers⟩ stepping s1Sound
        obtain ⟨⟨⟩, s3, registering, looking⟩ := Compiling.bind_ok stepping
        obtain ⟨keeps, -⟩ := ih.registerNamed registering s1Sound
        obtain ⟨hk', s4, lookup, wrapping'⟩ := Compiling.bind_ok looking
        obtain ⟨rfl, fine⟩ := registered_fine lookup keeps.1
        obtain ⟨rfl, rfl⟩ := Compiling.pure_ok wrapping'
        have grows := keeps.2.1
        refine ⟨keeps.1, keeps.2, ?_, ?_⟩
        · intro e member
          -- the new entry replaces one of the same key, or comes last
          have cases' : e = (key, branchTarget hk'.1 target, hk'.2) ∨ e ∈ mapping := by
            dsimp only at member
            split at member
            · obtain ⟨x, old, rfl⟩ := List.mem_map.mp member
              split
              · exact .inl rfl
              · exact .inr old
            · rcases List.mem_append.mp member with old | new
              · exact .inr old
              · exact .inl (List.mem_singleton.mp new)
          have present : hk'.1 ∈ (if handles.any hk'.1.same then handles else handles ++ [hk'.1]) := by
            split
            · next found =>
              obtain ⟨h, member, same⟩ := List.any_eq_true.mp found
              rw [TypeHandle.eq_of_same _ _ same]
              exact member
            · exact List.mem_append_right _ (List.mem_singleton_self _)
          have kept : ∀ h ∈ handles, h ∈ (if handles.any hk'.1.same then handles else handles ++ [hk'.1]) := by
            intro h member
            split
            · exact member
            · exact List.mem_append_left _ member
          rcases cases' with rfl | old
          · exact ⟨fun m mentioned => fine.1 m (List.mem_append_right _ mentioned),
              hk'.1, present, fine.2⟩
          · obtain ⟨coveredOld, h, member, agree⟩ := entries e old
            exact ⟨grows.covers coveredOld, h, kept h member, agree⟩
        · intro h member
          dsimp only at member
          split at member
          · exact grows.covers (covers h member)
          · rcases List.mem_append.mp member with old | new
            · exact grows.covers (covers h old)
            · rw [List.mem_singleton.mp new]
              exact fun m mentioned => fine.1 m (List.mem_append_left _ mentioned))
      ([], []) middle acc last ⟨by simp, by simp⟩ folding sound
    obtain ⟨mapping, handles⟩ := acc
    obtain ⟨entries, covers⟩ := collected
    obtain ⟨rfl, rfl⟩ := Compiling.pure_ok wrapping
    refine ⟨⟨lastSound, extended⟩, ⟨?_, ?_⟩, rfl, by simp⟩
    · intro m mentioned
      rcases List.mem_append.mp mentioned with inHandle | inCaster
      · obtain ⟨h, member, inside⟩ := TypeHandle.mem_mentionsAll.mp inHandle
        exact covers h member m inside
      · obtain ⟨e, member, inside⟩ := Caster.mem_mappingMentions inCaster
        exact (entries e member).1 m inside
    · refine Agree.ofBranches rfl ?_
      intro k member
      obtain ⟨e, memberE, rfl⟩ := List.mem_map.mp member
      exact (entries e memberE).2

/-- The parents of an inheritance: composite types its references name, and inline objects
registered as `Name_ParentN`. -/
theorem inheritanceParents_keeps {name : String} {d : Definition} {s : Compiler}
    {parents : List String} {t : Compiler}
    (run : (inheritanceParents (n + 1) name d).run s = .ok (parents, t)) (sound : Sound D s)
    (placed : Placed D name d) (category : d.shapeCategory = .ok .multiInheritance) :
    Keeps D s t ∧ ∀ p ∈ parents, t.registry.contains p = true := by
  rw [inheritanceParents] at run
  obtain ⟨finalSound, extended, registered⟩ := Compiling.mapM_keeps (Sound D) Extends
    Extends.refl (fun first second => first.trans second)
    (fun (p : String) (t : Compiler) => t.registry.contains p = true)
    (fun _ _ _ contained grows => grows.1.contains contained) (by
      rintro ⟨part, ix⟩ member s1 parent s2 stepping s1Sound
      obtain ⟨partDefinition, s3, defining, categorizing⟩ := Compiling.bind_ok stepping
      obtain ⟨same, read⟩ := definitionOf_ok defining
      subst s3
      obtain ⟨c, s4, classifying, chosen⟩ := Compiling.bind_ok categorizing
      obtain ⟨same, partCategory⟩ := categoryOf_ok classifying
      subst s4
      have stub : ∀ {c : Category}, partDefinition.shapeCategory = .ok c →
          (do
            let _ ← anonymous n (name ++ "_Parent" ++ toString ix) partDefinition c
            pure (name ++ "_Parent" ++ toString ix) : Compiling String).run s1 =
            .ok (parent, s2) →
          Sound D s2 ∧ Extends s1 s2 ∧ s2.registry.contains parent = true := by
        intro c fits registering
        obtain ⟨hk, s5, adopting, naming⟩ := Compiling.bind_ok registering
        obtain ⟨keeps, -, contained⟩ := ih.anonymous adopting s1Sound
          (.parent placed category member read) fits
        obtain ⟨rfl, rfl⟩ := Compiling.pure_ok naming
        exact ⟨keeps.1, keeps.2, contained⟩
      split at chosen
      · obtain ⟨⟨h, k⟩, s5, referring, choosing⟩ := Compiling.bind_ok chosen
        obtain ⟨keeps, fine⟩ := ih.reference referring s1Sound
        dsimp only at choosing
        split at choosing
        · next _ _ parentName =>
          obtain ⟨rfl, rfl⟩ := Compiling.pure_ok choosing
          -- a reference to a composite type names a registered composite type
          have covered := fine.1 (.composite parent)
            (List.mem_append_left _ (by simp [TypeHandle.mentions]))
          exact ⟨keeps.1, keeps.2, keeps.1.registry.compositesRegistered _ covered⟩
        · exact (Compiling.throw_ok choosing).elim
      · next fits => exact stub (by rw [partCategory]) chosen
      · exact stub (by rw [partCategory]) chosen
      · exact (Compiling.throw_ok chosen).elim)
    s parents t run sound
  exact ⟨⟨finalSound, extended⟩, registered⟩

end Succ

/-- Every registration function meets its specification at every bound. -/
theorem specs : ∀ n, Specs D n
  | 0 => specs_zero
  | n + 1 =>
    have ih := specs n
    { registerNamed := registerNamed_keeps ih
      registerDefinition := registerDefinition_keeps ih
      inheritanceParents := inheritanceParents_keeps ih
      resolve := resolve_keeps ih
      reference := reference_keeps ih
      anonymous := anonymous_keeps ih
      listOf := listOf_keeps ih
      unionOf := unionOf_keeps ih
      polymorphOf := polymorphOf_keeps ih
      conditions := conditions_keeps ih
      keyed := keyed_keeps ih }

end SchemaTypes.Compiler
