import SchemaTypes.Proofs.PassRecords

/-! # A compilation in another order follows the first one pass by pass

A second compilation of the same definitions in another order makes the same passes. It is
followed against a state `F` the first compilation reached at the end of a pass
(`Compiler.Oracle`): every name the second one registers, binds or walks over, the first one
registered, bound or walked over by then, and the record of that step says how.

* Registering the categories and walking for inline objects only register names; the second
  compilation registers each as the first did, and stays within the first one's state after
  the walk.
* Binding reads the definitions and resolves the schemas of the properties; each custom type is
  bound from a stub, as the first compilation bound it (`Compiler.BoundIn`), into the same
  composite type. At the end every composite type of the second compilation is one of the
  first one's.
-/

namespace SchemaTypes

namespace Compiler

variable {D : Document}

/-- What a second compilation needs of the first one's state `F` at the end of a pass: it is
sound, registers nothing, and every name it registered is on record. -/
structure Oracle (D : Document) (F : Compiler) : Prop where
  sound : Sound D F
  idle : F.resolving = []
  recorded : ∀ name, F.registry.contains name = true → Recorded D F name

/-- Replacing a composite type by one of `F`'s keeps a state within `F`. -/
theorem Within.insertComposite {F s : Compiler} {c : Composite} (within : Within s F)
    (member : c ∈ F.registry.composites) :
    Within { s with registry := s.registry.insertComposite c } F := by
  refine ⟨within.definitions, fun e present => ?_, fun x present => ?_, fun et present => ?_,
    within.patterns⟩
  · rw [Registry.insertComposite_entries] at present
    exact within.entries e present
  · rcases Registry.mem_of_mem_insertComposite present with old | rfl
    · exact within.composites x old
    · exact ⟨x, member, .inl rfl⟩
  · rw [Registry.insertComposite_enums] at present
    exact within.enums et present

/-- A custom type of the second compilation is a custom type of `F`. -/
theorem Follows.custom_mem {F s : Compiler} {name : String} (oracle : Sound D F)
    (follows : Follows D F s) (member : name ∈ s.group .custom) : name ∈ F.group .custom := by
  obtain ⟨d, defined, -, custom⟩ := follows.sound.custom member
  have definedF := follows.definition_eq oracle defined
  obtain ⟨c, tracked⟩ := oracle.tracked (name, d) (mem_of_definition? definedF)
  obtain ⟨d', definedF', fits⟩ := oracle.categorized name c tracked
  rw [definedF] at definedF'
  cases definedF'
  rw [custom] at fits
  cases fits
  exact (oracle.grouped name .custom).mpr tracked

/-- A name the second compilation registered that is a composite type of `F` is a composite
type of the second compilation: its entry is `F`'s, whose handle is that composite type. -/
theorem Follows.composite_present {F s : Compiler} {name : String} (oracle : Sound D F)
    (handled : F.registry.Handled) (follows : Follows D F s)
    (registered : s.registry.contains name = true) (composite : name ∈ F.registry.compositeNames) :
    name ∈ s.registry.compositeNames := by
  obtain ⟨e, found⟩ := Registry.entry_of_contains registered
  obtain ⟨present, named⟩ := Registry.entry_ok found
  obtain ⟨c, member, rfl⟩ := List.mem_map.mp composite
  obtain ⟨e', present', named', handle⟩ := handled c member
  have same : e = e' := List.inj_on_of_nodup_map oracle.registry.entriesNodup
    (follows.within.entries e present) present' (named.trans named'.symm)
  subst same
  exact follows.sound.registry.entriesCovered e present (.composite c.name)
    (by simp [handle, TypeHandle.mentions])

/-- A state of the first compilation on its way to `F` is good for every replay against `F`. -/
theorem good_of_later {F t : Compiler} (later : Later t F) : Good F F.registry.entries.length t :=
  ⟨later, later.grows.entries.length_le⟩

/-- A state registering nothing registers no name below any position. -/
theorem above_of_idle {F s : Compiler} {P : Nat} (idle : s.resolving = []) : Above F P s := by
  intro z onStack
  rw [idle] at onStack
  cases onStack

section Oracle

variable {F : Compiler} (oracle : Oracle D F) (references : D.ReferencesDefined)
  (unclashed : D.Unclashed)
include oracle references unclashed

theorem Oracle.replaysName (q : Nat) : ReplaysName D F q :=
  registerNamed_replays oracle.sound references unclashed oracle.recorded q

theorem Oracle.replays (n : Nat) : Replays D F F.registry.entries.length n :=
  Compiler.replays oracle.sound references unclashed
    (fun q _ => oracle.replaysName references unclashed q) n

/-! ## Registering and walking for inline objects -/

/-- The second compilation registers a name that `F` registered and it defines, as the first
compilation did, from every state registering nothing. -/
theorem registerNamed_follows {s : Compiler} {name : String} (follows : Follows D F s)
    (idle : s.resolving = []) (registered : F.registry.contains name = true)
    (defined : (s.definition? name).isSome = true) :
    ∃ t, Compiling.Eventually (registerNamed · name) s () t ∧ Follows D F t ∧
      t.resolving = [] ∧ Grows s t := by
  obtain ⟨t, registering, within⟩ := oracle.replaysName references unclashed _ name s rfl registered
    follows (fun z onStack => by rw [idle] at onStack; cases onStack) defined
  obtain ⟨followsT, resolving, -⟩ := follows.registerNamed registering within
  obtain ⟨N, run⟩ := registering.run_at
  exact ⟨t, registering, followsT, resolving.trans idle,
    ((specs N).registerNamed run follows.sound).1.2.1⟩

/-- The second compilation registers the names of every category as the first did, when the
first one's state `F` has every definition registered. -/
theorem registerCategories_replays (registered : AllRegistered F) {s : Compiler}
    (follows : Follows D F s) (idle : s.resolving = []) :
    ∃ t, Compiling.Eventually (fun N => Category.order.forM (registerCategory N)) s ⟨⟩ t ∧
      Follows D F t ∧ t.resolving = [] := by
  refine Compiling.forM_eventually (fun u => Follows D F u ∧ u.resolving = [])
    (fun c _ u invariant => ?_) s ⟨follows, idle⟩
  simp only [registerCategory]
  refine Compiling.Eventually.exists_bind (Q := fun v => v = u)
    ⟨u, .of_run (Compiling.run_get u), rfl⟩ fun v _ same => ?_
  subst v
  -- the names of the group as the category's turn came are defined from then on
  refine Compiling.Eventually.exists_mono (Compiling.forM_eventually
    (fun v => Follows D F v ∧ v.resolving = [] ∧ Grows u v)
    (fun name member v held => ?_) u ⟨invariant.1, invariant.2, .refl u⟩)
    fun _ held => ⟨held.1, held.2.1⟩
  obtain ⟨followsV, idleV, grows⟩ := held
  obtain ⟨d, defined, -⟩ := invariant.1.sound.categorized name c
    ((invariant.1.sound.grouped name c).mp member)
  have definedV := grows.found defined
  obtain ⟨t, registering, followsT, idleT, growsT⟩ := registerNamed_follows oracle references
    unclashed followsV idleV (registered _ (followsV.within.definitions _
      (mem_of_definition? definedV))) (by rw [definedV]; rfl)
  exact ⟨t, registering, followsT, idleT, grows.trans growsT⟩

/-- The second compilation's walk for inline objects follows the first one's to `F`, which
registered the inline objects under the properties of all its custom types. The induction is
on the rounds. -/
theorem discoverNested_replays (discovered : ∀ owner ∈ F.group .custom, Discovered F owner) :
    ∀ (rounds ix : Nat) (s : Compiler), Follows D F s → s.resolving = [] →
      ∃ t, Compiling.Eventually (discoverNested · ix rounds) s () t ∧ Follows D F t ∧
        t.resolving = []
  | 0, _, s, follows, idle => ⟨s, ⟨0, fun _ _ => rfl⟩, follows, idle⟩
  | rounds + 1, ix, s, follows, idle => by
    simp only [discoverNested]
    refine Compiling.Eventually.exists_bind (Q := fun u => u = s)
      ⟨s, .of_run (Compiling.run_get s), rfl⟩ fun u _ same => ?_
    subst u
    cases found : (s.group .custom)[ix]? with
    | none => exact ⟨s, ⟨0, fun _ _ => rfl⟩, follows, idle⟩
    | some owner =>
      dsimp only
      have member := List.mem_of_getElem? found
      obtain ⟨d, defined, placed, custom⟩ := follows.sound.custom member
      have ownerF := discovered owner (follows.custom_mem oracle.sound member)
      refine Compiling.Eventually.exists_bind (Compiling.forM_eventually
        (fun v => Follows D F v ∧ v.resolving = [] ∧ Grows s v) (fun x listed v held => ?_) s
        ⟨follows, idle, .refl s⟩) fun m _ held => discoverNested_replays discovered rounds (ix + 1)
          m held.1 held.2.1
      -- one property: only an inline custom object that has no definition yet is adopted, and
      -- registered as the first compilation registered it
      obtain ⟨property, schema⟩ := x
      rw [defined] at listed
      dsimp only
      cases read : Definition.ofJson schema with
      | error e => exact ⟨v, ⟨0, fun _ _ => rfl⟩, held⟩
      | ok nested =>
        dsimp only
        cases free : nested.isUnconstrained with
        | true => exact ⟨v, ⟨0, fun _ _ => rfl⟩, held⟩
        | false =>
          simp only [Bool.false_eq_true, ↓reduceIte]
          by_cases fits : nested.shapeCategory = .ok .custom
          · simp only [fits]
            refine Compiling.Eventually.exists_bind (Q := fun u => u = v)
              ⟨v, .of_run (Compiling.run_get v), rfl⟩ fun u _ same => ?_
            subst u
            by_cases taken : (v.definition? (propertyHint owner property)).isSome = true
            · simp only [taken, ↓reduceIte]
              exact ⟨v, ⟨0, fun _ _ => rfl⟩, held⟩
            · simp only [taken, Bool.false_eq_true, ↓reduceIte]
              have undefined : v.definition? (propertyHint owner property) = none := by
                simpa using taken
              obtain ⟨adopted, adopting⟩ :
                  ∃ a, (adopt (propertyHint owner property) nested .custom).run v = .ok ((), a) :=
                ⟨_, rfl⟩
              have nestedPlaced : Placed D (propertyHint owner property) nested :=
                .property placed custom listed read
              have registeredF := ownerF property schema nested
                (by rw [follows.definition_eq oracle.sound defined]; exact listed) read free fits
              obtain ⟨followsA, resolvingA, definedA⟩ := held.1.adopt oracle.sound unclashed
                adopting undefined nestedPlaced fits registeredF
              obtain ⟨t, registering, followsT, idleT, growsT⟩ := registerNamed_follows oracle
                references unclashed followsA (resolvingA.trans held.2.1) registeredF
                (by rw [definedA]; rfl)
              have growsA := (adopt_keeps adopting held.1.sound undefined nestedPlaced fits).2.1
              exact ⟨t, (Compiling.Eventually.of_run adopting).bind registering, followsT, idleT,
                held.2.2.trans (growsA.trans growsT)⟩
          · refine ⟨v, ⟨0, fun _ _ => ?_⟩, held⟩
            dsimp only
            split
            · next same => exact absurd same fits
            · rfl

/-! ## Binding -/

/-- The second compilation binds a declared property as the first did. -/
theorem bindProperty_replays {n : Nat} {name external : String} {special special' : SpecialNames}
    {schema : Json} {required : Bool} {d : Definition} {s₁ t₁ s₂ : Compiler} {p : Property}
    (run : (bindProperty n name special external schema required).run s₁ =
      .ok ((p, special'), t₁))
    (sound₁ : Sound D s₁) (spelling : Naming.KeepsSpelling special) (placed : Placed D name d)
    (custom : d.shapeCategory = .ok .custom) (member : (external, schema) ∈ d.properties?.getD [])
    (later : Later t₁ F) (follows : Follows D F s₂) (idle : s₂.resolving = []) :
    ∃ t₂, Compiling.Eventually (bindProperty · name special external schema required) s₂
      (p, special') t₂ ∧ Within t₂ F := by
  unfold bindProperty at run
  simp only [bindProperty]
  obtain ⟨spelled, -⟩ := Naming.pascalToSnake_special spelling external
  generalize Naming.pascalToSnake external special = converted at run spelled ⊢
  obtain ⟨internal, converted⟩ := converted
  dsimp only at run spelled ⊢
  obtain ⟨nested, middle, reading, resolving⟩ := Compiling.bind_ok run
  obtain ⟨rfl, read⟩ := definitionOf_ok reading
  obtain ⟨⟨h, k⟩, last, resolved, building⟩ := Compiling.bind_ok resolving
  -- the property is made from the resolved schema alone
  obtain ⟨rfl, anywhere⟩ := Compiling.Stateless.run_same (by
    dsimp only
    split <;> exact .pure _) building
  have placedNested : Placed D (name ++ "_" ++ internal) nested := by
    rw [spelled]
    exact .property placed custom member read
  obtain ⟨t₂, following, within⟩ := (oracle.replays references unclashed n).resolve resolved
    sound₁ placedNested (good_of_later later) follows (above_of_idle idle)
  exact ⟨t₂, (Compiling.Eventually.of_run ((definitionOf_stateless _ _).run_eq reading s₂)).bind
    (following.bind (.of_run (anywhere t₂))), within⟩

/-- The second compilation binds the catch-all of a custom type as the first did. -/
theorem bindCatchAll_replays {n : Nat} {name : String} {d : Definition} {s₁ t₁ s₂ : Compiler}
    {catchAll : Option CatchAll} (run : (bindCatchAll n name d).run s₁ = .ok (catchAll, t₁))
    (sound₁ : Sound D s₁) (placed : Placed D name d) (custom : d.shapeCategory = .ok .custom)
    (later : Later t₁ F) (follows : Follows D F s₂) (idle : s₂.resolving = []) :
    ∃ t₂, Compiling.Eventually (bindCatchAll · name d) s₂ catchAll t₂ ∧ Within t₂ F := by
  unfold bindCatchAll at run
  split at run
  · next absent =>
    obtain ⟨rfl, rfl⟩ := Compiling.pure_ok run
    refine ⟨s₂, ⟨0, fun N _ => ?_⟩, follows.within⟩
    unfold bindCatchAll
    rw [absent]
    rfl
  · next refused =>
    obtain ⟨rfl, rfl⟩ := Compiling.pure_ok run
    refine ⟨s₂, ⟨0, fun N _ => ?_⟩, follows.within⟩
    unfold bindCatchAll
    rw [refused]
    rfl
  · next accepting =>
    obtain ⟨rfl, rfl⟩ := Compiling.pure_ok run
    refine ⟨s₂, ⟨0, fun N _ => ?_⟩, follows.within⟩
    unfold bindCatchAll
    rw [accepting]
    rfl
  · next schema notFalse notTrue given =>
    obtain ⟨nested, middle, reading, resolving⟩ := Compiling.bind_ok run
    obtain ⟨rfl, read⟩ := definitionOf_ok reading
    obtain ⟨⟨h, k⟩, last, resolved, building⟩ := Compiling.bind_ok resolving
    obtain ⟨rfl, rfl⟩ := Compiling.pure_ok building
    have placedExtra := Placed.extra placed custom given (fun same => notTrue same)
      (fun same => notFalse same) read
    obtain ⟨t₂, ⟨T, runs⟩, within⟩ := (oracle.replays references unclashed n).resolve resolved
      sound₁ placedExtra (good_of_later later) follows (above_of_idle idle)
    refine ⟨t₂, ⟨T, fun N big => ?_⟩, within⟩
    -- at every bound the schema is the same one, past the same two exceptions
    unfold bindCatchAll
    split
    · next absent => rw [given] at absent; cases absent
    · next refused => rw [given] at refused; cases refused; exact (notFalse rfl).elim
    · next accepting => rw [given] at accepting; cases accepting; exact (notTrue rfl).elim
    · next schema' _ _ given' =>
      rw [given] at given'
      cases given'
      rw [Compiling.run_bind_of ((definitionOf_stateless _ _).run_eq reading s₂),
        Compiling.run_bind_of (runs N big)]
      rfl

/-- The second compilation binds a custom type as the first did: from a state in which the
type's composite type is still a stub, it ends with the composite type the first one made,
which `F` still holds. -/
theorem bindComposite_replays {n : Nat} {name : String} {s₁ t₁ s₂ : Compiler} {c : Composite}
    (run : (bindComposite n name).run s₁ = .ok ((), t₁)) (sound₁ : Sound D s₁)
    (member₁ : name ∈ s₁.group .custom)
    (stub₁ : ∀ c₀ ∈ s₁.registry.composites, c₀.name = name → c₀.stub = c₀)
    (later : Later t₁ F) (bound : t₁.registry.composite name = .ok c)
    (kept : F.registry.composite name = .ok c) (follows : Follows D F s₂)
    (idle : s₂.resolving = []) (member₂ : name ∈ s₂.group .custom)
    (present₂ : name ∈ s₂.registry.compositeNames)
    (stub₂ : ∀ c₀ ∈ s₂.registry.composites, c₀.name = name → c₀.stub = c₀) :
    ∃ t₂, Compiling.Eventually (bindComposite · name) s₂ () t₂ ∧ Within t₂ F ∧
      t₂.registry.composite name = .ok c := by
  obtain ⟨d, defined, placed, custom⟩ := sound₁.custom member₁
  have keeps₁ := bindComposite_keeps run sound₁ member₁
  have defined₂ : s₂.definition? name = some d := by
    obtain ⟨d₂, found₂, -, -⟩ := follows.sound.custom member₂
    rw [found₂, definition_agrees oracle.sound follows found₂ later (keeps₁.2.1.found defined)]
  -- the first compilation's binding, step by step
  unfold bindComposite at run
  have run := get_bind_ok run
  rw [defined] at run
  dsimp only at run
  generalize splitting : d.splitByRequired = parts at run
  obtain ⟨required, optional⟩ := parts
  dsimp only at run
  obtain ⟨⟨properties, special⟩, folded, folding, run⟩ := Compiling.bind_ok run
  obtain ⟨catchAll, caught, catching, finishing⟩ := Compiling.bind_ok run
  have finishing := get_bind_ok finishing
  obtain ⟨c₀, looked, lookup, replacing⟩ := Compiling.bind_ok finishing
  obtain ⟨found₁, rfl⟩ := Compiling.liftExcept_ok lookup
  have replacing : (updateRegistry (·.insertComposite (c₀.bindWith properties special catchAll))).run
      looked = .ok ((), t₁) := replacing
  simp only [updateRegistry, Compiling.run_modify, Except.ok.injEq, Prod.mk.injEq,
    true_and] at replacing
  subst replacing
  have named₀ := (Registry.composite_ok found₁).2
  -- the composite type made is the one `F` holds
  have made : c₀.bindWith properties special catchAll = c := by
    have foundMade := keeps₁.1.registry.composite_eq (Registry.mem_insertComposite
      (r := looked.registry) (c₀.bindWith properties special catchAll))
    rw [Composite.name_bindWith, named₀, bound] at foundMade
    injection foundMade with same
    exact same.symm
  -- the second compilation reads the same definition
  simp only [bindComposite]
  refine Compiling.Eventually.exists_bind (Q := fun u => u = s₂)
    ⟨s₂, .of_run (Compiling.run_get s₂), rfl⟩ fun u _ same => ?_
  subst u
  simp only [defined₂, splitting]
  -- the first compilation's states from the end of the properties on
  have foundMade : looked.registry.composite (c₀.bindWith properties special catchAll).name =
      .ok c₀ := by
    rw [Composite.name_bindWith, named₀]
    exact found₁
  have laterCaught : ∀ caughtSound : Sound D looked, Later looked F := fun caughtSound =>
    (Later.insertComposite caughtSound.registry foundMade (Composite.stub_bindWith _ _ _ _)).trans
      later
  -- the properties, in lockstep; along them the first compilation stays sound, which its states
  -- need to lead on to `F`
  refine Compiling.Eventually.exists_bind
    (@Compiling.foldlM_follows _ _ (fun u => Sound D u ∧ Tracks D s₁ u)
      (fun u => Follows D F u ∧ u.resolving = [] ∧ Tracks D s₂ u) (fun t => Sound D t → Later t F)
      (fun s t => Later s t ∧ (Sound D s → Sound D t)) (fun s => ⟨Later.refl s, id⟩)
      (fun first second => ⟨first.1.trans second.1, second.2 ∘ first.2⟩)
      (fun before good sound => before.1.trans (good (before.2 sound))) _ _
      (fun acc => Naming.KeepsSpelling acc.2) n ?_ ([], {}) s₁ (properties, special) folded s₂
      folding ⟨sound₁, .refl _⟩ (fun _ member => by simp at member) (fun foldedSound =>
        (bindCatchAll_tracks catching foldedSound placed custom).1.later.trans (laterCaught
          (bindCatchAll_keeps catching foldedSound placed custom).1.1)) ⟨follows, idle, .refl _⟩)
    fun u₂ _ invariants => ?_
  · intro x declared acc s1 acc' s2 step invariant holds
    obtain ⟨⟨external, schema⟩, req⟩ := x
    obtain ⟨ps, sp⟩ := acc
    dsimp only at step ⊢
    obtain ⟨⟨p, sp'⟩, bound', binding, step⟩ := Compiling.bind_ok step
    dsimp only at step
    obtain ⟨rfl, rfl⟩ := Compiling.pure_ok step
    have listed := Definition.mem_properties_of_declared (d := d)
      (by rw [Definition.declared, splitting]; exact declared)
    obtain ⟨keeps, -, spelling⟩ := bindProperty_keeps binding invariant.1 holds placed custom listed
    have tracks := bindProperty_tracks binding invariant.1 holds placed custom listed
    refine ⟨⟨keeps.1, invariant.2.trans tracks⟩, spelling, ⟨tracks.1.later, fun _ => keeps.1⟩,
      fun s2' good trailing => ?_⟩
    obtain ⟨t2', binding₂, within⟩ := bindProperty_replays oracle references unclashed binding
      invariant.1 holds placed custom listed (good keeps.1) trailing.1 trailing.2.1
    obtain ⟨N, run₂⟩ := binding₂.run_at
    have keeps₂ := (bindProperty_keeps run₂ trailing.1.sound holds placed custom listed).1
    obtain ⟨follows₂, resolving₂⟩ := trailing.1.of_keeps keeps₂ within
    exact ⟨t2', binding₂.bind (.of_run rfl), follows₂, resolving₂.trans trailing.2.1,
      trailing.2.2.trans (bindProperty_tracks run₂ trailing.1.sound holds placed custom listed)⟩
  obtain ⟨⟨follows₂, idle₂, tracks₂⟩, ⟨foldedSound, foldedTracks⟩, -⟩ := invariants
  -- the catch-all, as the first compilation bound it
  have caughtKeeps := bindCatchAll_keeps catching foldedSound placed custom
  have caughtTracks := foldedTracks.trans (bindCatchAll_tracks catching foldedSound placed custom)
  obtain ⟨caught₂, catching₂, within₂⟩ := bindCatchAll_replays oracle references unclashed catching
    foldedSound placed custom (laterCaught caughtKeeps.1.1) follows₂ idle₂
  obtain ⟨N, catchRun⟩ := catching₂.run_at
  have caughtTracks₂ := tracks₂.trans (bindCatchAll_tracks catchRun follows₂.sound placed custom)
  -- the stub the second compilation looks up is the one the first looked up: both are stubs,
  -- and the second one's is `F`'s composite type or its stub
  obtain ⟨c₂, found₂⟩ := Registry.composite_of_mem
    (caughtTracks₂.1.grown.1.compositeNames.subset present₂)
  have same : c₂ = c₀ := by
    obtain ⟨present, named₂⟩ := Registry.composite_ok found₂
    have stubbed₂ := caughtTracks₂.1.stub_named stub₂ c₂ present named₂
    have stubbed₀ := caughtTracks.1.stub_named stub₁ c₀ (Registry.composite_ok found₁).1 named₀
    obtain ⟨c', inF, kind⟩ := within₂.composites c₂ present
    have namedF : c'.name = name := by
      rcases kind with rfl | rfl
      · exact named₂
      · simpa using named₂
    have unique := oracle.sound.registry.composite_eq inF
    rw [namedF, kept] at unique
    injection unique with unique
    subst unique
    have sameStub : c₂.stub = c₀.stub := by
      rw [← Composite.stub_bindWith c₀ properties special catchAll, made]
      rcases kind with rfl | rfl
      · rfl
      · exact Composite.stub_stub _
    rw [← stubbed₂, sameStub, stubbed₀]
  subst same
  have presentMade : c.name ∈ caught₂.registry.compositeNames := by
    rw [← made, Composite.name_bindWith, named₀]
    exact caughtTracks₂.1.grown.1.compositeNames.subset present₂
  refine ⟨{ caught₂ with registry := caught₂.registry.insertComposite c },
    catching₂.bind (Compiling.Eventually.of_run ?_), ?_, ?_⟩
  · rw [Compiling.run_get_bind]
    dsimp only
    rw [found₂, ← made]
    rfl
  · exact within₂.insertComposite (Registry.composite_ok kept).1
  · have foundEnd := Registry.composite_insertComposite_self presentMade
    rw [← made, Composite.name_bindWith, named₀] at foundEnd
    rw [← made]
    exact foundEnd

/-- The second compilation's binding pass follows the first one's to `F`, which bound every
custom type: every custom type the second one binds ends as `F`'s composite type, and every
other composite type stays a stub. The induction is on the rounds, with the custom types before
the pass's position bound. -/
theorem bindFrom_replays (handled : F.registry.Handled)
    (boundAll : ∀ name ∈ F.group .custom, BoundIn D F name) :
    ∀ (rounds ix : Nat) (s : Compiler), Follows D F s → s.resolving = [] → AllRegistered s →
      D.size < ix + rounds → StubsBesides s ((s.group .custom).take ix) →
      (∀ j < ix, ∀ name, (s.group .custom)[j]? = some name →
        ∃ c, s.registry.composite name = .ok c ∧ F.registry.composite name = .ok c) →
      ∃ t, Compiling.Eventually (bindFrom · ix rounds) s () t ∧ Follows D F t ∧
        t.resolving = [] ∧ StubsBesides t (t.group .custom) ∧
        ∀ name ∈ t.group .custom,
          ∃ c, t.registry.composite name = .ok c ∧ F.registry.composite name = .ok c
  | 0, ix, s, follows, idle, _, long, stubs, earlier =>
    ⟨s, ⟨0, fun _ _ => rfl⟩, follows, idle, stubs.mono fun _ inside => List.mem_of_mem_take inside,
      forall_group_of_past (follows.sound.past_group (by omega)) earlier⟩
  | rounds + 1, ix, s, follows, idle, registered, long, stubs, earlier => by
    simp only [bindFrom]
    refine Compiling.Eventually.exists_bind (Q := fun u => u = s)
      ⟨s, .of_run (Compiling.run_get s), rfl⟩ fun u _ same => ?_
    subst u
    cases found : (s.group .custom)[ix]? with
    | none =>
      exact ⟨s, ⟨0, fun _ _ => rfl⟩, follows, idle,
        stubs.mono fun _ inside => List.mem_of_mem_take inside, forall_group_of_past found earlier⟩
    | some name =>
      dsimp only
      have member := List.mem_of_getElem? found
      have fresh := not_mem_take (follows.sound.groupsNodup .custom) found
      -- the first compilation's binding of the same type
      obtain ⟨n, s₁, t₁, c, sound₁, -, member₁, stub₁, run₁, later₁, bound₁, kept⟩ :=
        boundAll name (follows.custom_mem oracle.sound member)
      obtain ⟨d, defined, -, -⟩ := follows.sound.custom member
      have present := follows.composite_present oracle.sound handled
        (registered (name, d) (mem_of_definition? defined)) (by
          rw [← (Registry.composite_ok kept).2]
          exact List.mem_map_of_mem (Registry.composite_ok kept).1)
      obtain ⟨m, binding, within, foundM⟩ := bindComposite_replays oracle references unclashed
        run₁ sound₁ member₁ stub₁ later₁ bound₁ kept follows idle member present
        (fun c₀ present' named => stubs c₀ present' (named ▸ fresh))
      obtain ⟨N, run₂⟩ := binding.run_at
      have keeps := bindComposite_keeps run₂ follows.sound member
      obtain ⟨stubs', others, registered'⟩ := bindComposite_frame run₂ follows.sound member
      obtain ⟨followsM, idleM⟩ := follows.of_keeps keeps within
      have grows := keeps.2.1.groups .custom
      obtain ⟨t, rest, final⟩ := bindFrom_replays handled boundAll rounds (ix + 1) m followsM
        (idleM.trans idle) (registered' registered) (by omega) ((stubs' _ stubs).take_succ grows found)
        (group_step grows (follows.sound.groupsNodup .custom) found earlier
          (fun x held other => held.imp fun c' both => ⟨others x c' other both.1, both.2⟩)
          ⟨c, foundM, kept⟩)
      exact ⟨t, binding.bind rest, final⟩

end Oracle

end Compiler

end SchemaTypes
