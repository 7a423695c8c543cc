import SchemaTypes.Proofs.Replay

/-! # What the passes of a compilation leave behind

The registration functions keep every registration on record (`Compiler.Records`); this module
carries that through the passes and collects what a second compilation of the same definitions
needs to know of the first one at the end of each pass:

* after registering the categories, every definition the state holds is registered
  (`Compiler.AllRegistered`);
* after the walk for inline objects, the inline object under every property of every custom
  type has its name registered (`Compiler.Discovered`);
* after binding, every custom type was bound once, from a stub, into the composite type the
  state ends with (`Compiler.BoundIn`), and every other composite type is still a stub.
-/

namespace SchemaTypes

namespace Compiler

variable {D : Document}

/-! ## Registering the categories -/

/-- Every definition the state holds is registered. -/
def AllRegistered (s : Compiler) : Prop := ∀ p ∈ s.definitions, s.registry.contains p.1 = true

/-- A step that registers every definition it adopts keeps every definition registered. -/
theorem AllRegistered.settles {s t : Compiler} (registered : AllRegistered s)
    (settles : Settles s t) (grows : Grows s t) : AllRegistered t := by
  intro p member
  by_cases old : p.1 ∈ s.definitions.map (·.1)
  · obtain ⟨q, present, same⟩ := List.mem_map.mp old
    rw [← same]
    exact grows.contains (registered q present)
  · exact settles p member old

/-- A step of a pass that registers: it is on record and registers what it adopts. -/
def Tracks (D : Document) (s t : Compiler) : Prop := Records D s t ∧ Settles s t

theorem Tracks.refl (s : Compiler) : Tracks D s s := ⟨.refl s, .refl s⟩

theorem Tracks.trans {a b c : Compiler} (first : Tracks D a b) (second : Tracks D b c) :
    Tracks D a c :=
  ⟨first.1.trans second.1, first.2.trans second.2 second.1.grown.1⟩

theorem registerNamed_tracks {fuel : Nat} {name : String} {s t : Compiler}
    (run : (registerNamed fuel name).run s = .ok ((), t)) (sound : Sound D s) : Tracks D s t :=
  ⟨(recording fuel).registerNamed run sound, (adoptions fuel).registerNamed run sound⟩

/-- Registering every category is on record and registers what it adopts. -/
theorem registerCategories_tracks {fuel : Nat} {s t : Compiler}
    (run : (Category.order.forM (registerCategory fuel)).run s = .ok ((), t))
    (sound : Sound D s) : Tracks D s t := by
  obtain ⟨-, tracks, -⟩ := Compiling.forM_keeps (Sound D) (Tracks D) Tracks.refl
    (fun first second => first.trans second) (fun _ _ => True) (fun _ _ _ _ _ => trivial)
    (fun c _ u u' step soundHere => by
      unfold registerCategory at step
      have step := get_bind_ok step
      obtain ⟨after, tracks, -⟩ := Compiling.forM_keeps (Sound D) (Tracks D) Tracks.refl
        (fun first second => first.trans second) (fun _ _ => True) (fun _ _ _ _ _ => trivial)
        (fun name _ v v' registering soundName =>
          ⟨((specs fuel).registerNamed registering soundName).1.1,
            registerNamed_tracks registering soundName, trivial⟩)
        u u' step soundHere
      exact ⟨after, tracks, trivial⟩)
    s t run sound
  exact tracks

/-- After registering the categories of a categorized state, every definition is registered:
those of the document are in the groups, and the others were adopted and registered. -/
theorem registerCategories_allRegistered {fuel : Nat} {s t : Compiler}
    (run : (Category.order.forM (registerCategory fuel)).run s = .ok ((), t))
    (sound : Sound D s) : AllRegistered t := by
  have settles := (registerCategories_tracks run sound).2
  obtain ⟨-, grouped⟩ := registerCategories_keeps run sound
  intro p member
  by_cases old : p.1 ∈ s.definitions.map (·.1)
  · obtain ⟨q, present, same⟩ := List.mem_map.mp old
    obtain ⟨c, tracked⟩ := sound.tracked q present
    rw [← same]
    exact grouped c q.1 ((sound.grouped q.1 c).mpr tracked)
  · exact settles p member old

/-! ## Inline objects under properties -/

/-- The names of the inline custom objects under the properties of `owner` are registered. -/
def Discovered (s : Compiler) (owner : String) : Prop :=
  ∀ key schema nested,
    (key, schema) ∈ ((s.definition? owner).bind Definition.properties?).getD [] →
    Definition.ofJson schema = .ok nested → nested.isUnconstrained = false →
    nested.shapeCategory = .ok .custom → s.registry.contains (propertyHint owner key) = true

theorem Discovered.later {s t : Compiler} {owner : String} {d : Definition}
    (discovered : Discovered s owner) (defined : s.definition? owner = some d)
    (grows : Grows s t) : Discovered t owner := by
  intro key schema nested member read free custom
  rw [grows.found defined] at member
  exact grows.contains
    (discovered key schema nested (by rw [defined]; exact member) read free custom)

/-- A group read at a position inside an earlier version of it reads the same. -/
theorem group_getElem?_longer {s t : Compiler} {c : Category} {ix : Nat}
    (prefixed : s.group c <+: t.group c) (inside : ix < (s.group c).length) :
    (t.group c)[ix]? = (s.group c)[ix]? := by
  rw [List.getElem?_eq_getElem inside]
  exact List.prefix_iff_getElem?.mp prefixed ix inside

/-- Once a walk over the custom group is past its end, the custom types it walked over are
all the custom types. -/
theorem forall_group_of_past {s : Compiler} {ix : Nat} {P : String → Prop}
    (past : (s.group .custom)[ix]? = none)
    (earlier : ∀ j < ix, ∀ owner, (s.group .custom)[j]? = some owner → P owner) :
    ∀ owner ∈ s.group .custom, P owner := by
  intro owner member
  obtain ⟨j, inside, found⟩ := List.getElem_of_mem member
  have short := List.getElem?_eq_none_iff.mp past
  exact earlier j (by omega) owner (by rw [List.getElem?_eq_getElem inside, found])

/-- A walk over the custom group moving one position on: what held of the types before the old
position holds, carried over, of the types before the new one, given that it holds of the type
at the old position. -/
theorem group_step {s t : Compiler} {ix : Nat} {name : String} {P Q : String → Prop}
    (grows : s.group .custom <+: t.group .custom) (nodup : (s.group .custom).Nodup)
    (found : (s.group .custom)[ix]? = some name)
    (earlier : ∀ j < ix, ∀ x, (s.group .custom)[j]? = some x → P x)
    (carried : ∀ x, P x → x ≠ name → Q x) (current : Q name) :
    ∀ j < ix + 1, ∀ x, (t.group .custom)[j]? = some x → Q x := by
  intro j short x found'
  have inside : ix < (s.group .custom).length := (List.getElem?_eq_some_iff.mp found).1
  rcases Nat.lt_succ_iff_lt_or_eq.mp short with before | rfl
  · have same : (s.group .custom)[j]? = some x := by
      rw [← found']
      exact (group_getElem?_longer grows (by omega)).symm
    have early : x ∈ (s.group .custom).take ix :=
      List.mem_of_getElem? (by rw [List.getElem?_take_of_lt before]; exact same)
    exact carried x (earlier j before x same) fun same' => not_mem_take nodup found (same' ▸ early)
  · rw [getElem?_longer grows found] at found'
    cases found'
    exact current

/-- The walk for inline objects is on record, keeps every definition registered, and leaves
the properties of every custom type discovered. The induction is on the rounds, with the
custom types before the walk's position discovered. -/
theorem discoverNested_discovers {fuel : Nat} :
    ∀ (rounds ix : Nat) (s t : Compiler), (discoverNested fuel ix rounds).run s = .ok ((), t) →
      Sound D s → AllRegistered s → D.size < ix + rounds →
      (∀ j < ix, ∀ owner, (s.group .custom)[j]? = some owner → Discovered s owner) →
      Records D s t ∧ AllRegistered t ∧ ∀ owner ∈ t.group .custom, Discovered t owner
  | 0, ix, s, t, run, sound, registered, long, earlier => by
    rw [discoverNested] at run
    obtain ⟨-, rfl⟩ := Compiling.pure_ok run
    exact ⟨.refl _, registered, forall_group_of_past (sound.past_group (by omega)) earlier⟩
  | rounds + 1, ix, s, t, run, sound, registered, long, earlier => by
    rw [discoverNested] at run
    have run := get_bind_ok run
    split at run
    · next past =>
      obtain ⟨-, rfl⟩ := Compiling.pure_ok run
      exact ⟨.refl _, registered, forall_group_of_past past earlier⟩
    · next owner found =>
      obtain ⟨d, defined, placed, custom⟩ := sound.custom (List.mem_of_getElem? found)
      obtain ⟨⟨⟩, middle, discovering, rest⟩ := Compiling.bind_ok run
      obtain ⟨⟨middleSound, middleRegistered⟩, records, named⟩ := Compiling.forM_keeps
        (fun s => Sound D s ∧ AllRegistered s) (Records D) Records.refl
        (fun first second => first.trans second)
        (fun (x : String × Json) (s : Compiler) => ∀ nested, Definition.ofJson x.2 = .ok nested →
          nested.isUnconstrained = false → nested.shapeCategory = .ok .custom →
          s.registry.contains (propertyHint owner x.1) = true)
        (fun _ _ _ held (records : Records D _ _) nested read free fits =>
          records.grown.1.contains (held nested read free fits))
        (by
          rintro ⟨key, schema⟩ member v v' step ⟨soundHere, registeredHere⟩
          dsimp only at step ⊢
          rw [defined] at member
          -- only an inline custom object without a definition of its name is adopted and
          -- registered; under every other schema nothing happens
          split at step
          · next failed =>
            obtain ⟨-, rfl⟩ := Compiling.pure_ok step
            refine ⟨⟨soundHere, registeredHere⟩, .refl _, fun nested read => ?_⟩
            rw [read] at failed
            cases failed
          · next nested read =>
            split at step
            · next free =>
              obtain ⟨-, rfl⟩ := Compiling.pure_ok step
              refine ⟨⟨soundHere, registeredHere⟩, .refl _, fun nested' read' bounded => ?_⟩
              rw [read] at read'
              cases read'
              rw [free] at bounded
              cases bounded
            · split at step
              · next fits =>
                have step := get_bind_ok step
                split at step
                · next taken =>
                  obtain ⟨-, rfl⟩ := Compiling.pure_ok step
                  obtain ⟨e, found'⟩ := Option.isSome_iff_exists.mp taken
                  have held := registeredHere _ (mem_of_definition? found')
                  exact ⟨⟨soundHere, registeredHere⟩, .refl _, fun _ _ _ _ => held⟩
                · next undefined =>
                  obtain ⟨⟨⟩, adopted, adopting, registering⟩ := Compiling.bind_ok step
                  have undefined : v.definition? (propertyHint owner key) = none := by
                    simpa using undefined
                  have nestedPlaced := Placed.property placed custom member read
                  have adoptedSound :=
                    (adopt_keeps adopting soundHere undefined nestedPlaced fits).1
                  obtain ⟨appended, -, -⟩ := adopt_definitions adopting undefined
                  obtain ⟨keeps, contained⟩ :=
                    (specs fuel).registerNamed registering adoptedSound
                  have tracks := registerNamed_tracks registering adoptedSound
                  have grows := (adopt_keeps adopting soundHere undefined nestedPlaced fits).2.1
                  exact ⟨⟨keeps.1, registeredHere.settles (Settles.adopted appended tracks.2
                      contained) (grows.trans keeps.2.1)⟩,
                    (adopt_records adopting soundHere undefined nestedPlaced fits).trans
                      tracks.1, fun _ _ _ _ => contained⟩
              · obtain ⟨-, rfl⟩ := Compiling.pure_ok step
                refine ⟨⟨soundHere, registeredHere⟩, .refl _, fun nested' read' _ fits' => ?_⟩
                rw [read] at read'
                cases read'
                exact absurd fits' (by assumption))
        s middle discovering ⟨sound, registered⟩
      have grows := records.grown.1
      -- the types walked over so far stay discovered, and so does the one just walked over
      have current : Discovered middle owner := by
        intro key schema nested member read free fits
        rw [grows.found defined] at member
        exact named (key, schema) (by rw [defined]; exact member) nested read free fits
      obtain ⟨records', registered', discovered⟩ := discoverNested_discovers rounds (ix + 1)
        middle t rest middleSound middleRegistered (by omega)
        (group_step (P := fun x => x ∈ s.group .custom ∧ Discovered s x) (grows.groups .custom)
          (sound.groupsNodup .custom) found
          (fun j below x same => ⟨List.mem_of_getElem? same, earlier j below x same⟩)
          (fun x held _ => by
            obtain ⟨e, definedHere, -, -⟩ := sound.custom held.1
            exact held.2.later definedHere grows)
          current)
      exact ⟨records.trans records', registered', discovered⟩

/-! ## Binding the custom types -/

end Compiler

namespace Composite

theorem stub_setProperties (c : Composite) (ps : List Property) :
    (ps.foldl (fun c p => { c with properties := Composite.setProperty c.properties p }.resynthesized)
      c).stub = c.stub := by
  induction ps generalizing c with
  | nil => rfl
  | cons p ps ih => exact ih _

/-- The composite type that binding makes of the stub `c`: the special names of the properties
merged in, the properties set one at a time, and the catch-all when there is one. -/
def bindWith (c : Composite) (properties : List Property) (special : SpecialNames)
    (catchAll : Option CatchAll) : Composite :=
  let c := { c with special := c.special.union special }
  let c := properties.foldl (fun c p =>
    { c with properties := Composite.setProperty c.properties p }.resynthesized) c
  if catchAll.isSome then { c with catchAll }.resynthesized else c

/-- Binding changes neither the name, the kind nor the description of a composite type. -/
@[simp] theorem stub_bindWith (c : Composite) (properties : List Property)
    (special : SpecialNames) (catchAll : Option CatchAll) :
    (c.bindWith properties special catchAll).stub = c.stub := by
  unfold bindWith
  split
  · exact stub_setProperties _ _
  · exact stub_setProperties _ _

@[simp] theorem name_bindWith (c : Composite) (properties : List Property)
    (special : SpecialNames) (catchAll : Option CatchAll) :
    (c.bindWith properties special catchAll).name = c.name := by
  rw [← stub_name, stub_bindWith, stub_name]

end Composite

namespace Registry

theorem mem_insertComposite_of_ne {r : Registry} {c x : Composite}
    (member : x ∈ r.composites) (other : x.name ≠ c.name) :
    x ∈ (r.insertComposite c).composites := by
  unfold insertComposite
  split
  · exact List.mem_map.mpr ⟨x, member, by simp [other]⟩
  · exact List.mem_append_left _ member

/-- Replacing a composite type by one of its name keeps every composite type handled. -/
theorem Handled.insertComposite {r : Registry} {c c₀ : Composite}
    (handled : r.Handled) (found : r.composite c.name = .ok c₀) :
    (r.insertComposite c).Handled := by
  intro x member
  rw [insertComposite_entries]
  rcases mem_of_mem_insertComposite member with old | rfl
  · exact handled x old
  · obtain ⟨present, named⟩ := composite_ok found
    rw [← named]
    exact handled c₀ present

end Registry

namespace Compiler

variable {D : Document}

/-- Binding a declared property resolves its schema under the property's name: it is on
record and registers what it adopts. -/
theorem bindProperty_tracks {fuel : Nat} {name external : String}
    {special special' : SpecialNames} {schema : Json} {required : Bool} {d : Definition}
    {s t : Compiler} {p : Property}
    (run : (bindProperty fuel name special external schema required).run s =
      .ok ((p, special'), t))
    (sound : Sound D s) (spelling : Naming.KeepsSpelling special) (placed : Placed D name d)
    (custom : d.shapeCategory = .ok .custom) (member : (external, schema) ∈ d.properties?.getD []) :
    Tracks D s t := by
  unfold bindProperty at run
  obtain ⟨spelled, -⟩ := Naming.pascalToSnake_special spelling external
  generalize Naming.pascalToSnake external special = converted at run spelled
  obtain ⟨internal, converted⟩ := converted
  dsimp only at run spelled
  obtain ⟨nested, middle, reading, resolving⟩ := Compiling.bind_ok run
  obtain ⟨rfl, read⟩ := definitionOf_ok reading
  obtain ⟨⟨h, k⟩, last, resolved, building⟩ := Compiling.bind_ok resolving
  have placedNested : Placed D (name ++ "_" ++ internal) nested := by
    rw [spelled]
    exact .property placed custom member read
  have tracks : Tracks D middle last :=
    ⟨(recording fuel).resolve resolved sound placedNested,
      (adoptions fuel).resolve resolved sound placedNested⟩
  dsimp only at building
  split at building <;>
  · obtain ⟨-, rfl⟩ := Compiling.pure_ok building
    exact tracks

/-- Binding the catch-all of a custom type is on record and registers what it adopts. -/
theorem bindCatchAll_tracks {fuel : Nat} {name : String} {d : Definition} {s t : Compiler}
    {catchAll : Option CatchAll} (run : (bindCatchAll fuel name d).run s = .ok (catchAll, t))
    (sound : Sound D s) (placed : Placed D name d) (custom : d.shapeCategory = .ok .custom) :
    Tracks D s t := by
  unfold bindCatchAll at run
  split at run
  · rw [(Compiling.pure_ok run).2]; exact .refl _
  · rw [(Compiling.pure_ok run).2]; exact .refl _
  · rw [(Compiling.pure_ok run).2]; exact .refl _
  · next schema notFalse notTrue given =>
    obtain ⟨nested, middle, reading, resolving⟩ := Compiling.bind_ok run
    obtain ⟨rfl, read⟩ := definitionOf_ok reading
    obtain ⟨⟨h, k⟩, last, resolved, building⟩ := Compiling.bind_ok resolving
    obtain ⟨rfl, rfl⟩ := Compiling.pure_ok building
    have placedExtra := Placed.extra placed custom given (fun same => notTrue same)
      (fun same => notFalse same) read
    exact ⟨(recording fuel).resolve resolved sound placedExtra,
      (adoptions fuel).resolve resolved sound placedExtra⟩

/-- Binding a custom type is on record and registers what it adopts up to its last step, which
replaces the composite type it looks up by the one binding makes of it. -/
theorem bindComposite_steps {fuel : Nat} {name : String} {s t : Compiler}
    (run : (bindComposite fuel name).run s = .ok ((), t)) (sound : Sound D s)
    (member : name ∈ s.group .custom) :
    ∃ u c₀ properties special catchAll, Tracks D s u ∧ Sound D u ∧
      u.registry.composite name = .ok c₀ ∧
      t = { u with
        registry := u.registry.insertComposite (c₀.bindWith properties special catchAll) } := by
  obtain ⟨d, defined, placed, custom⟩ := sound.custom member
  unfold bindComposite at run
  have run := get_bind_ok run
  rw [defined] at run
  dsimp only at run
  generalize splitting : d.splitByRequired = parts at run
  obtain ⟨required, optional⟩ := parts
  dsimp only at run
  obtain ⟨⟨properties, special⟩, folded, folding, run⟩ := Compiling.bind_ok run
  obtain ⟨foldedSound, foldedTracks, -⟩ := Compiling.foldlM_keeps (Sound D) (Tracks D)
    Tracks.refl (fun first second => first.trans second)
    (fun acc _ => Naming.KeepsSpelling acc.2)
    (by
      intro x declared acc s1 acc' s2 holds step sound1
      obtain ⟨⟨external, schema⟩, req⟩ := x
      obtain ⟨ps, sp⟩ := acc
      dsimp only at step
      obtain ⟨⟨p, sp'⟩, bound, binding, step⟩ := Compiling.bind_ok step
      dsimp only at step
      obtain ⟨rfl, rfl⟩ := Compiling.pure_ok step
      have listed := Definition.mem_properties_of_declared (d := d)
        (by rw [Definition.declared, splitting]; exact declared)
      obtain ⟨keeps, -, spelling⟩ := bindProperty_keeps binding sound1 holds placed custom listed
      exact ⟨keeps.1, bindProperty_tracks binding sound1 holds placed custom listed, spelling⟩)
    ([], {}) s (properties, special) folded (fun _ member => by simp at member) folding sound
  obtain ⟨catchAll, caught, catching, finishing⟩ := Compiling.bind_ok run
  have caughtTracks := bindCatchAll_tracks catching foldedSound placed custom
  have finishing := get_bind_ok finishing
  obtain ⟨c₀, looked, lookup, replacing⟩ := Compiling.bind_ok finishing
  obtain ⟨found, rfl⟩ := Compiling.liftExcept_ok lookup
  have replacing : (updateRegistry (·.insertComposite (c₀.bindWith properties special catchAll))).run
      looked = .ok ((), t) := replacing
  simp only [updateRegistry, Compiling.run_modify, Except.ok.injEq, Prod.mk.injEq,
    true_and] at replacing
  exact ⟨looked, c₀, properties, special, catchAll, foldedTracks.trans caughtTracks,
    (bindCatchAll_keeps catching foldedSound placed custom).1.1, found, replacing.symm⟩

/-- Replacing a composite type of a sound registry by one with its stub is a later state. -/
theorem Later.insertComposite {s : Compiler} {c c₀ : Composite} (sound : s.registry.Sound)
    (found : s.registry.composite c.name = .ok c₀) (same : c.stub = c₀.stub) :
    Later s { s with registry := s.registry.insertComposite c } := by
  obtain ⟨present, named⟩ := Registry.composite_ok found
  have names : (s.registry.insertComposite c).compositeNames = s.registry.compositeNames := by
    rw [Registry.insertComposite_of_present (named ▸ List.mem_map_of_mem present)]
    exact Registry.names_replaced _
  refine ⟨⟨List.prefix_refl _, fun _ => List.prefix_refl _, ?_, names ▸ List.prefix_refl _, ?_⟩,
    ?_, fun x member => ?_, rfl⟩
  · rw [Registry.insertComposite_entries]
  · simp only [Registry.enumNames, Registry.insertComposite_enums, List.prefix_refl]
  · rw [Registry.insertComposite_enums]
  · by_cases other : x.name = c.name
    · -- the replaced type is the one the name finds
      have unique := sound.composite_eq member
      rw [other, found] at unique
      cases unique
      exact ⟨c, Registry.mem_insertComposite c, same⟩
    · exact ⟨x, Registry.mem_insertComposite_of_ne member other, rfl⟩

/-- A step on record finds every composite type where it was. -/
theorem Records.composite {s t : Compiler} (records : Records D s t) {name : String}
    {c : Composite} (found : s.registry.composite name = .ok c) :
    t.registry.composite name = .ok c := by
  obtain ⟨added, grown, -⟩ := records.stubs
  unfold Registry.composite at found ⊢
  rw [grown, List.find?_append]
  cases lookup : s.registry.composites.find? (·.name == name) with
  | none => rw [lookup] at found; cases found
  | some x => rw [lookup] at found; simpa using found

/-- Every composite type of `s` outside `bound` is a stub. -/
def StubsBesides (s : Compiler) (bound : List String) : Prop :=
  ∀ c ∈ s.registry.composites, c.name ∉ bound → c.stub = c

theorem StubsBesides.records {s t : Compiler} {bound : List String}
    (stubs : StubsBesides s bound) (records : Records D s t) : StubsBesides t bound := by
  obtain ⟨added, grown, fresh⟩ := records.stubs
  intro c member outside
  rw [grown] at member
  rcases List.mem_append.mp member with old | new
  · exact stubs c old outside
  · exact fresh c new

/-- A step on record adds composite types only as stubs, so one name's composite types stay
stubs. -/
theorem Records.stub_named {s t : Compiler} {name : String} (records : Records D s t)
    (stub : ∀ c ∈ s.registry.composites, c.name = name → c.stub = c) :
    ∀ c ∈ t.registry.composites, c.name = name → c.stub = c := by
  obtain ⟨added, grown, fresh⟩ := records.stubs
  intro c member named
  rw [grown] at member
  rcases List.mem_append.mp member with old | new
  · exact stub c old named
  · exact fresh c new

theorem StubsBesides.mono {s : Compiler} {bound bound' : List String}
    (stubs : StubsBesides s bound) (more : ∀ x ∈ bound, x ∈ bound') : StubsBesides s bound' :=
  fun c member outside => stubs c member fun inside => outside (more _ inside)

/-- What binding a custom type leaves of the rest: every composite type that was a stub and
is not the bound one is still a stub, every other composite type is found where it was, and
every definition stays registered. -/
theorem bindComposite_frame {fuel : Nat} {name : String} {s t : Compiler}
    (run : (bindComposite fuel name).run s = .ok ((), t)) (sound : Sound D s)
    (member : name ∈ s.group .custom) :
    (∀ bound, StubsBesides s bound → StubsBesides t (name :: bound)) ∧
      (∀ x c, x ≠ name → s.registry.composite x = .ok c → t.registry.composite x = .ok c) ∧
      (AllRegistered s → AllRegistered t) := by
  have keeps := bindComposite_keeps run sound member
  obtain ⟨u, c₀, properties, special, catchAll, tracks, -, found, rfl⟩ :=
    bindComposite_steps run sound member
  have named : (c₀.bindWith properties special catchAll).name = name := by
    rw [Composite.name_bindWith]
    exact (Registry.composite_ok found).2
  refine ⟨fun bound stubs x present outside => ?_, fun x c other found' => ?_,
    fun registered => registered.settles (fun p member absent => ?_) keeps.2.1⟩
  · rcases Registry.mem_of_mem_insertComposite present with old | rfl
    · exact (stubs.records tracks.1) x old fun inside => outside (List.mem_cons_of_mem _ inside)
    · exact absurd (named ▸ List.mem_cons_self) outside
  · -- in the end state a composite type is the one its name finds
    obtain ⟨present, named'⟩ := Registry.composite_ok (tracks.1.composite found')
    have kept := keeps.1.registry.composite_eq
      (Registry.mem_insertComposite_of_ne present (by rw [named', named]; exact other))
    rw [named'] at kept
    exact kept
  · rw [Registry.contains_insertComposite]
    exact tracks.2 p member absent

/-- The positions of a walk over a group before `ix + 1` are those before `ix` and the name
at `ix`. -/
theorem group_take_succ {s t : Compiler} {c : Category} {ix : Nat} {name : String}
    (grows : s.group c <+: t.group c) (found : (s.group c)[ix]? = some name) :
    (t.group c).take (ix + 1) = (s.group c).take ix ++ [name] := by
  have within : ix < (s.group c).length := (List.getElem?_eq_some_iff.mp found).1
  rw [List.take_add_one, take_of_prefix grows within.le, getElem?_longer grows found,
    Option.toList_some]

theorem StubsBesides.take_succ {s t : Compiler} {ix : Nat} {name : String}
    (stubs : StubsBesides t (name :: (s.group .custom).take ix))
    (grows : s.group .custom <+: t.group .custom) (found : (s.group .custom)[ix]? = some name) :
    StubsBesides t ((t.group .custom).take (ix + 1)) := by
  refine stubs.mono fun x inside => ?_
  rw [group_take_succ grows found]
  rcases List.mem_cons.mp inside with rfl | old
  · exact List.mem_append_right _ List.mem_cons_self
  · exact List.mem_append_left _ old

/-- The binding of the custom type `name` that a compilation made on its way to `F`: a run of
`bindComposite` from a sound state registering nothing, in which the name's composite type was
a stub, into the composite type that `F` holds under the name. -/
def BoundIn (D : Document) (F : Compiler) (name : String) : Prop :=
  ∃ (n : Nat) (s t : Compiler) (c : Composite), Sound D s ∧ s.resolving = [] ∧
    name ∈ s.group .custom ∧ (∀ c₀ ∈ s.registry.composites, c₀.name = name → c₀.stub = c₀) ∧
    (bindComposite n name).run s = .ok ((), t) ∧ Later t F ∧
    t.registry.composite name = .ok c ∧ F.registry.composite name = .ok c

theorem BoundIn.later {F F' : Compiler} {name : String} (bound : BoundIn D F name)
    (later : Later F F')
    (keeps : ∀ c, F.registry.composite name = .ok c → F'.registry.composite name = .ok c) :
    BoundIn D F' name := by
  obtain ⟨n, s, t, c, sound, idle, member, stub, run, reached, found, final⟩ := bound
  exact ⟨n, s, t, c, sound, idle, member, stub, run, reached.trans later, found, keeps c final⟩

/-- One binding: what the state before it knows of the names bound so far and of the stubs,
the state after it knows with the bound name added. -/
theorem bindComposite_boundIn {fuel : Nat} {name : String} {bound : List String} {s t : Compiler}
    (run : (bindComposite fuel name).run s = .ok ((), t)) (sound : Sound D s)
    (idle : s.resolving = []) (member : name ∈ s.group .custom) (fresh : name ∉ bound)
    (handled : s.registry.Handled) (records : ∀ x, s.registry.contains x = true → Recorded D s x)
    (stubs : StubsBesides s bound) :
    Later s t ∧ t.registry.Handled ∧ (∀ x, t.registry.contains x = true → Recorded D t x) ∧
      StubsBesides t (name :: bound) ∧ BoundIn D t name ∧
      ∀ x c, x ≠ name → s.registry.composite x = .ok c → t.registry.composite x = .ok c := by
  have keeps := bindComposite_keeps run sound member
  obtain ⟨stubs', others, -⟩ := bindComposite_frame run sound member
  obtain ⟨u, c₀, properties, special, catchAll, tracks, uSound, found, rfl⟩ :=
    bindComposite_steps run sound member
  have named : (c₀.bindWith properties special catchAll).name = name := by
    rw [Composite.name_bindWith]
    exact (Registry.composite_ok found).2
  have found' : u.registry.composite (c₀.bindWith properties special catchAll).name = .ok c₀ := by
    rw [named]
    exact found
  have replaced := Later.insertComposite uSound.registry found' (Composite.stub_bindWith _ _ _ _)
  have uIdle : u.resolving = [] := tracks.1.grown.2.trans idle
  refine ⟨tracks.1.later.trans replaced,
    Registry.Handled.insertComposite (tracks.1.handled handled) found',
    fun x registered => ?_, stubs' bound stubs, ?_, others⟩
  · have registeredU : u.registry.contains x = true := by
      rw [← Registry.contains_insertComposite]
      exact registered
    cases before : s.registry.contains x with
    | true => exact (records x before).later (tracks.1.later.trans replaced)
    | false =>
      exact (tracks.1.recorded x registeredU before (by rw [uIdle]; simp)).later replaced
  · have foundEnd := keeps.1.registry.composite_eq (Registry.mem_insertComposite
      (r := u.registry) (c₀.bindWith properties special catchAll))
    rw [named] at foundEnd
    exact ⟨fuel, s, _, _, sound, idle, member,
      fun c₁ present named₁ => stubs c₁ present (named₁ ▸ fresh), run, Later.refl _, foundEnd,
      foundEnd⟩

/-- The binding pass leaves every custom type bound and every other composite type a stub,
keeping every composite type handled and every registration on record. The induction is on
the rounds, with the custom types before the pass's position bound. -/
theorem bindFrom_boundIn {fuel : Nat} :
    ∀ (rounds ix : Nat) (s t : Compiler), (bindFrom fuel ix rounds).run s = .ok ((), t) →
      Sound D s → s.resolving = [] → D.size < ix + rounds → s.registry.Handled →
      (∀ x, s.registry.contains x = true → Recorded D s x) →
      StubsBesides s ((s.group .custom).take ix) →
      (∀ j < ix, ∀ name, (s.group .custom)[j]? = some name → BoundIn D s name) →
      Later s t ∧ t.registry.Handled ∧ (∀ x, t.registry.contains x = true → Recorded D t x) ∧
        StubsBesides t (t.group .custom) ∧ ∀ name ∈ t.group .custom, BoundIn D t name
  | 0, ix, s, t, run, sound, _, long, handled, records, stubs, earlier => by
    rw [bindFrom] at run
    obtain ⟨-, rfl⟩ := Compiling.pure_ok run
    have past := sound.past_group (by omega : D.size ≤ ix)
    refine ⟨Later.refl _, handled, records, stubs.mono fun x inside => List.mem_of_mem_take inside,
      forall_group_of_past past earlier⟩
  | rounds + 1, ix, s, t, run, sound, idle, long, handled, records, stubs, earlier => by
    rw [bindFrom] at run
    have run := get_bind_ok run
    split at run
    · next past =>
      obtain ⟨-, rfl⟩ := Compiling.pure_ok run
      exact ⟨Later.refl _, handled, records,
        stubs.mono fun x inside => List.mem_of_mem_take inside, forall_group_of_past past earlier⟩
    · next name found =>
      obtain ⟨⟨⟩, middle, binding, rest⟩ := Compiling.bind_ok run
      have member := List.mem_of_getElem? found
      have fresh := not_mem_take (sound.groupsNodup .custom) found
      have keeps := bindComposite_keeps binding sound member
      obtain ⟨later, handled', records', stubs', bound, others⟩ :=
        bindComposite_boundIn binding sound idle member fresh handled records stubs
      have grows := keeps.2.1.groups .custom
      obtain ⟨laterEnd, handledEnd, recordsEnd, stubsEnd, boundEnd⟩ :=
        bindFrom_boundIn rounds (ix + 1) middle t rest keeps.1 (keeps.2.2.trans idle) (by omega)
          handled' records' (stubs'.take_succ grows found)
          -- a type bound before keeps its composite type
          (group_step grows (sound.groupsNodup .custom) found earlier
            (fun x held other => held.later later (others x · other)) bound)
      exact ⟨later.trans laterEnd, handledEnd, recordsEnd, stubsEnd, boundEnd⟩

end Compiler

end SchemaTypes
