import SchemaTypes.Proofs.Saturation

/-! # Compilation never runs out of its bounds

A compilation bounds the depth of registrations by `depthBound` of the state after
categorizing, and walks the growing group of custom types, once to find inline objects and
once to bind properties, for `depthBound + 1` rounds of the state after registering. Giving up
when a bound runs out would look like a circular reference or a walk cut short. This module
shows that it never happens: every larger bound on the depth and every larger number of
rounds gives the same run, the same registry or the same error (`compile_bounds_suffice`).

The depth is the potential of `Saturation`: every pass starts its registrations from a state
reached from the categorized one, where only the document's own definitions can be open, so
the potential is at most `5 * D.size + 4` per definition, and a pass adds at most one schema of
the document on top. The rounds are the custom types: they are distinct defined names, no more
than the document holds values (`Sound.definitions_length_le`).
-/

namespace SchemaTypes

open Relation (ReflTransGen)

/-- A part is smaller than the schema it sits in. -/
theorem Nests.size_lt {outer inner : String × Json} (nests : Nests outer inner) :
    Json.size inner.2 < Json.size outer.2 := by
  obtain ⟨d, read, member⟩ := nests
  have within : Json.size inner.2 ≤ ((d.parts outer.1).map fun p => Json.size p.2).sum :=
    List.le_sum_of_mem (List.mem_map_of_mem member)
  have parts := d.parts_size_le outer.1
  rw [← Definition.toJson_of_ofJson read, Definition.size_toJson]
  omega

/-- A placed definition is no larger than the document's definitions together. -/
theorem Placed.size_le {D : Document} {name : String} {d : Definition} (placed : Placed D name d) :
    Json.size d.toJson ≤ D.size := by
  obtain ⟨p, member, reach⟩ := placed.reaches
  have shrinks : ∀ {a b : String × Json}, ReflTransGen Nests a b → Json.size b.2 ≤ Json.size a.2 := by
    intro a b path
    induction path with
    | refl => exact le_rfl
    | tail _ nests ih => exact (Nests.size_lt nests).le.trans ih
  calc Json.size d.toJson ≤ Json.size p.2.toJson := shrinks reach
    _ ≤ D.size := List.le_sum_of_mem
      (List.mem_map_of_mem member : Json.size p.2.toJson ∈ D.definitions.map fun p => Json.size p.2.toJson)

namespace Compiling

/-- A step then a rest run the same as another step then another rest, ending in states of an
invariant, when the steps run the same, ending in states of an invariant, and the rests run the
same from every such state. -/
theorem bind_congr_keeps {α β : Type} {Inv : α → Compiler → Prop} {Inv' : β → Compiler → Prop}
    {x x' : Compiling α} {f f' : α → Compiling β} {s : Compiler}
    (first : x.run s = x'.run s ∧ ∀ a t, x.run s = .ok (a, t) → Inv a t)
    (rest : ∀ a t, Inv a t →
      (f a).run t = (f' a).run t ∧ ∀ b v, (f a).run t = .ok (b, v) → Inv' b v) :
    (x >>= f).run s = (x' >>= f').run s ∧ ∀ b v, (x >>= f).run s = .ok (b, v) → Inv' b v := by
  refine ⟨run_bind_congr first.1 fun a t ran => (rest a t (first.2 a t ran)).1, fun b v run => ?_⟩
  obtain ⟨a, t, ran, later⟩ := bind_ok run
  exact (rest a t (first.2 a t ran)).2 b v later

theorem seq_congr {Inv Inv' : Compiler → Prop} {x x' y y' : Compiling Unit} {s : Compiler}
    (first : x.run s = x'.run s ∧ ∀ t, x.run s = .ok ((), t) → Inv t)
    (rest : ∀ t, Inv t → y.run t = y'.run t ∧ ∀ v, y.run t = .ok ((), v) → Inv' v) :
    (do x; y : Compiling Unit).run s = (do x'; y' : Compiling Unit).run s ∧
      ∀ v, (do x; y : Compiling Unit).run s = .ok ((), v) → Inv' v := by
  have both : (do x; y : Compiling Unit).run s = (do x'; y' : Compiling Unit).run s ∧
      ∀ b v, (do x; y : Compiling Unit).run s = .ok (b, v) → Inv' v :=
    bind_congr_keeps ⟨first.1, fun ⟨⟩ t ran => first.2 t ran⟩
      fun ⟨⟩ t held => ⟨(rest t held).1, fun ⟨⟩ v ran => (rest t held).2 v ran⟩
  exact ⟨both.1, fun v run => both.2 () v run⟩

end Compiling

namespace Compiler

variable {D : Document} {s u : Compiler}

/-- A group of a sound state lists distinct defined names, so no more than the document holds
values. -/
theorem Sound.group_length_le (sound : Sound D s) (c : Category) : (s.group c).length ≤ D.size := by
  have defined : s.group c ⊆ s.definitions.map (·.1) := by
    intro name member
    obtain ⟨d, found, -⟩ := sound.categorized name c ((sound.grouped name c).mp member)
    exact List.mem_map_of_mem (mem_of_definition? found)
  have counted := (sound.groupsNodup c).length_le_of_subset defined
  rw [List.length_map] at counted
  exact counted.trans sound.definitions_length_le

theorem Sound.past_group {ix : Nat} (sound : Sound D s) (long : D.size ≤ ix) :
    (s.group .custom)[ix]? = none :=
  List.getElem?_eq_none ((sound.group_length_le .custom).trans long)

theorem Sound.round_left {ix rounds : Nat} {name : String} (sound : Sound D s)
    (found : (s.group .custom)[ix]? = some name) (long : D.size < ix + rounds) :
    ∃ r, rounds = r + 1 := by
  have inside : ix < (s.group .custom).length := (List.getElem?_eq_some_iff.mp found).1
  have within := sound.group_length_le .custom
  exact ⟨rounds - 1, by omega⟩

theorem openCost_le_document (definitions : s.definitions = D.definitions) :
    openCost s ≤ 5 * D.size + 4 * D.definitions.length := by
  have weights : (D.definitions.map fun p => weight p.2).sum =
      5 * D.size + 4 * D.definitions.length := by
    simp [weight, Document.size, List.sum_map_add, List.sum_map_mul_left]
    omega
  have bound := openCost_le_weights s
  rw [definitions, weights] at bound
  exact bound

theorem depthBound_start (D : Document) :
    (start D).depthBound = (D.size + D.definitions.length + 2) * (D.definitions.length + 2) * 4 := by
  simp only [depthBound, start]
  rw [foldl_add_eq (fun p => Json.size p.2.toJson) (fun acc p => by cases p; rfl), Nat.zero_add,
    Document.size]

/-- The compiler's bound on the depth covers every pass's need. -/
theorem need_le_depthBound (D : Document) :
    10 * D.size + 4 * D.definitions.length + 7 ≤ (start D).depthBound := by
  rw [depthBound_start]
  cases counted : D.definitions with
  | nil =>
    have empty : D.size = 0 := by simp [Document.size, counted]
    simp [empty]
  | cons p rest =>
    -- with a definition there are at least three factors of the sum
    have three : 3 ≤ (p :: rest).length + 2 := by simp
    calc 10 * D.size + 4 * (p :: rest).length + 7
        ≤ (D.size + (p :: rest).length + 2) * 3 * 4 := by omega
      _ ≤ (D.size + (p :: rest).length + 2) * ((p :: rest).length + 2) * 4 := by
        apply Nat.mul_le_mul_right
        exact Nat.mul_le_mul_left _ three

theorem Reaches.pure {α : Type} {a b : α} {t : Compiler} (reaches : Reaches D s u)
    (run : (pure a : Compiling α).run u = .ok (b, t)) : Reaches D s t := by
  obtain ⟨-, rfl⟩ := Compiling.pure_ok run
  exact reaches

/-! ## Registering the categories -/

theorem registerCategories_bound_eq {fuel fuel' : Nat} (sound : Sound D s)
    (enough : openCost s + 1 ≤ fuel) (enough' : openCost s + 1 ≤ fuel') :
    (Category.order.forM (registerCategory fuel)).run s =
        (Category.order.forM (registerCategory fuel')).run s ∧
      ∀ t, (Category.order.forM (registerCategory fuel)).run s = .ok ((), t) → Reaches D s t := by
  refine Compiling.forM_congr (Reaches D s) (fun c _ u reaches => ?_) s (Reaches.refl sound)
  unfold registerCategory
  rw [Compiling.run_get_bind, Compiling.run_get_bind]
  refine Compiling.forM_congr (Reaches D s) (fun name _ v reachesName => ?_) u reaches
  have cheaper := reachesName.openCost_le
  exact ⟨registerNamed_bound_eq reachesName.1 (by omega) (by omega),
    fun t run => reachesName.registerNamed run⟩

/-! ## Inline objects under properties -/

theorem discoverNested_past {fuel ix rounds : Nat} (past : (u.group .custom)[ix]? = none) :
    (discoverNested fuel ix rounds).run u = .ok ((), u) := by
  cases rounds with
  | zero => rfl
  | succ rounds =>
    rw [discoverNested, Compiling.run_get_bind]
    simp only [past]
    rfl

/-- Adopting an inline object and registering it runs the same with any bound above the
potential and one schema of the document, and registers what it adopts. -/
theorem adoptNamed_bound_eq {fuel fuel' : Nat} {name : String} {e : Definition}
    (reaches : Reaches D s u) (undefined : u.definition? name = none) (placed : Placed D name e)
    (custom : e.shapeCategory = .ok .custom)
    (enough : openCost s + 5 * D.size + 5 ≤ fuel) (enough' : openCost s + 5 * D.size + 5 ≤ fuel') :
    (do adopt name e .custom; registerNamed fuel name : Compiling Unit).run u =
        (do adopt name e .custom; registerNamed fuel' name : Compiling Unit).run u ∧
      ∀ t, (do adopt name e .custom; registerNamed fuel name : Compiling Unit).run u = .ok ((), t) →
        Reaches D s t := by
  -- the adoption adds at most one schema of the document to the potential
  have adopted : ∀ a, (adopt name e .custom).run u = .ok ((), a) →
      Sound D a ∧ Extends u a ∧ a.definitions = u.definitions ++ [(name, e)] ∧
        openCost a + 1 ≤ fuel ∧ openCost a + 1 ≤ fuel' := by
    intro a adopting
    obtain ⟨adoptedSound, grows, resolving, -, -⟩ := adopt_keeps adopting reaches.1 undefined placed custom
    obtain ⟨appended, registry, resolving'⟩ := adopt_definitions adopting undefined
    have cost := openCost_adopt appended registry resolving'
    have small := placed.size_le
    have cheaper := reaches.openCost_le
    unfold weight at cost
    exact ⟨adoptedSound, ⟨grows, resolving⟩, appended, by omega, by omega⟩
  refine ⟨Compiling.run_bind_congr rfl fun _ a adopting => ?_, fun t run => ?_⟩
  · obtain ⟨adoptedSound, -, -, enoughHere, enoughHere'⟩ := adopted a adopting
    exact registerNamed_bound_eq adoptedSound enoughHere enoughHere'
  · obtain ⟨⟨⟩, a, adopting, registering⟩ := Compiling.bind_ok run
    obtain ⟨adoptedSound, extended, appended, -, -⟩ := adopted a adopting
    obtain ⟨keeps, contained⟩ := (specs fuel).registerNamed registering adoptedSound
    have settles := Settles.adopted appended ((adoptions fuel).registerNamed registering adoptedSound)
      contained
    exact ⟨keeps.1, reaches.2.trans ⟨extended.trans keeps.2, settles⟩⟩

/-- Both walks for inline objects run the same, with any bounds above the need of one schema
of the document on top of the potential and any numbers of rounds past the group's end, and
register what they adopt. The induction is on the rounds of the first walk. -/
theorem discoverNested_bounds_eq {fuel fuel' : Nat}
    (enough : openCost s + 5 * D.size + 5 ≤ fuel) (enough' : openCost s + 5 * D.size + 5 ≤ fuel') :
    ∀ (rounds rounds' ix : Nat) (u : Compiler), Reaches D s u → D.size < ix + rounds →
      D.size < ix + rounds' →
      (discoverNested fuel ix rounds).run u = (discoverNested fuel' ix rounds').run u ∧
        ∀ t, (discoverNested fuel ix rounds).run u = .ok ((), t) → Reaches D s t := by
  intro rounds
  induction rounds with
  | zero =>
    intro rounds' ix u reaches long long'
    have past := reaches.1.past_group (by omega : D.size ≤ ix)
    rw [discoverNested_past past, discoverNested_past past]
    exact ⟨rfl, fun t run => reaches.pure run⟩
  | succ rounds ih =>
    intro rounds' ix u reaches long long'
    cases found : (u.group .custom)[ix]? with
    | none =>
      rw [discoverNested_past found, discoverNested_past found]
      exact ⟨rfl, fun t run => reaches.pure run⟩
    | some owner =>
      obtain ⟨rounds', rfl⟩ := reaches.1.round_left found long'
      obtain ⟨d, defined, placed, custom⟩ := reaches.1.custom (List.mem_of_getElem? found)
      rw [discoverNested, discoverNested, Compiling.run_get_bind, Compiling.run_get_bind]
      simp only [found, defined]
      refine Compiling.seq_congr (Compiling.forM_congr (Reaches D s) ?_ u reaches)
        fun w walked => ih rounds' (ix + 1) w walked (by omega) (by omega)
      rintro ⟨key, schema⟩ member v reachesHere
      dsimp only
      cases read : Definition.ofJson schema with
      | error => exact ⟨rfl, fun t run => reachesHere.pure run⟩
      | ok nested =>
        dsimp only
        by_cases free : nested.isUnconstrained = true
        · rw [if_pos free, if_pos free]
          exact ⟨rfl, fun t run => reachesHere.pure run⟩
        rw [if_neg free, if_neg free]
        split
        · next shape =>
          rw [Compiling.run_get_bind, Compiling.run_get_bind]
          by_cases taken : (v.definition? (propertyHint owner key)).isSome = true
          · rw [if_pos taken, if_pos taken]
            exact ⟨rfl, fun t run => reachesHere.pure run⟩
          rw [if_neg taken, if_neg taken]
          have nestedPlaced : Placed D (propertyHint owner key) nested :=
            .property placed custom member read
          exact adoptNamed_bound_eq reachesHere (Option.not_isSome_iff_eq_none.mp taken)
            nestedPlaced shape enough enough'
        · exact ⟨rfl, fun t run => reachesHere.pure run⟩

/-! ## Binding properties

Every binding step runs the same with any two bounds above the need of one schema of the
document on top of the potential, and registers what it adopts. -/

section Binding

variable {fuel fuel' : Nat} {name : String} {d : Definition}
  (enough : openCost s + 5 * D.size + 7 ≤ fuel) (enough' : openCost s + 5 * D.size + 7 ≤ fuel')
include enough enough'

theorem readResolve_bound_eq {β : Type} {j : Json} {hint : String}
    {k : TypeHandle × Caster → Compiling β} {Inv : β → Compiler → Prop}
    (reaches : Reaches D s u) (placedAt : ∀ e, Definition.ofJson j = .ok e → Placed D hint e)
    (rest : ∀ hk t, Reaches D s t → ∀ b v, (k hk).run t = .ok (b, v) → Inv b v) :
    (definitionOf j hint >>= fun e => resolve fuel e hint >>= k).run u =
        (definitionOf j hint >>= fun e => resolve fuel' e hint >>= k).run u ∧
      ∀ b v, (definitionOf j hint >>= fun e => resolve fuel e hint >>= k).run u = .ok (b, v) →
        Inv b v := by
  refine Compiling.bind_congr_keeps ⟨rfl, fun e t reading => definitionOf_ok reading⟩ ?_
  rintro e t ⟨rfl, read⟩
  have small := (placedAt e read).size_le
  have cheaper := reaches.openCost_le
  exact Compiling.bind_congr_keeps
    ⟨resolve_bound_eq reaches.1 (placedAt e read) (by omega) (by omega),
      fun hk v resolved => reaches.resolve resolved (placedAt e read)⟩
    fun hk v reachesHere => ⟨rfl, rest hk v reachesHere⟩

theorem bindProperty_bound_eq {external : String} {special : SpecialNames} {schema : Json}
    {required : Bool} (reaches : Reaches D s u) (spelling : Naming.KeepsSpelling special)
    (placed : Placed D name d) (custom : d.shapeCategory = .ok .custom)
    (member : (external, schema) ∈ d.properties?.getD []) :
    (bindProperty fuel name special external schema required).run u =
        (bindProperty fuel' name special external schema required).run u ∧
      ∀ b t, (bindProperty fuel name special external schema required).run u = .ok (b, t) →
        Reaches D s t ∧ Naming.KeepsSpelling b.2 := by
  obtain ⟨spelled, keepsSpelling⟩ := Naming.pascalToSnake_special spelling external
  unfold bindProperty
  generalize Naming.pascalToSnake external special = converted at spelled keepsSpelling ⊢
  obtain ⟨internal, converted⟩ := converted
  dsimp only at spelled keepsSpelling ⊢
  -- the property's schema is a schema of the document, under the property's own name
  have placedAt : ∀ e, Definition.ofJson schema = .ok e → Placed D (name ++ "_" ++ internal) e := by
    intro e read
    rw [spelled]
    exact .property placed custom member read
  refine readResolve_bound_eq enough enough' reaches placedAt ?_
  rintro ⟨h, k⟩ t reachesHere b v building
  dsimp only at building
  split at building
  all_goals
    obtain ⟨rfl, rfl⟩ := Compiling.pure_ok building
    exact ⟨reachesHere, keepsSpelling⟩

theorem bindCatchAll_bound_eq (reaches : Reaches D s u) (placed : Placed D name d)
    (custom : d.shapeCategory = .ok .custom) :
    (bindCatchAll fuel name d).run u = (bindCatchAll fuel' name d).run u ∧
      ∀ catchAll t, (bindCatchAll fuel name d).run u = .ok (catchAll, t) → Reaches D s t := by
  unfold bindCatchAll
  split
  · exact ⟨rfl, fun _ t run => reaches.pure run⟩
  · exact ⟨rfl, fun _ t run => reaches.pure run⟩
  · exact ⟨rfl, fun _ t run => reaches.pure run⟩
  · next schema notFalse notTrue given =>
    have placedAt : ∀ e, Definition.ofJson schema = .ok e →
        Placed D (name ++ "_AdditionalProperties") e := fun e read =>
      .extra placed custom given (fun same => notTrue same) (fun same => notFalse same) read
    refine readResolve_bound_eq enough enough' reaches placedAt ?_
    rintro ⟨h, k⟩ t reachesHere b v building
    obtain ⟨-, rfl⟩ := Compiling.pure_ok building
    exact reachesHere

theorem bindComposite_bound_eq (reaches : Reaches D s u) (member : name ∈ u.group .custom) :
    (bindComposite fuel name).run u = (bindComposite fuel' name).run u ∧
      ∀ t, (bindComposite fuel name).run u = .ok ((), t) → Reaches D s t := by
  obtain ⟨d, defined, placed, custom⟩ := reaches.1.custom member
  -- the steps settle what they adopt; soundness and growth come from `bindComposite_keeps`
  have settling : (bindComposite fuel name).run u = (bindComposite fuel' name).run u ∧
      ∀ b t, (bindComposite fuel name).run u = .ok (b, t) → Settles s t := by
    unfold bindComposite
    rw [Compiling.run_get_bind, Compiling.run_get_bind]
    simp only [defined]
    generalize splitting : d.splitByRequired = parts
    obtain ⟨required, optional⟩ := parts
    dsimp only
    refine Compiling.bind_congr_keeps (Compiling.foldlM_congr
      (fun acc v => Reaches D s v ∧ Naming.KeepsSpelling acc.2) ?_ ([], {}) u
      ⟨reaches, fun _ absent => by simp at absent⟩) ?_
    · rintro ⟨⟨external, schema⟩, req⟩ declared ⟨ps, sp⟩ v ⟨reachesHere, spelling⟩
      have listed : (external, schema) ∈ d.properties?.getD [] := by
        apply mem_of_splitByRequired
        rw [splitting]
        simp only [List.mem_append, List.mem_map, Prod.mk.injEq] at declared
        rcases declared with ⟨y, present, rfl, -⟩ | ⟨y, present, rfl, -⟩
        · exact .inl present
        · exact .inr present
      dsimp only
      refine Compiling.bind_congr_keeps
        (bindProperty_bound_eq enough enough' reachesHere spelling placed custom listed) ?_
      rintro ⟨p, sp'⟩ w bound
      refine ⟨rfl, fun acc' t run => ?_⟩
      obtain ⟨rfl, rfl⟩ := Compiling.pure_ok run
      exact bound
    · rintro ⟨properties, special⟩ v ⟨foldedReaches, -⟩
      refine Compiling.bind_congr_keeps
        (bindCatchAll_bound_eq enough enough' foldedReaches placed custom) ?_
      intro catchAll w caughtReaches
      refine ⟨rfl, fun b t run => ?_⟩
      -- what is left only replaces the composite type, keeping every name registered
      have run := get_bind_ok run
      obtain ⟨c, looked, lookup, replacing⟩ := Compiling.bind_ok run
      obtain ⟨-, rfl⟩ := Compiling.liftExcept_ok lookup
      exact Settles.update caughtReaches.2.2 replacing fun _ registered => by
        rw [Registry.contains_insertComposite]
        exact registered
  refine ⟨settling.1, fun t run => ?_⟩
  have keeps := bindComposite_keeps run reaches.1 member
  exact ⟨keeps.1, reaches.2.1.trans keeps.2, settling.2 () t run⟩

end Binding

theorem bindFrom_past {fuel ix rounds : Nat} (past : (u.group .custom)[ix]? = none) :
    (bindFrom fuel ix rounds).run u = .ok ((), u) := by
  cases rounds with
  | zero => rfl
  | succ rounds =>
    rw [bindFrom, Compiling.run_get_bind]
    simp only [past]
    rfl

/-- Both walks binding the custom types run the same, with any bounds above the need of one
schema of the document on top of the potential and any numbers of rounds past the group's end.
The induction is on the rounds of the first walk. -/
theorem bindFrom_bounds_eq {fuel fuel' : Nat}
    (enough : openCost s + 5 * D.size + 7 ≤ fuel) (enough' : openCost s + 5 * D.size + 7 ≤ fuel') :
    ∀ (rounds rounds' ix : Nat) (u : Compiler), Reaches D s u → D.size < ix + rounds →
      D.size < ix + rounds' →
      (bindFrom fuel ix rounds).run u = (bindFrom fuel' ix rounds').run u ∧
        ∀ t, (bindFrom fuel ix rounds).run u = .ok ((), t) → Reaches D s t := by
  intro rounds
  induction rounds with
  | zero =>
    intro rounds' ix u reaches long long'
    have past := reaches.1.past_group (by omega : D.size ≤ ix)
    rw [bindFrom_past past, bindFrom_past past]
    exact ⟨rfl, fun t run => reaches.pure run⟩
  | succ rounds ih =>
    intro rounds' ix u reaches long long'
    cases found : (u.group .custom)[ix]? with
    | none =>
      rw [bindFrom_past found, bindFrom_past found]
      exact ⟨rfl, fun t run => reaches.pure run⟩
    | some name =>
      obtain ⟨rounds', rfl⟩ := reaches.1.round_left found long'
      rw [bindFrom, bindFrom, Compiling.run_get_bind, Compiling.run_get_bind]
      simp only [found]
      exact Compiling.seq_congr
        (bindComposite_bound_eq enough enough' reaches (List.mem_of_getElem? found))
        fun w bound => ih rounds' (ix + 1) w bound (by omega) (by omega)

/-! ## The whole compilation -/

/-- The passes of `run`, with the bound on the depth of registrations and the rounds of the
walks over the custom types given instead of computed. -/
def runWith (fuel rounds : Nat) (root : Option String) : Compiling Unit := do
  categorize
  Category.order.forM (registerCategory fuel)
  discoverNested fuel 0 rounds
  bindFrom fuel 0 rounds
  finalizeAll
  updateRegistry fun r => { r with root }

/-- The bounds of a compilation suffice: every bound on the depth of registrations from the
compiler's own on, and every number of rounds past the document's size, gives the run the
compiler makes, with the same registry or the same error. -/
theorem compile_bounds_suffice {fuel rounds : Nat} (nodup : (D.definitions.map (·.1)).Nodup)
    (deep : (start D).depthBound ≤ fuel) (long : D.size < rounds) :
    (runWith fuel rounds D.root).run (start D) = (run D.root).run (start D) := by
  unfold runWith run
  refine Compiling.run_bind_congr rfl fun _ categorized categorizing => ?_
  obtain ⟨sound, definitions, -, -⟩ := categorize_sound nodup categorizing
  rw [Compiling.run_get_bind]
  -- every pass needs at most the potential of the categorized state and one schema on top
  have sameBound : categorized.depthBound = (start D).depthBound := by
    simp only [depthBound, definitions, start]
  have cost := openCost_le_document definitions
  have need := need_le_depthBound D
  obtain ⟨sameRegistration, registered⟩ :=
    registerCategories_bound_eq sound (by omega : openCost categorized + 1 ≤ fuel)
      (by omega : openCost categorized + 1 ≤ categorized.depthBound)
  refine Compiling.run_bind_congr sameRegistration fun _ u registering => ?_
  have reaches := registered u registering
  rw [Compiling.run_get_bind]
  -- the walks run past the group's end, which holds no more than the document's values
  have longEnough : D.size < u.depthBound + 1 := by
    have kept : D.definitions <+: u.definitions := definitions ▸ reaches.2.1.1.definitions
    have := size_le_depthBound kept
    omega
  obtain ⟨sameDiscovery, discovered⟩ := discoverNested_bounds_eq
    (by omega : openCost categorized + 5 * D.size + 5 ≤ fuel)
    (by omega : openCost categorized + 5 * D.size + 5 ≤ categorized.depthBound)
    rounds (u.depthBound + 1) 0 u reaches (by omega) (by omega)
  refine Compiling.run_bind_congr sameDiscovery fun _ v discovering => ?_
  obtain ⟨sameBinding, -⟩ := bindFrom_bounds_eq
    (by omega : openCost categorized + 5 * D.size + 7 ≤ fuel)
    (by omega : openCost categorized + 5 * D.size + 7 ≤ categorized.depthBound)
    rounds (u.depthBound + 1) 0 v (discovered v discovering) (by omega) (by omega)
  exact Compiling.run_bind_congr_left sameBinding

/-- A larger bound and more rounds than the compiler's own compile the kennel document the same
way. -/
theorem kennel_bounds_suffice :
    (runWith ((start kennel).depthBound + 100) (kennel.size + 5) kennel.root).run (start kennel) =
      (run kennel.root).run (start kennel) :=
  compile_bounds_suffice (by decide) (Nat.le_add_right _ _) (by omega)

end Compiler

end SchemaTypes
