import SchemaTypes.Proofs.Passes

/-! # Finalization and whole compilations

The last pass completes the composite types that take their properties from others: a
passthrough type takes its target's, a type with several parents the merged properties of its
parents, each finalized first. Finalizing only replaces composite types by ones of the same
name and kind (`Registry.Completes`), so it keeps the compilation sound; it looks every parent
of a type with several parents up as a composite type, so afterwards every parent of every
composite type is one (`Registry.ParentsComposite`).

Putting the passes together, `compile_compiled` says what compiling a document gives:
`Compiled D R` collects the facts about the registry `R` that the theorems about compiled
registries start from.
-/

namespace SchemaTypes

open Compiler (Fine)

namespace Registry

variable {r t u : Registry}

/-- `t` only completes composite types of `r`: it has the same composite type names, and each
of its composite types has the name and kind of one of `r`. -/
def Completes (r t : Registry) : Prop :=
  t.compositeNames = r.compositeNames ∧
    ∀ c ∈ t.composites, ∃ c₀ ∈ r.composites, c₀.name = c.name ∧ c₀.kind = c.kind

theorem Completes.refl (r : Registry) : r.Completes r :=
  ⟨rfl, fun c member => ⟨c, member, rfl, rfl⟩⟩

theorem Completes.trans (first : r.Completes t) (second : t.Completes u) : r.Completes u := by
  refine ⟨second.1.trans first.1, fun c member => ?_⟩
  obtain ⟨c₁, present₁, name₁, kind₁⟩ := second.2 c member
  obtain ⟨c₀, present₀, name₀, kind₀⟩ := first.2 c₁ present₁
  exact ⟨c₀, present₀, name₀.trans name₁, kind₀.trans kind₁⟩

/-- Every parent of the composite type named `x` is a composite type. -/
def ParentsComposite (r : Registry) (x : String) : Prop :=
  ∀ c ∈ r.composites, c.name = x → ∀ p ∈ c.parents, p ∈ r.compositeNames

/-- Completing composite types keeps their parents composite. -/
theorem ParentsComposite.completes {x : String} (held : r.ParentsComposite x)
    (completes : r.Completes t) : t.ParentsComposite x := by
  intro c member named p parent
  obtain ⟨c₀, present, sameName, sameKind⟩ := completes.2 c member
  have sameParents : c.parents = c₀.parents := by simp only [Composite.parents, sameKind]
  rw [completes.1]
  exact held c₀ present (sameName.trans named) p (sameParents ▸ parent)

/-- Replacing a composite type by one of the same name and kind completes it. -/
theorem completes_insertComposite {c c' : Composite} (present : c ∈ r.composites)
    (sameName : c'.name = c.name) (sameKind : c'.kind = c.kind) :
    r.Completes (r.insertComposite c') := by
  have presentName : c'.name ∈ r.compositeNames := sameName ▸ List.mem_map_of_mem present
  rw [insertComposite_of_present presentName]
  refine ⟨names_replaced _, fun x member => ?_⟩
  rcases mem_replaced member with rfl | old
  · exact ⟨c, present, sameName.symm, sameKind.symm⟩
  · exact ⟨x, old, rfl, rfl⟩

/-- In a sound registry a composite type is the one its name finds. -/
theorem Sound.composite_eq {c : Composite} (sound : r.Sound) (present : c ∈ r.composites) :
    r.composite c.name = .ok c := by
  obtain ⟨found, lookup⟩ := composite_of_mem (List.mem_map_of_mem (f := (·.name)) present)
  obtain ⟨member, named⟩ := composite_ok lookup
  rw [lookup, List.inj_on_of_nodup_map sound.compositesNodup member present named]

/-- Once the parents of a composite type of a sound registry are composite types, they stay
so in every registry that completes it. -/
theorem Sound.parentsComposite {c : Composite} {x : String} (sound : r.Sound)
    (found : r.composite x = .ok c) (parents : ∀ p ∈ c.parents, p ∈ r.compositeNames)
    (completes : r.Completes t) : t.ParentsComposite x := by
  intro c' member named p parent
  obtain ⟨c₀, present, sameName, sameKind⟩ := completes.2 c' member
  have unique := sound.composite_eq present
  rw [sameName, named, found] at unique
  cases unique
  have sameParents : c'.parents = c.parents := by simp only [Composite.parents, sameKind]
  rw [completes.1]
  exact parents p (sameParents ▸ parent)

end Registry

namespace Composite

variable {r : Registry}

theorem mem_foldl_setProperty {q : Property} :
    ∀ {ps added : List Property}, q ∈ added.foldl Composite.setProperty ps → q ∈ ps ∨ q ∈ added
  | _, [], member => .inl member
  | ps, p :: added, member => by
    rw [List.foldl_cons] at member
    rcases mem_foldl_setProperty member with inner | later
    · rcases mem_setProperty inner with rfl | old
      · exact .inr List.mem_cons_self
      · exact .inl old
    · exact .inr (List.mem_cons_of_mem _ later)

/-- A passthrough type that takes the properties, catch-all and initializer of a fine type is
fine. -/
theorem FineIn.passthrough {c p : Composite} {owner : String} {special : SpecialNames}
    (fine : p.FineIn r) :
    ({ c with
      properties := p.properties, catchAll := p.catchAll,
      initializer := p.initializer.renamed owner, special := special }).FineIn r := by
  obtain ⟨covers, properties, catchAll, params, extra⟩ := fine
  have sameMentions : (p.initializer.renamed owner).mentions = p.initializer.mentions := by
    cases p.initializer <;> rfl
  have sameSignature : (p.initializer.renamed owner).signature.params =
      p.initializer.signature.params ∧
      (p.initializer.renamed owner).signature.catchAll = p.initializer.signature.catchAll := by
    cases p.initializer <;> exact ⟨rfl, rfl⟩
  refine ⟨?_, properties, catchAll, sameSignature.1 ▸ params, sameSignature.2 ▸ extra⟩
  simpa only [Composite.mentions, sameMentions] using covers

/-- A type with several parents, whose merged properties and catch-all are fine and whose
parents are composite types, is fine with the combined initializer. -/
theorem combined_fineIn {c : Composite} {owner : String} {properties : List Property}
    {catchAll : Option CatchAll} {parents : List String} {special : SpecialNames}
    (props : ∀ q ∈ properties, Fine r q.constraint q.caster)
    (extra : ∀ ca, catchAll = some ca → Fine r ca.constraint ca.caster)
    (composites : ∀ p ∈ parents, p ∈ r.compositeNames) :
    ({ c with
      properties := properties, catchAll := catchAll,
      initializer := .combined ⟨owner, properties, catchAll⟩ parents,
      special := special }).FineIn r := by
  have covers : r.Covers (properties.flatMap Property.mentions) :=
    Registry.covers_flatMap.mpr fun q member => (props q member).1
  have coversExtra : r.Covers ((catchAll.map CatchAll.mentions).getD []) :=
    Registry.covers_catchAll.mpr fun ca present => (extra ca present).1
  have coversParents : r.Covers (parents.map Mention.composite) := by
    intro m member
    obtain ⟨p, parent, rfl⟩ := List.mem_map.mp member
    exact composites p parent
  refine ⟨?_, fun q member => (props q member).2, fun ca present => (extra ca present).2,
    fun q member => (props q member).2, fun ca present => (extra ca present).2⟩
  simp only [Composite.mentions, Initializer.mentions, Constructor.mentions,
    Registry.covers_append]
  exact ⟨⟨covers, coversExtra⟩, ⟨covers, coversExtra⟩, coversParents⟩

end Composite

namespace Compiler

variable {D : Document}

/-- A finalization step keeps the compilation sound and only completes composite types. -/
def Completing (s t : Compiler) : Prop := Extends s t ∧ s.registry.Completes t.registry

theorem Completing.refl (s : Compiler) : Completing s s := ⟨.refl s, .refl _⟩

theorem Completing.trans {a b c : Compiler} (first : Completing a b) (second : Completing b c) :
    Completing a c :=
  ⟨first.1.trans second.1, first.2.trans second.2⟩

theorem replaceComposite_completes {s t : Compiler} {c c' : Composite}
    (run : (updateRegistry (·.insertComposite c')).run s = .ok ((), t))
    (present : c ∈ s.registry.composites) (sameName : c'.name = c.name)
    (sameKind : c'.kind = c.kind) : s.registry.Completes t.registry := by
  simp only [updateRegistry, Compiling.run_modify, Except.ok.injEq, Prod.mk.injEq,
    true_and] at run
  rw [← run]
  exact Registry.completes_insertComposite present sameName sameKind

/-- Finalizing a type keeps the compilation sound and only completes composite types; the
type joins the finished ones, and the parents of every finished type are composite types. -/
theorem finalize_keeps : ∀ (n : Nat) (stack : List String) (name : String) (done : List String)
    (s : Compiler) (done' : List String) (t : Compiler),
    (finalize n stack name done).run s = .ok (done', t) → Sound D s →
    (∀ x ∈ done, s.registry.ParentsComposite x) →
    Keeps D s t ∧ s.registry.Completes t.registry ∧ name ∈ done' ∧ done ⊆ done' ∧
      ∀ x ∈ done', t.registry.ParentsComposite x
  | 0, _, _, _, _, _, _, run, _, _ => by
    rw [finalize] at run
    exact (Compiling.throw_ok run).elim
  | n + 1, stack, name, done, s, done', t, run, sound, finished => by
    rw [finalize] at run
    split at run
    · next finishedBefore =>
      obtain ⟨rfl, rfl⟩ := Compiling.pure_ok run
      exact ⟨Keeps.refl sound, .refl _, by simpa using finishedBefore, fun _ h => h, finished⟩
    split at run
    · exact (Compiling.throw_ok run).elim
    have run := get_bind_ok run
    obtain ⟨c, looked, lookup, parenting⟩ := Compiling.bind_ok run
    obtain ⟨found, same⟩ := Compiling.liftExcept_ok lookup
    subst looked
    obtain ⟨present, named⟩ := Registry.composite_ok found
    -- the parents are finalized first, each keeping every finished type finished
    obtain ⟨done₁, s₁, finalizing, completing⟩ := Compiling.bind_ok parenting
    obtain ⟨sound₁, ⟨extends₁, completes₁⟩, finished₁, kept₁⟩ := Compiling.foldlM_keeps
      (Sound D) Completing Completing.refl (fun first second => first.trans second)
      (fun done' u => (∀ x ∈ done', u.registry.ParentsComposite x) ∧ done ⊆ done')
      (fun parent _ done' u done'' u' held step sound =>
        have ⟨keeps, completes, _, kept, finished⟩ :=
          finalize_keeps n (stack ++ [name]) parent done' u done'' u' step sound held.1
        ⟨keeps.1, ⟨keeps.2, completes⟩, finished, List.Subset.trans held.2 kept⟩)
      done s done₁ s₁ ⟨finished, fun _ h => h⟩ finalizing sound
    have keeps₁ : Keeps D s s₁ := ⟨sound₁, extends₁⟩
    -- the type then gets its properties; what is left to show is that its parents are
    -- composite types in the registry it ends with
    suffices completed : ∃ t', Keeps D s₁ t' ∧ s₁.registry.Completes t'.registry ∧
        (∀ p ∈ c.parents, p ∈ s.registry.compositeNames) ∧ done' = done₁ ++ [name] ∧ t = t' by
      obtain ⟨t', keeps, completes, parents, rfl, rfl⟩ := completed
      have all := completes₁.trans completes
      refine ⟨keeps₁.trans keeps, all, by simp, fun x member => List.mem_append_left _ (kept₁ member),
        fun x member => ?_⟩
      rcases List.mem_append.mp member with old | new
      · exact (finished₁ x old).completes completes
      · rw [List.mem_singleton.mp new]
        exact sound.registry.parentsComposite found parents all
    have completing := get_bind_ok completing
    split at completing
    · next custom =>
      obtain ⟨sameDone, sameState⟩ := Compiling.pure_ok completing
      exact ⟨s₁, Keeps.refl sound₁, .refl _, by simp [Composite.parents, custom], sameDone,
        sameState⟩
    · next parent passthrough =>
      obtain ⟨p, u, lookingParent, rest⟩ := Compiling.bind_ok completing
      obtain ⟨parentFound, same⟩ := Compiling.liftExcept_ok lookingParent
      subst u
      obtain ⟨c₁, u, lookingSelf, replacing⟩ := Compiling.bind_ok rest
      obtain ⟨selfFound, same⟩ := Compiling.liftExcept_ok lookingSelf
      subst u
      obtain ⟨⟨⟩, t', replaced, finishing⟩ := Compiling.bind_ok replacing
      obtain ⟨sameDone, sameState⟩ := Compiling.pure_ok finishing
      obtain ⟨parentPresent, -⟩ := Registry.composite_ok parentFound
      obtain ⟨selfPresent, -⟩ := Registry.composite_ok selfFound
      have fine : p.FineIn s₁.registry :=
        ⟨sound₁.registry.compositesCovered p parentPresent,
          sound₁.registry.compositesAgree p parentPresent⟩
      obtain ⟨after, extended⟩ := replaceComposite_keeps replaced sound₁ selfPresent rfl rfl
        fine.passthrough.1 fine.passthrough.2
      refine ⟨t', ⟨after, extended⟩, ?_, ?_, sameDone, sameState⟩
      · exact replaceComposite_completes replaced selfPresent rfl rfl
      · intro q parentOf
        simp only [Composite.parents, passthrough, List.mem_singleton] at parentOf
        subst parentOf
        exact sound.registry.passthroughParents c present q passthrough
    · next parents inheritance =>
      -- merging the parents' properties looks every parent up as a composite type
      obtain ⟨merged, u, merging, rest⟩ := Compiling.bind_ok completing
      obtain ⟨same, composites, props, extra⟩ := Compiling.foldlM_prefix
        (fun (looked : List String) (acc : List Property × Option CatchAll × SpecialNames)
            (v : Compiler) =>
          v = s₁ ∧ (∀ p ∈ looked, p ∈ s₁.registry.compositeNames) ∧
          (∀ q ∈ acc.1, Fine s₁.registry q.constraint q.caster) ∧
          (∀ ca, acc.2.1 = some ca → Fine s₁.registry ca.constraint ca.caster))
        (by
          intro looked parent _ acc v acc' v' held step
          obtain ⟨same, composites, props, extra⟩ := held
          subst same
          obtain ⟨ps, ca, sp⟩ := acc
          dsimp only at step
          obtain ⟨p, w, looking, building⟩ := Compiling.bind_ok step
          obtain ⟨parentFound, same⟩ := Compiling.liftExcept_ok looking
          subst w
          obtain ⟨rfl, rfl⟩ := Compiling.pure_ok building
          obtain ⟨parentPresent, parentNamed⟩ := Registry.composite_ok parentFound
          obtain ⟨parentProps, parentExtra⟩ := Composite.FineIn.parts
            ⟨sound₁.registry.compositesCovered p parentPresent,
              sound₁.registry.compositesAgree p parentPresent⟩
          refine ⟨rfl, fun q member => ?_, fun q member => ?_, fun x present => ?_⟩
          · rcases List.mem_append.mp member with old | new
            · exact composites q old
            · rw [List.mem_singleton.mp new, ← parentNamed]
              exact List.mem_map_of_mem parentPresent
          · rcases Composite.mem_foldl_setProperty member with old | new
            · exact props q old
            · exact parentProps q new
          · dsimp only at present
            split at present
            · exact parentExtra x present
            · exact extra x present)
        ([], none, {}) s₁ merged u ⟨rfl, by simp, by simp, by simp⟩ merging
      subst u
      obtain ⟨properties, catchAll, special⟩ := merged
      dsimp only at rest props extra
      obtain ⟨c₁, u, lookingSelf, replacing⟩ := Compiling.bind_ok rest
      obtain ⟨selfFound, same⟩ := Compiling.liftExcept_ok lookingSelf
      subst u
      obtain ⟨⟨⟩, t', replaced, finishing⟩ := Compiling.bind_ok replacing
      obtain ⟨sameDone, sameState⟩ := Compiling.pure_ok finishing
      obtain ⟨selfPresent, -⟩ := Registry.composite_ok selfFound
      obtain ⟨after, extended⟩ := replaceComposite_keeps replaced sound₁ selfPresent rfl rfl
        (Composite.combined_fineIn props extra composites).1
        (Composite.combined_fineIn props extra composites).2
      refine ⟨t', ⟨after, extended⟩, ?_, ?_, sameDone, sameState⟩
      · exact replaceComposite_completes replaced selfPresent rfl rfl
      · intro q parentOf
        simp only [Composite.parents, inheritance] at parentOf
        rw [← completes₁.1]
        exact composites q parentOf

/-- Finalizing every passthrough and multi-inheritance type keeps the compilation sound and
only completes composite types; afterwards every parent of a composite type is a composite
type. -/
theorem finalizeAll_keeps {s t : Compiler} (run : finalizeAll.run s = .ok ((), t))
    (sound : Sound D s) :
    Keeps D s t ∧ s.registry.Completes t.registry ∧
      ∀ c ∈ t.registry.composites, ∀ p ∈ c.parents, p ∈ t.registry.compositeNames := by
  unfold finalizeAll at run
  have run := get_bind_ok run
  obtain ⟨done, u, finalizing, finishing⟩ := Compiling.bind_ok run
  obtain ⟨-, rfl⟩ := Compiling.pure_ok finishing
  -- every composite type among the names finalized so far is finished
  obtain ⟨keeps, completes, finished, covered⟩ := Compiling.foldlM_prefix
    (fun (looked done : List String) (v : Compiler) =>
      Keeps D s v ∧ s.registry.Completes v.registry ∧
      (∀ x ∈ done, v.registry.ParentsComposite x) ∧
      ∀ x ∈ looked, x ∈ s.registry.compositeNames → x ∈ done)
    (by
      intro looked name _ done v done' v' held step
      obtain ⟨keeps, completes, finished, covered⟩ := held
      have step := get_bind_ok step
      split at step
      · obtain ⟨keeps', completes', finalized, kept, finished'⟩ :=
          finalize_keeps _ [] name done v done' v' step keeps.1 finished
        refine ⟨keeps.trans keeps', completes.trans completes', finished', fun x member => ?_⟩
        rcases List.mem_append.mp member with old | new
        · exact fun composite => kept (covered x old composite)
        · rw [List.mem_singleton.mp new]; exact fun _ => finalized
      · next notComposite =>
        obtain ⟨rfl, rfl⟩ := Compiling.pure_ok step
        refine ⟨keeps, completes, finished, fun x member composite => ?_⟩
        rcases List.mem_append.mp member with old | new
        · exact covered x old composite
        · rw [List.mem_singleton.mp new] at composite
          rw [← completes.1] at composite
          obtain ⟨c, found⟩ := Registry.composite_of_mem composite
          simp [found, Except.toBool] at notComposite)
    [] s done t ⟨Keeps.refl sound, .refl _, by simp, by simp⟩ finalizing
  refine ⟨keeps, completes, fun c member p parent => ?_⟩
  obtain ⟨c₀, present, named, kind⟩ := completes.2 c member
  obtain ⟨-, passthrough, inheritance⟩ := sound.kinds c₀ present
  have composite : c₀.name ∈ s.registry.compositeNames := List.mem_map_of_mem present
  -- a custom type has no parents; the others were finalized
  cases sameKind : c.kind with
  | custom => simp [Composite.parents, sameKind] at parent
  | passthrough q =>
    have grouped := passthrough q (kind.trans sameKind)
    exact finished c₀.name (covered _ (List.mem_append_left _ grouped) composite) c member
      named.symm p parent
  | multiInheritance ps =>
    have grouped := inheritance ps (kind.trans sameKind)
    exact finished c₀.name (covered _ (List.mem_append_right _ grouped) composite) c member
      named.symm p parent

/-- A whole run of the passes on a document whose definitions have distinct names ends in a
sound state that keeps the document's definitions, has every one of their names registered
and every parent of a composite type a composite type; the registry is that state's with the
root set. -/
theorem run_keeps {root : Option String} {t : Compiler}
    (nodup : (D.definitions.map (·.1)).Nodup) (running : (run root).run (start D) = .ok ((), t)) :
    ∃ u, Sound D u ∧ D.definitions <+: u.definitions ∧
      (∀ p ∈ D.definitions, u.registry.contains p.1 = true) ∧
      (∀ c ∈ u.registry.composites, ∀ p ∈ c.parents, p ∈ u.registry.compositeNames) ∧
      t.registry = { u.registry with root } := by
  unfold run at running
  obtain ⟨⟨⟩, s₀, categorizing, registering⟩ := Compiling.bind_ok running
  obtain ⟨sound₀, definitions₀, -, -⟩ := categorize_sound nodup categorizing
  have registering := get_bind_ok registering
  obtain ⟨⟨⟩, s₁, registered, discovering⟩ := Compiling.bind_ok registering
  obtain ⟨keeps₁, named⟩ := registerCategories_keeps registered sound₀
  have discovering := get_bind_ok discovering
  obtain ⟨⟨⟩, s₂, discovered, binding⟩ := Compiling.bind_ok discovering
  have discoverKeeps := discoverNested_keeps _ _ _ _ discovered keeps₁.1
  obtain ⟨⟨⟩, s₃, bound, finalizing⟩ := Compiling.bind_ok binding
  have bindKeeps := bindFrom_keeps _ _ _ _ bound discoverKeeps.1
  obtain ⟨⟨⟩, u, finalized, rooting⟩ := Compiling.bind_ok finalizing
  obtain ⟨finalKeeps, -, closed⟩ := finalizeAll_keeps finalized bindKeeps.1
  have later : Keeps D s₁ u := discoverKeeps.trans (bindKeeps.trans finalKeeps)
  have keeps := keeps₁.trans later
  simp only [updateRegistry, Compiling.run_modify, Except.ok.injEq, Prod.mk.injEq,
    true_and] at rooting
  refine ⟨u, keeps.1, definitions₀ ▸ keeps.2.1.definitions, fun p member => ?_, closed,
    by rw [← rooting]⟩
  -- every definition of the document is in the group of its category after categorizing
  obtain ⟨c, tracked⟩ := sound₀.tracked p (definitions₀ ▸ member)
  have registeredEarly := named c p.1 ((sound₀.grouped p.1 c).mpr tracked)
  exact later.2.1.contains registeredEarly

end Compiler

/-- What compiling `D` establishes about the registry it gives: the registry is sound, its root
is the document's, every definition of the document is registered with its own definition and
the category its shape fits, every entry's definition sits in the document at the entry's name,
and every parent of a composite type is a composite type. -/
structure Compiled (D : Document) (R : Registry) : Prop where
  sound : R.Sound
  root : R.root = D.root
  registered : ∀ p ∈ D.definitions, ∃ e ∈ R.entries,
    e.name = p.1 ∧ e.definition = p.2 ∧ p.2.shapeCategory = .ok e.category
  placed : ∀ e ∈ R.entries, Placed D e.name e.definition
  parentsComposite : ∀ c ∈ R.composites, ∀ p ∈ c.parents, p ∈ R.compositeNames

/-- Compiling a document whose definitions have distinct names gives a registry with all that
`Compiled` says. -/
theorem compile_compiled {D : Document} {R : Registry} (nodup : (D.definitions.map (·.1)).Nodup)
    (compiled : D.compile = .ok R) : Compiled D R := by
  unfold Document.compile at compiled
  obtain ⟨⟨⟨⟩, t⟩, running, result⟩ := Compiling.except_bind_ok compiled
  cases result
  obtain ⟨u, sound, definitions, contained, closed, rooted⟩ := Compiler.run_keeps nodup running
  rw [rooted]
  refine ⟨sound.registry.withRoot _, rfl, fun p member => ?_, fun e member => ?_, closed⟩
  · obtain ⟨e, found⟩ := Registry.entry_of_contains (contained p member)
    obtain ⟨present, named⟩ := Registry.entry_ok found
    obtain ⟨defined, fits⟩ := sound.entriesDefined e present
    have own := sound.definition?_eq (definitions.subset member)
    rw [named, own] at defined
    exact ⟨e, present, named, (Option.some.inj defined).symm, (Option.some.inj defined) ▸ fits⟩
  · exact sound.placed_of_definition? (sound.entriesDefined e member).1

end SchemaTypes
