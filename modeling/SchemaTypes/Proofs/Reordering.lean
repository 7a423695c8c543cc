import SchemaTypes.Proofs.PassReplay
import SchemaTypes.Proofs.Finishing

/-! # Definitions in another order

Two documents whose definitions are the same up to order place the same schemas at the same
names, share the patterns that mark timestamps and UUIDs and have the same size, so every
property of a document read off its placements holds of both (`Placed.of_perm`).

A compilation of either starts the same way: categorizing succeeds as soon as every definition
has a shape (`categorize_ok`). `firstRun` takes a successful compilation apart at the ends of
its passes (`Compiler.FirstRun`): the state `H` after the walk for inline objects and the state
`B` after binding, against which a compilation in another order is followed, and what
finalization makes of `B`'s composite types in the registry compiled.
-/

namespace SchemaTypes

variable {D D' : Document}

/-! ## Reordered documents -/

/-- A schema placed in a document is placed at the same name in every reordering of it. -/
theorem Placed.of_perm (perm : D'.definitions.Perm D.definitions) {name : String}
    {d : Definition} (placed : Placed D name d) : Placed D' name d := by
  induction placed with
  | document member => exact .document (perm.mem_iff.mpr member)
  | item _ category items notTrue read ih => exact .item ih category items notTrue read
  | option _ category member notNull read ih => exact .option ih category member notNull read
  | branch _ category parts member read ih => exact .branch ih category parts member read
  | parent _ category member read ih => exact .parent ih category member read
  | property _ category member read ih => exact .property ih category member read
  | extra _ category schema notTrue notFalse read ih =>
    exact .extra ih category schema notTrue notFalse read

theorem Document.Unclashed.of_perm (perm : D'.definitions.Perm D.definitions)
    (unclashed : D.Unclashed) : D'.Unclashed := by
  intro name d e placed placed' undefined
  exact unclashed name d e (placed.of_perm perm.symm) (placed'.of_perm perm.symm)
    fun defined => undefined ((perm.map _).mem_iff.mpr defined)

theorem Document.ReferencesDefined.of_perm (perm : D'.definitions.Perm D.definitions)
    (references : D.ReferencesDefined) : D'.ReferencesDefined := by
  intro name d target e placed refers placedTarget
  exact (perm.map _).mem_iff.mpr
    (references name d target e (placed.of_perm perm.symm) refers (placedTarget.of_perm perm.symm))

theorem Document.size_perm (perm : D'.definitions.Perm D.definitions) : D'.size = D.size :=
  (perm.map _).sum_eq

/-- Among items of distinct names, a lookup by name finds the same item in every order. -/
theorem find?_perm {α : Type} {items items' : List α} {k : α → String}
    (perm : items'.Perm items) (nodup : (items.map k).Nodup) (name : String) :
    items'.find? (fun y => k y == name) = items.find? (fun y => k y == name) := by
  cases found : items.find? (fun y => k y == name) with
  | none =>
    rw [List.find?_eq_none] at found ⊢
    exact fun x member => found x (perm.subset member)
  | some x =>
    obtain ⟨member, named⟩ := find?_named found
    have present : name ∈ items'.map k :=
      (perm.map k).mem_iff.mpr (named ▸ List.mem_map_of_mem member)
    obtain ⟨y, found'⟩ := find?_named_isSome present
    obtain ⟨member', named'⟩ := find?_named found'
    rw [found', List.inj_on_of_nodup_map nodup (perm.subset member') member
      (named'.trans named.symm)]

theorem Document.patterns_perm (perm : D'.definitions.Perm D.definitions)
    (nodup : (D.definitions.map (·.1)).Nodup) : D'.patterns = D.patterns := by
  unfold Document.patterns
  simp only [find?_perm (k := Prod.fst) perm nodup]

/-! ## Categorizing -/

namespace Compiling

variable {β γ : Type}

/-- A `mapM` loop whose steps all succeed without changing the state succeeds. -/
theorem mapM_reads_ok {xs : List γ} {f : γ → Compiling β} {s : Compiler}
    (step : ∀ x ∈ xs, ∃ b, (f x).run s = .ok (b, s)) :
    ∃ ys t, (xs.mapM f).run s = .ok (ys, t) ∧ t = s := by
  induction xs with
  | nil => exact ⟨[], s, rfl, rfl⟩
  | cons x xs ih =>
    obtain ⟨b, first⟩ := step x List.mem_cons_self
    obtain ⟨ys, t, rest, same⟩ := ih fun y member => step y (List.mem_cons_of_mem _ member)
    rw [same] at rest
    exact ⟨b :: ys, s, by rw [List.mapM_cons, run_bind_of first, run_bind_of rest]; rfl, rfl⟩

/-- A `forM` loop succeeds, keeping `Inv`, when every step succeeds and keeps it. -/
theorem forM_ok {xs : List γ} {f : γ → Compiling PUnit} (Inv : Compiler → Prop)
    (step : ∀ x ∈ xs, ∀ s, Inv s → ∃ t, (f x).run s = .ok ((), t) ∧ Inv t) :
    ∀ s, Inv s → ∃ t, (forM xs f).run s = .ok ((), t) ∧ Inv t := by
  induction xs with
  | nil => exact fun s holds => ⟨s, rfl, holds⟩
  | cons x xs ih =>
    intro s holds
    obtain ⟨u, first, middle⟩ := step x List.mem_cons_self s holds
    obtain ⟨t, rest, final⟩ :=
      ih (fun y member => step y (List.mem_cons_of_mem _ member)) u middle
    exact ⟨t, by rw [List.forM_cons, run_bind_of first]; exact rest, final⟩

end Compiling

namespace Compiler

/-- Categorizing a document whose every definition has a shape succeeds, and keeps the
document's patterns. -/
theorem categorize_ok (fits : ∀ p ∈ D.definitions, ∃ c, p.2.shapeCategory = .ok c) :
    ∃ t, categorize.run (start D) = .ok ((), t) ∧ t.patterns = D.patterns := by
  unfold categorize
  rw [Compiling.run_get_bind]
  refine Compiling.ok_unit (Compiling.ok_bind (P := fun _ u => u = start D)
    (Compiling.mapM_reads_ok fun p member => ?_) ?_)
  · obtain ⟨name, d⟩ := p
    obtain ⟨c, fit⟩ := fits (name, d) member
    refine ⟨(name, c), ?_⟩
    simp only [categoryOf, fit]
    rfl
  · rintro categorized u - rfl
    refine ⟨(), ?_⟩
    -- tracking a name changes only the categories and groups
    exact Compiling.forM_ok (fun t => t.patterns = D.patterns)
      (fun p _ s kept => by
        obtain ⟨name, c⟩ := p
        exact ⟨_, rfl, kept⟩) (start D) rfl

/-- A compilation of a reordering of `D` is a compilation of `D`: soundness reads the document
only through its placements. -/
theorem Sound.of_perm {s : Compiler} (perm : D'.definitions.Perm D.definitions)
    (sound : Sound D' s) : Sound D s :=
  { sound with placed := fun p member => (sound.placed p member).of_perm perm.symm }

/-! ## A compilation pass by pass -/

/-- Binding keeps the names of the enumerations distinct: it registers them as registration
does and replaces only composite types. -/
theorem bindFrom_enumsNodup {fuel : Nat} :
    ∀ (rounds ix : Nat) (s t : Compiler), (bindFrom fuel ix rounds).run s = .ok ((), t) →
      Sound D s → s.registry.enumNames.Nodup → t.registry.enumNames.Nodup
  | 0, _, s, t, run, _, nodup => by
    rw [bindFrom] at run
    obtain ⟨-, rfl⟩ := Compiling.pure_ok run
    exact nodup
  | rounds + 1, ix, s, t, run, sound, nodup => by
    rw [bindFrom] at run
    have run := get_bind_ok run
    split at run
    · obtain ⟨-, rfl⟩ := Compiling.pure_ok run
      exact nodup
    · next name found =>
      obtain ⟨⟨⟩, middle, binding, rest⟩ := Compiling.bind_ok run
      have member := List.mem_of_getElem? found
      obtain ⟨u, c₀, properties, special, catchAll, tracks, -, -, replaced⟩ :=
        bindComposite_steps binding sound member
      have nodupMiddle : middle.registry.enumNames.Nodup := by
        rw [replaced]
        simpa only [Registry.enumNames, Registry.insertComposite_enums] using
          tracks.1.enumsNodup nodup
      exact bindFrom_enumsNodup rounds (ix + 1) middle t rest
        (bindComposite_keeps binding sound member).1 nodupMiddle

/-- What a successful compilation of `D` into `R` passes through: `H` is its state after the walk
for inline objects and `B` its state after binding, each on record for a compilation in another
order to follow (`Oracle`), and `R`'s composite types are what finalization makes of `B`'s. -/
structure FirstRun (D : Document) (H B : Compiler) (R : Registry) : Prop where
  shaped : ∀ p ∈ D.definitions, ∃ c, p.2.shapeCategory = .ok c
  oracleH : Oracle D H
  covers : ∀ p ∈ D.definitions, p ∈ H.definitions
  patterns : H.patterns = D.patterns
  registered : AllRegistered H
  discovered : ∀ owner ∈ H.group .custom, Discovered H owner
  stubs : ∀ c ∈ H.registry.composites, c.stub = c
  later : Later H B
  oracleB : Oracle D B
  handled : B.registry.Handled
  bound : ∀ name ∈ B.group .custom, BoundIn D B name
  boundStubs : StubsBesides B (B.group .custom)
  closed : ∀ c ∈ B.registry.composites, ∀ p ∈ c.parents, p ∈ B.registry.compositeNames
  entries : R.entries = B.registry.entries
  enums : R.enums = B.registry.enums
  names : R.compositeNames = B.registry.compositeNames
  finished : ∀ c ∈ R.composites, B.registry.Finished c.name c
  root : R.root = D.root
  sound : R.Sound
  enumsNodup : R.enumNames.Nodup

/-- Every successful compilation of a document whose definitions have distinct names passes
through states as `FirstRun` says. -/
theorem firstRun {R : Registry} (nodup : (D.definitions.map (·.1)).Nodup)
    (compiled : D.compile = .ok R) : ∃ H B, FirstRun D H B R := by
  have compiledR := compile_compiled nodup compiled
  unfold Document.compile at compiled
  obtain ⟨⟨⟨⟩, final⟩, running, result⟩ := Compiling.except_bind_ok compiled
  cases result
  unfold run at running
  obtain ⟨⟨⟩, s₀, categorizing, registering⟩ := Compiling.bind_ok running
  obtain ⟨sound₀, definitions₀, registry₀, resolving₀⟩ := categorize_sound nodup categorizing
  have shaped : ∀ p ∈ D.definitions, ∃ c, p.2.shapeCategory = .ok c := fun p member =>
    (compiledR.registered p member).elim fun e facts => ⟨e.category, facts.2.2.2⟩
  have patterns₀ : s₀.patterns = D.patterns := by
    obtain ⟨s₀', categorizing', patterns₀'⟩ := categorize_ok shaped
    have same := categorizing.symm.trans categorizing'
    simp only [Except.ok.injEq, Prod.mk.injEq, true_and] at same
    rw [same]
    exact patterns₀'
  have noComposites : ∀ c ∈ s₀.registry.composites, False := by simp [registry₀]
  -- registering the categories and walking for inline objects are on record
  have registering := get_bind_ok registering
  obtain ⟨⟨⟩, s₁, registered, discovering⟩ := Compiling.bind_ok registering
  obtain ⟨keeps₁, -⟩ := registerCategories_keeps registered sound₀
  have tracks₁ := registerCategories_tracks registered sound₀
  have discovering := get_bind_ok discovering
  obtain ⟨⟨⟩, H, walked, binding⟩ := Compiling.bind_ok discovering
  have long : D.size < 0 + (s₁.depthBound + 1) := by
    have := size_le_depthBound (definitions₀ ▸ keeps₁.2.1.definitions)
    omega
  have keepsH := discoverNested_keeps _ _ _ _ walked keeps₁.1
  obtain ⟨recordsH, registeredH, discoveredH⟩ := discoverNested_discovers _ _ _ _ walked keeps₁.1
    (registerCategories_allRegistered registered sound₀) long
    fun j below => absurd below (Nat.not_lt_zero j)
  have records := tracks₁.1.trans recordsH
  have idleH : H.resolving = [] := keepsH.2.2.trans (keeps₁.2.2.trans resolving₀)
  have stubsH : StubsBesides H [] :=
    StubsBesides.records (fun c member => (noComposites c member).elim) records
  have recordedH : ∀ x, H.registry.contains x = true → Recorded D H x := fun x present =>
    records.recorded x present (by rw [registry₀]; rfl) (by simp [idleH])
  -- binding
  obtain ⟨⟨⟩, B, binds, finalizing⟩ := Compiling.bind_ok binding
  have keepsB := bindFrom_keeps _ _ _ _ binds keepsH.1
  obtain ⟨laterB, handledB, recordedB, stubsB, boundB⟩ := bindFrom_boundIn _ _ _ _ binds keepsH.1
    idleH long (records.handled fun c member => (noComposites c member).elim) recordedH
    (by simpa using stubsH) fun j below => absurd below (Nat.not_lt_zero j)
  -- finalizing
  obtain ⟨⟨⟩, T, finalized, rooting⟩ := Compiling.bind_ok finalizing
  obtain ⟨keepsT, completes, closedT⟩ := finalizeAll_keeps finalized keepsB.1
  have closedB : ∀ c ∈ B.registry.composites, ∀ p ∈ c.parents, p ∈ B.registry.compositeNames := by
    intro c present p parent
    -- the finished type of `c`'s name has `c`'s kind, so its parents
    have inT : c.name ∈ T.registry.compositeNames := by
      rw [completes.1]
      exact List.mem_map_of_mem present
    obtain ⟨c', found'⟩ := Registry.composite_of_mem inT
    obtain ⟨present', named'⟩ := Registry.composite_ok found'
    obtain ⟨c₀, present₀, named₀, kind₀⟩ := completes.2 c' present'
    obtain rfl : c₀ = c := List.inj_on_of_nodup_map keepsB.1.registry.compositesNodup present₀
      present (named₀.trans named')
    have sameParents : c'.parents = c₀.parents := by simp only [Composite.parents, kind₀]
    rw [← completes.1]
    exact closedT c' present' p (sameParents ▸ parent)
  obtain ⟨T', finalized', entries, enums, names, finished⟩ := finalizeAll_finishes keepsB.1 closedB
  rw [finalized] at finalized'
  simp only [Except.ok.injEq, Prod.mk.injEq, true_and] at finalized'
  subst finalized'
  simp only [updateRegistry, Compiling.run_modify, Except.ok.injEq, Prod.mk.injEq,
    true_and] at rooting
  subst rooting
  have enumsH : H.registry.enumNames.Nodup :=
    records.enumsNodup (by simp [registry₀, Registry.enumNames])
  refine ⟨H, B, ⟨shaped, ⟨keepsH.1, idleH, recordedH⟩, fun p member => ?_,
    records.patterns.trans patterns₀, registeredH, discoveredH,
    fun c member => stubsH c member List.not_mem_nil, laterB,
    ⟨keepsB.1, keepsB.2.2.trans idleH, recordedB⟩, handledB, boundB, stubsB, closedB, entries,
    enums, names, fun c member => finished c.name c (keepsT.1.registry.composite_eq member),
    compiledR.root, compiledR.sound, ?_⟩⟩
  · exact (keeps₁.trans keepsH).2.1.definitions.subset (definitions₀ ▸ member)
  · have nodupB := bindFrom_enumsNodup _ _ _ _ binds keepsH.1 enumsH
    simpa only [Registry.enumNames, enums] using nodupB

end Compiler

end SchemaTypes
