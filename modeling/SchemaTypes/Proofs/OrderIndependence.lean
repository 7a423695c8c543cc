import SchemaTypes.Proofs.Reordering

/-! # Compiling does not depend on the order of the definitions

A document lists its definitions in some order, and the compiler registers them in that order,
following references to names it has not met yet on demand. The registry it compiles does not
depend on that order (`compile_reorder`): a reordering compiles exactly when the document does,
to a registry with the same entries, composite types and enumerations, in another order, and
the same root.

Two things can make the order matter, and the theorem excludes both. Two inline schemas can be
given the same made-up name (an inline object `B_c` under `A` and an inline object `C` under
`A_B` are both named `A_B_c`); the first owner to be walked registers its own, so the orders
disagree (`clashing_orders_differ`). And a reference can name a type that exists only once the
compiler has made it up for an inline schema; whether it is there when the reference is
followed depends on the order (`made_up_reference_orders_differ`). A document whose made-up names are unclashed and whose
references name its own definitions compiles the same in every order.

The proof follows a compilation in the new order against the states of one in the old order
at the ends of its passes (`Compiler.FirstRun`): each pass of the second compilation succeeds
from some bound on its depth, staying within the first one's states, and binding gives every
custom type the first one's composite type. Finalization then makes the same finished type of
each name (`Registry.Finished.unique`), so the second registry is part of the first; the
argument is symmetric, and registries without repeated names that hold each other are
permutations of each other.
-/

namespace SchemaTypes

namespace Compiler

variable {D D' : Document} {H B s t : Compiler} {R : Registry}

/-! ## States of a second compilation -/

/-- A name is in the group of one category only: its definition has one shape. -/
theorem Sound.group_unique {name : String} {c₁ c₂ : Category} (sound : Sound D s)
    (first : name ∈ s.group c₁) (second : name ∈ s.group c₂) : c₁ = c₂ := by
  obtain ⟨d₁, found₁, fits₁⟩ := sound.categorized name c₁ ((sound.grouped name c₁).mp first)
  obtain ⟨d₂, found₂, fits₂⟩ := sound.categorized name c₂ ((sound.grouped name c₂).mp second)
  rw [found₁] at found₂
  cases found₂
  exact Except.ok.inj (fits₁.symm.trans fits₂)

/-- A composite type whose name is a custom type is custom. -/
theorem Sound.custom_of_group {c : Composite} (sound : Sound D s)
    (present : c ∈ s.registry.composites) (grouped : c.name ∈ s.group .custom) :
    c.kind = .custom := by
  obtain ⟨-, passthrough, inheritance⟩ := sound.kinds c present
  cases kind : c.kind with
  | custom => rfl
  | passthrough p => cases sound.group_unique (passthrough p kind) grouped
  | multiInheritance ps => cases sound.group_unique (inheritance ps kind) grouped

/-- A state within `H` is within every later state `B` when `H`'s composite types are stubs:
`B` has a composite type with each one's stub. -/
theorem Within.of_stubs (within : Within s H) (stubs : ∀ c ∈ H.registry.composites, c.stub = c)
    (later : Later H B) : Within s B := by
  refine ⟨fun p member => later.grows.definitions.subset (within.definitions p member),
    fun e member => later.grows.entries.subset (within.entries e member), fun c member => ?_,
    fun et member => later.enums.subset (within.enums et member),
    within.patterns.trans later.patterns.symm⟩
  obtain ⟨c', present, same⟩ := within.composites c member
  have stub : c = c'.stub := by
    rcases same with rfl | rfl
    · exact (stubs c present).symm
    · rfl
  obtain ⟨c'', present'', sameStub⟩ := later.composites c' present
  exact ⟨c'', present'', .inr (stub.trans sameStub.symm)⟩

/-- Within a state whose composite types are stubs, every composite type is a stub. -/
theorem Within.stubs (within : Within s H) (stubs : ∀ c ∈ H.registry.composites, c.stub = c) :
    StubsBesides s [] := by
  intro c member _
  obtain ⟨c', present, same⟩ := within.composites c member
  rcases same with rfl | rfl
  · exact stubs c present
  · rfl

theorem Within.compositeNames (within : Within s B) :
    s.registry.compositeNames ⊆ B.registry.compositeNames := by
  intro name member
  obtain ⟨c, present, rfl⟩ := List.mem_map.mp member
  obtain ⟨c', present', same⟩ := within.composites c present
  have named : c.name = c'.name := by rcases same with rfl | rfl <;> rfl
  exact named ▸ List.mem_map_of_mem present'

/-- After binding in the second compilation, its composite types are the first one's: the custom
types are bound into `B`'s, and each other one is `B`'s or its stub, and `B`'s is a stub. -/
theorem bound_lookups (oracle : Sound D B) (stubsB : StubsBesides B (B.group .custom))
    (follows : Follows D B t)
    (custom : ∀ name ∈ t.group .custom,
      ∃ c, t.registry.composite name = .ok c ∧ B.registry.composite name = .ok c)
    {name : String} {c : Composite} (found : t.registry.composite name = .ok c) :
    B.registry.composite name = .ok c := by
  obtain ⟨present, named⟩ := Registry.composite_ok found
  by_cases bound : name ∈ t.group .custom
  · obtain ⟨c', found', kept⟩ := custom name bound
    rw [found] at found'
    cases found'
    exact kept
  obtain ⟨c', present', same⟩ := follows.within.composites c present
  -- a stub here is `B`'s type of the name, which is a stub too
  have stub : c'.stub = c' := by
    refine stubsB c' present' fun boundB => ?_
    have kind : c'.kind = .custom := oracle.custom_of_group present' boundB
    have sameKind : c.kind = c'.kind := by rcases same with rfl | rfl <;> rfl
    exact bound (named ▸ follows.sound.kinds c present |>.1 (sameKind.trans kind))
  have same : c = c' := by rcases same with rfl | rfl <;> [rfl; exact stub]
  subst same
  rw [← named]
  exact oracle.registry.composite_eq present'

/-- After binding in the second compilation, the parents of its composite types are composite
types: they are the parents of the first one's composite types, and registered. -/
theorem bound_closed (oracle : Sound D B) (handled : B.registry.Handled)
    (closed : ∀ c ∈ B.registry.composites, ∀ p ∈ c.parents, p ∈ B.registry.compositeNames)
    (follows : Follows D B t) :
    ∀ c ∈ t.registry.composites, ∀ p ∈ c.parents, p ∈ t.registry.compositeNames := by
  intro c present p parent
  obtain ⟨c', present', same⟩ := follows.within.composites c present
  have sameParents : c.parents = c'.parents := by rcases same with rfl | rfl <;> rfl
  exact follows.composite_present oracle handled
    (follows.sound.registry.parentsRegistered c present p parent)
    (closed c' present' p (sameParents ▸ parent))

/-! ## The second compilation -/

/-- A compilation of the definitions of `D` in another order succeeds when one of `D` does, and
its registry holds only entries, composite types and enumerations of the first one's. The
passes are followed from some bound on their depth on, and the compiler's own bound is one of
them. -/
theorem reordered_compile (nodup : (D.definitions.map (·.1)).Nodup)
    (perm : D'.definitions.Perm D.definitions) (unclashed : D.Unclashed)
    (references : D.ReferencesDefined) (first : FirstRun D H B R) :
    ∃ R', D'.compile = .ok R' ∧ R'.entries ⊆ R.entries ∧ R'.composites ⊆ R.composites ∧
      R'.enums ⊆ R.enums := by
  have nodup' : (D'.definitions.map (·.1)).Nodup := (perm.map _).nodup_iff.mpr nodup
  have long : D.size < 0 + (D.size + 1) := by omega
  -- categorizing, in the new order
  obtain ⟨s₀, categorizing, patterns₀⟩ :=
    categorize_ok fun p member => first.shaped p (perm.subset member)
  obtain ⟨sound₀, definitions₀, registry₀, idle₀⟩ := categorize_sound nodup' categorizing
  have follows₀ : Follows D H s₀ := by
    refine ⟨sound₀.of_perm perm, fun p member => definitions₀ ▸ perm.symm.subset member,
      ⟨fun p member => first.covers p (perm.subset (definitions₀ ▸ member)), ?_, ?_, ?_, ?_⟩⟩
    · simp [registry₀]
    · simp [registry₀]
    · simp [registry₀]
    · rw [patterns₀, Document.patterns_perm perm nodup, first.patterns]
  -- registering and walking for inline objects, against `H`
  obtain ⟨s₁, registering, follows₁, idle₁⟩ := registerCategories_replays first.oracleH
    references unclashed first.registered follows₀ idle₀
  obtain ⟨H₂, walking, followsH, idleH⟩ := discoverNested_replays first.oracleH references
    unclashed first.discovered (D.size + 1) 0 s₁ follows₁ idle₁
  have registeredH : AllRegistered H₂ := by
    obtain ⟨N, registered⟩ := registering.run_at
    obtain ⟨M, walked⟩ := walking.run_at
    exact (discoverNested_discovers _ _ _ _ walked follows₁.sound
      (registerCategories_allRegistered registered follows₀.sound) long
      fun j below => absurd below (Nat.not_lt_zero j)).2.1
  -- binding, against `B`
  have withinB := followsH.within.of_stubs first.stubs first.later
  obtain ⟨B₂, binding, followsB, -, -, custom⟩ := bindFrom_replays first.oracleB references
    unclashed first.handled first.bound (D.size + 1) 0 H₂ ⟨followsH.sound, followsH.covers, withinB⟩
    idleH registeredH long (by simpa using followsH.within.stubs first.stubs)
    fun j below => absurd below (Nat.not_lt_zero j)
  have lookups : ∀ name c, B₂.registry.composite name = .ok c → B.registry.composite name = .ok c :=
    fun _ _ found => bound_lookups first.oracleB.sound
      first.boundStubs followsB custom found
  -- finalizing
  obtain ⟨T₂, finalizing, entries, enums, names, finished⟩ := finalizeAll_finishes followsB.sound
    (bound_closed first.oracleB.sound first.handled first.closed followsB)
  have soundT := (finalizeAll_keeps finalizing followsB.sound).1.1
  -- the whole compilation, from some bound on
  have eventually : Compiling.Eventually (fun N => runWith N (D.size + 1) D'.root) (start D') ()
      { T₂ with registry := { T₂.registry with root := D'.root } } := by
    unfold runWith
    exact (Compiling.Eventually.of_run categorizing).bind (registering.bind (walking.bind
      (binding.bind ((Compiling.Eventually.of_run finalizing).bind
        (Compiling.Eventually.of_run rfl)))))
  obtain ⟨T, runs⟩ := eventually
  have ran := runs (max T (start D').depthBound) (Nat.le_max_left _ _)
  rw [compile_bounds_suffice nodup' (Nat.le_max_right _ _)
    (by rw [Document.size_perm perm]; omega)] at ran
  refine ⟨{ T₂.registry with root := D'.root }, ?_, fun e member => ?_, fun c member => ?_,
    fun et member => ?_⟩
  · unfold Document.compile
    dsimp only
    have started : (run D'.root).run
        { definitions := D'.definitions, patterns := D'.patterns } = _ := ran
    rw [started]
    rfl
  · rw [first.entries]
    exact followsB.within.entries e (entries ▸ member)
  · -- the finished type of the name, which the first registry holds as well
    have found := soundT.registry.composite_eq member
    have finishedB := (finished c.name c found).mono lookups
    have named : c.name ∈ R.compositeNames := by
      rw [first.names]
      exact followsB.within.compositeNames (names ▸ List.mem_map_of_mem member)
    obtain ⟨c₁, found₁⟩ := Registry.composite_of_mem named
    obtain ⟨present₁, named₁⟩ := Registry.composite_ok found₁
    have same := (first.finished c₁ present₁).unique (named₁ ▸ finishedB)
    exact same ▸ present₁
  · rw [first.enums]
    exact followsB.within.enums et (enums ▸ member)

end Compiler

open Compiler in
/-- Compiling does not depend on the order of the definitions of a document whose made-up
names are unclashed and whose references name its own definitions: a reordering compiles
exactly when the document does, to a registry with the same entries, composite types and
enumerations, in another order, and the same root. -/
theorem compile_reorder {D D' : Document} (nodup : (D.definitions.map (·.1)).Nodup)
    (perm : D'.definitions.Perm D.definitions) (root : D'.root = D.root)
    (unclashed : D.Unclashed) (references : D.ReferencesDefined) :
    ((∃ R, D.compile = .ok R) ↔ ∃ R', D'.compile = .ok R') ∧
      ∀ R R', D.compile = .ok R → D'.compile = .ok R' →
        R'.entries.Perm R.entries ∧ R'.composites.Perm R.composites ∧ R'.enums.Perm R.enums ∧
          R'.root = R.root := by
  have nodup' : (D'.definitions.map (·.1)).Nodup := (perm.map _).nodup_iff.mpr nodup
  -- each order compiles when the other does, into a part of the other's registry
  have forward : ∀ R, D.compile = .ok R → ∃ R', D'.compile = .ok R' ∧
      R'.entries ⊆ R.entries ∧ R'.composites ⊆ R.composites ∧ R'.enums ⊆ R.enums := by
    intro R compiled
    obtain ⟨H, B, first⟩ := firstRun nodup compiled
    exact reordered_compile nodup perm unclashed references first
  have backward : ∀ R', D'.compile = .ok R' → ∃ R, D.compile = .ok R ∧
      R.entries ⊆ R'.entries ∧ R.composites ⊆ R'.composites ∧ R.enums ⊆ R'.enums := by
    intro R' compiled
    obtain ⟨H, B, first⟩ := firstRun nodup' compiled
    exact reordered_compile nodup' perm.symm (unclashed.of_perm perm) (references.of_perm perm)
      first
  refine ⟨⟨fun found => found.elim fun R compiled => (forward R compiled).imp fun _ => And.left,
    fun found => found.elim fun R' compiled => (backward R' compiled).imp fun _ => And.left⟩,
    fun R R' compiled compiled' => ?_⟩
  obtain ⟨R₂, compiled₂, entries, composites, enums⟩ := forward R compiled
  rw [compiled'] at compiled₂
  cases compiled₂
  obtain ⟨R₁, compiled₁, entries', composites', enums'⟩ := backward R' compiled'
  rw [compiled] at compiled₁
  cases compiled₁
  -- registries without repeated names that hold each other are permutations of each other
  obtain ⟨H, B, first⟩ := firstRun nodup compiled
  obtain ⟨H', B', first'⟩ := firstRun nodup' compiled'
  refine ⟨(List.perm_ext_iff_of_nodup first'.sound.entriesNodup.of_map
      first.sound.entriesNodup.of_map).mpr fun e => ⟨(entries ·), (entries' ·)⟩,
    (List.perm_ext_iff_of_nodup first'.sound.compositesNodup.of_map
      first.sound.compositesNodup.of_map).mpr fun c => ⟨(composites ·), (composites' ·)⟩,
    (List.perm_ext_iff_of_nodup first'.enumsNodup.of_map first.enumsNodup.of_map).mpr
      fun et => ⟨(enums ·), (enums' ·)⟩, ?_⟩
  rw [first'.root, first.root, root]

/-- An object schema with one integer property `P`. -/
def pointObject : Definition :=
  ⟨[("type", .str "object"), ("properties", .obj [("P", .obj [("type", .str "integer")])])]⟩

/-- An integer schema. -/
def integerSchema : Definition := ⟨[("type", .str "integer")]⟩

/-- Three definitions: `L` lists objects of `pointObject`, `Q` refers to `L` and `R` to `L_Item`,
the name made up for the items of `L`. -/
def pointDefinitions : List (String × Definition) :=
  [("R", ⟨[("$ref", .str "#/$defs/L_Item")]⟩),
    ("Q", ⟨[("$ref", .str "#/$defs/L")]⟩),
    ("L", ⟨[("type", .str "array"), ("items", .obj pointObject.members)]⟩)]

/-- A schema whose category computes to another is not of category `c`. -/
theorem Definition.shapeCategory_ne {d : Definition} {c : Category}
    (other : d.shapeCategory.toOption ≠ some c) : d.shapeCategory ≠ .ok c :=
  fun same => other (by rw [same]; rfl)

/-- A document made of some of `pointDefinitions` places them, the items of `L` at `L_Item` and
their property at `L_Item_p`, and nothing else. -/
theorem placed_of_pointDefinitions {D : Document} (within : ∀ p ∈ D.definitions, p ∈ pointDefinitions)
    {name : String} {d : Definition} (placed : Placed D name d) :
    (name, d) ∈ D.definitions ∨ (name, d) = ("L_Item", pointObject) ∨
      (name, d) = ("L_Item_p", integerSchema) := by
  -- the schema a step starts from is one of the five; its category rules out all steps but two
  have parents : ∀ {n e}, ((n, e) ∈ D.definitions ∨ (n, e) = ("L_Item", pointObject) ∨
      (n, e) = ("L_Item_p", integerSchema)) → (n, e) ∈ pointDefinitions ++
        [("L_Item", pointObject), ("L_Item_p", integerSchema)] := by
    intro n e found
    rcases found with member | same | same
    · exact List.mem_append_left _ (within _ member)
    all_goals simp [same]
  induction placed with
  | document member => exact .inl member
  | item _ category found _ read ih =>
    have ih := parents ih
    simp only [pointDefinitions, List.cons_append, List.nil_append, List.mem_cons, Prod.mk.injEq,
      List.not_mem_nil, or_false] at ih
    -- only `L` is a list: its items are the object at `L_Item`
    rcases ih with ⟨rfl, rfl⟩ | ⟨rfl, rfl⟩ | ⟨rfl, rfl⟩ | ⟨rfl, rfl⟩ | ⟨rfl, rfl⟩
    all_goals first
      | exact absurd category (Definition.shapeCategory_ne (by decide +kernel))
      | skip
    have listed : (⟨[("type", .str "array"), ("items", .obj pointObject.members)]⟩ : Definition).items? =
        some (.obj pointObject.members) := rfl
    rw [listed] at found
    cases found
    cases read
    exact .inr (.inl rfl)
  | property _ category member read ih =>
    have ih := parents ih
    simp only [pointDefinitions, List.cons_append, List.nil_append, List.mem_cons, Prod.mk.injEq,
      List.not_mem_nil, or_false] at ih
    -- only `L_Item` is an object: its property `P` is the integer at `L_Item_p`
    rcases ih with ⟨rfl, rfl⟩ | ⟨rfl, rfl⟩ | ⟨rfl, rfl⟩ | ⟨rfl, rfl⟩ | ⟨rfl, rfl⟩
    all_goals first
      | exact absurd category (Definition.shapeCategory_ne (by decide +kernel))
      | skip
    have listed : pointObject.properties?.getD [] = [("P", .obj integerSchema.members)] := rfl
    rw [listed, List.mem_singleton, Prod.mk.injEq] at member
    obtain ⟨rfl, rfl⟩ := member
    cases read
    exact .inr (.inr (Prod.ext (by decide +kernel) rfl))
  | option _ category _ _ _ ih
  | branch _ category _ _ _ ih
  | parent _ category _ _ ih =>
    -- none of the five is a union, a polymorph or a multiple inheritance
    have ih := parents ih
    simp only [pointDefinitions, List.cons_append, List.nil_append, List.mem_cons, Prod.mk.injEq,
      List.not_mem_nil, or_false] at ih
    rcases ih with ⟨rfl, rfl⟩ | ⟨rfl, rfl⟩ | ⟨rfl, rfl⟩ | ⟨rfl, rfl⟩ | ⟨rfl, rfl⟩
    all_goals exact absurd category (Definition.shapeCategory_ne (by decide +kernel))
  | extra _ category extra _ _ _ ih =>
    -- the one object takes no other properties
    have ih := parents ih
    simp only [pointDefinitions, List.cons_append, List.nil_append, List.mem_cons, Prod.mk.injEq,
      List.not_mem_nil, or_false] at ih
    rcases ih with ⟨rfl, rfl⟩ | ⟨rfl, rfl⟩ | ⟨rfl, rfl⟩ | ⟨rfl, rfl⟩ | ⟨rfl, rfl⟩
    all_goals first
      | exact absurd category (Definition.shapeCategory_ne (by decide +kernel))
      | skip
    cases extra

/-- A document made of some of `pointDefinitions` gives each made-up name one schema. -/
theorem unclashed_of_pointDefinitions {D : Document}
    (within : ∀ p ∈ D.definitions, p ∈ pointDefinitions) : D.Unclashed := by
  intro name d e placed placed' undefined
  rcases placed_of_pointDefinitions within placed with member | same | same
  · exact absurd (List.mem_map_of_mem member) undefined
  all_goals
    rcases placed_of_pointDefinitions within placed' with member' | same' | same'
    · exact absurd (List.mem_map_of_mem member') undefined
    all_goals
      obtain ⟨named, rfl⟩ := Prod.mk.inj same
      obtain ⟨named', rfl⟩ := Prod.mk.inj same'
      first | rfl | exact absurd (named.symm.trans named') (by decide)

/-- A document in which a reference names a definition that comes after it: `Q` refers to the
list `L` of objects, whose items and their property get made-up names. -/
def aliases : Document :=
  { title := none, root := none, definitions := pointDefinitions.tail }

/-- `aliases` with the list first, so that the reference names a type registered already. -/
def namesFirst : Document := { aliases with definitions := aliases.definitions.reverse }

/-- The one reference of `aliases` names its list `L`. -/
theorem aliases_references : aliases.ReferencesDefined := by
  intro name d target e placed refers _
  have within : ∀ p ∈ aliases.definitions, p ∈ pointDefinitions := fun p member =>
    List.mem_of_mem_tail member
  -- of the schemas placed, only `Q` refers to anything, and it refers to `L`
  have references : ∀ p ∈ aliases.definitions ++ [("L_Item", pointObject), ("L_Item_p", integerSchema)],
      (p.2.discriminator.toOption.bind id).isNone ∧ p.2.referenceName?.all (· = "L") := by
    decide +kernel
  have found : (name, d) ∈ aliases.definitions ++
      [("L_Item", pointObject), ("L_Item_p", integerSchema)] := by
    rcases placed_of_pointDefinitions within placed with member | same | same
    · exact List.mem_append_left _ member
    all_goals simp [same]
  obtain ⟨plain, toL⟩ := references _ found
  rcases refers with referenced | ⟨disc, keyed, -⟩
  · have same : target = "L" := by simpa [referenced] using toL
    rw [same]
    decide
  · simp only [keyed, Option.isNone_iff_eq_none, Option.bind_eq_none_iff] at plain
    exact absurd (plain _ rfl) (Option.some_ne_none disc)

/-- Both orders of `aliases` compile, to the same registry up to order: its made-up names
`L_Item` and `L_Item_p` are unclashed, and its reference names a definition. -/
theorem aliases_reordered :
    (aliases.definitions.map (·.1)).Nodup ∧ aliases.Unclashed ∧ aliases.ReferencesDefined ∧
      ∃ R R', aliases.compile = .ok R ∧ namesFirst.compile = .ok R' ∧
        R'.entries.Perm R.entries ∧ R'.composites.Perm R.composites ∧ R'.enums.Perm R.enums := by
  have nodup : (aliases.definitions.map (·.1)).Nodup := by decide
  have unclashed : aliases.Unclashed :=
    unclashed_of_pointDefinitions fun p member => List.mem_of_mem_tail member
  have references := aliases_references
  have perm : namesFirst.definitions.Perm aliases.definitions := List.reverse_perm _
  have reorder := compile_reorder nodup perm rfl unclashed references
  have compiled := Document.compile_of_toBool (D := aliases) (by decide +kernel)
  obtain ⟨R', compiled'⟩ := reorder.1.mp ⟨_, compiled⟩
  obtain ⟨entries, composites, enums, -⟩ := reorder.2 _ R' compiled compiled'
  exact ⟨nodup, unclashed, references, _, R', compiled, compiled', entries, composites, enums⟩

/-- A document in which an inline object `B_c` under `A` and an inline object `C` under `A_B` are
both given the name `A_B_c`. -/
def clashing : Document :=
  { title := none, root := none,
    definitions := [
      ("A_B", ⟨[("type", .str "object"),
        ("properties", .obj [("C", .obj [("type", .str "object"),
          ("properties", .obj [("Q", .obj [("type", .str "string")])])])])]⟩),
      ("A", ⟨[("type", .str "object"),
        ("properties", .obj [("B_c", .obj [("type", .str "object"),
          ("properties", .obj [("P", .obj [("type", .str "integer")])])])])]⟩)] }

/-- `clashing` with `A` first. -/
def clashingReversed : Document := { clashing with definitions := clashing.definitions.reverse }

/-- Both orders of `clashing` compile, but `A_B_c` has the properties of the inline object under
the owner walked first: `q` when `A_B` comes first, `p` when `A` does. -/
theorem clashing_orders_differ :
    clashingReversed.definitions.Perm clashing.definitions ∧
      clashingReversed.root = clashing.root ∧
      ∃ R R', clashing.compile = .ok R ∧ clashingReversed.compile = .ok R' ∧
        (R.composite "A_B_c").toOption.map (·.properties.map (·.name)) = some ["q"] ∧
        (R'.composite "A_B_c").toOption.map (·.properties.map (·.name)) = some ["p"] :=
  ⟨List.reverse_perm _, rfl, _, _, Document.compile_of_toBool (by decide +kernel),
    Document.compile_of_toBool (by decide +kernel), by decide +kernel, by decide +kernel⟩

/-- `pointDefinitions` as a document: `R` refers to a made-up name. -/
def itemReference : Document := { title := none, root := none, definitions := pointDefinitions }

/-- `itemReference` with `Q` first. -/
def itemReferenceSwapped : Document :=
  { itemReference with
    definitions := [("Q", ⟨[("$ref", .str "#/$defs/L")]⟩),
      ("R", ⟨[("$ref", .str "#/$defs/L_Item")]⟩),
      ("L", ⟨[("type", .str "array"), ("items", .obj pointObject.members)]⟩)] }

/-- The order can matter when a reference names a made-up type. In `itemReference`, `R` refers
to `L_Item`, the name made up for the items of `L`. Its names are distinct and unclashed, yet it
fails to compile, while the order with `Q` first compiles: registering `Q` registers `L`, and
with it `L_Item`, before `R` looks that name up. -/
theorem made_up_reference_orders_differ :
    itemReferenceSwapped.definitions.Perm itemReference.definitions ∧
      itemReferenceSwapped.root = itemReference.root ∧
      (itemReference.definitions.map (·.1)).Nodup ∧ itemReference.Unclashed ∧
      ¬ itemReference.ReferencesDefined ∧
      (∃ e, itemReference.compile = .error e) ∧ ∃ R, itemReferenceSwapped.compile = .ok R := by
  have items : Placed itemReference ("L" ++ "_Item") pointObject :=
    .item (.document (List.mem_cons_of_mem _ (List.mem_cons_of_mem _ List.mem_cons_self))) rfl rfl
      Json.noConfusion rfl
  have unreferenced : ¬ itemReference.ReferencesDefined := fun references => by
    have defined := references "R" _ "L_Item" _ (.document List.mem_cons_self)
      (.inl (by decide +kernel)) items
    revert defined
    decide
  have failed : itemReference.compile.toBool = false := by decide +kernel
  refine ⟨List.Perm.swap _ _ _, rfl, by decide, unclashed_of_pointDefinitions fun _ => id,
    unreferenced, ?_, _, Document.compile_of_toBool (by decide +kernel)⟩
  cases compiled : itemReference.compile with
  | ok R => rw [compiled] at failed; cases failed
  | error e => exact ⟨e, rfl⟩

end SchemaTypes
