import SchemaTypes.Proofs.Records
import SchemaTypes.Proofs.Eventually

/-! # A compilation in another order follows the first one

Take a compilation of a document that succeeded and ended in the state `F`, and a second
compilation of the same definitions that registers the names in another order. Whenever the
second one has to register a name itself, the first one registered it too, and the record of
that registration (`Compiler.Recorded`) says how: the second compilation runs the same
registration over the same definition and gets the same entry. Its states stay within `F`
(`Compiler.Within`): every definition, entry and enumeration it holds is one of `F`'s, and
every composite type is one of `F`'s or a stub of one.

Two things about the document make the registrations the same. A name made up for an inline
schema is given to one schema only (`Document.Unclashed`), so whichever compilation adopts a
name adopts the same definition. And no reference names a type made up for an inline schema
(`Document.ReferencesDefined`): a reference that the first compilation followed to a name it
had adopted would find nothing in a compilation that has not adopted that name yet.

The replay is an induction on the position of a name among `F`'s entries: a registration
only registers names that come before its own, so the names the second compilation meets while
it replays a registration sit below it, and none of them is being registered already.
-/

namespace SchemaTypes

/-- A name made up for an inline schema is given to one schema only: two schemas placed at a
name that the document does not define are the same. -/
def Document.Unclashed (D : Document) : Prop :=
  ∀ name d e, Placed D name d → Placed D name e → name ∉ D.definitions.map (·.1) → d = e

/-- A definition refers to a name by its reference or as a target of its discriminator. -/
def Definition.Refers (d : Definition) (target : String) : Prop :=
  d.referenceName? = some target ∨
    ∃ disc, d.discriminator = .ok (some disc) ∧ target ∈ (d.keyedTargets disc).map (·.2)

/-- A name that a schema of the document refers to and that names a schema at all names a
definition of the document. -/
def Document.ReferencesDefined (D : Document) : Prop :=
  ∀ name d target e, Placed D name d → d.Refers target → Placed D target e →
    target ∈ D.definitions.map (·.1)

namespace Registry

variable {r : Registry}

theorem mem_register (e : Entry) : e ∈ (r.register e).entries := by
  unfold register
  split
  · next present =>
    obtain ⟨x, member, named⟩ := List.any_eq_true.mp present
    exact List.mem_map.mpr ⟨x, member, by simp [named]⟩
  · exact List.mem_append_right _ List.mem_cons_self

theorem mem_of_mem_register {e y : Entry} (member : y ∈ (r.register e).entries) :
    y ∈ r.entries ∨ y = e := by
  unfold register at member
  split at member
  · obtain ⟨x, old, rfl⟩ := List.mem_map.mp member
    split
    · exact .inr rfl
    · exact .inl old
  · rcases List.mem_append.mp member with old | new
    · exact .inl old
    · exact .inr (List.mem_singleton.mp new)

@[simp] theorem register_composites (e : Entry) : (r.register e).composites = r.composites := by
  unfold register
  split <;> rfl

@[simp] theorem register_enums (e : Entry) : (r.register e).enums = r.enums := by
  unfold register
  split <;> rfl

theorem mem_insertComposite (c : Composite) : c ∈ (r.insertComposite c).composites := by
  unfold insertComposite
  split
  · next present =>
    obtain ⟨x, member, named⟩ := List.any_eq_true.mp present
    exact List.mem_map.mpr ⟨x, member, by simp [named]⟩
  · exact List.mem_append_right _ List.mem_cons_self

theorem mem_of_mem_insertComposite {c y : Composite}
    (member : y ∈ (r.insertComposite c).composites) : y ∈ r.composites ∨ y = c := by
  unfold insertComposite at member
  split at member
  · exact (mem_replaced member).symm
  · rcases List.mem_append.mp member with old | new
    · exact .inl old
    · exact .inr (List.mem_singleton.mp new)

@[simp] theorem insertComposite_enums (c : Composite) : (r.insertComposite c).enums = r.enums := by
  unfold insertComposite
  split <;> rfl

theorem mem_insertEnum (et : EnumType) : et ∈ (r.insertEnum et).enums := by
  unfold insertEnum
  split
  · next present =>
    obtain ⟨x, member, named⟩ := List.any_eq_true.mp present
    exact List.mem_map.mpr ⟨x, member, by simp [named]⟩
  · exact List.mem_append_right _ List.mem_cons_self

theorem mem_of_mem_insertEnum {et y : EnumType} (member : y ∈ (r.insertEnum et).enums) :
    y ∈ r.enums ∨ y = et := by
  unfold insertEnum at member
  split at member
  · obtain ⟨x, old, rfl⟩ := List.mem_map.mp member
    split
    · exact .inr rfl
    · exact .inl old
  · rcases List.mem_append.mp member with old | new
    · exact .inl old
    · exact .inr (List.mem_singleton.mp new)

@[simp] theorem insertEnum_entries (et : EnumType) : (r.insertEnum et).entries = r.entries := by
  unfold insertEnum
  split <;> rfl

@[simp] theorem insertEnum_composites (et : EnumType) :
    (r.insertEnum et).composites = r.composites := by
  unfold insertEnum
  split <;> rfl

/-- A registry change that adds, to any registry, only entries, stub composite types and
enumerations that it adds to every registry. -/
def AddsSame (g : Registry → Registry) : Prop :=
  (∀ r r' : Registry, ∀ y ∈ (g r).entries, y ∈ r.entries ∨ y ∈ (g r').entries) ∧
  (∀ r r' : Registry, ∀ c ∈ (g r).composites,
    c ∈ r.composites ∨ (c ∈ (g r').composites ∧ c.stub = c)) ∧
  (∀ r r' : Registry, ∀ et ∈ (g r).enums, et ∈ r.enums ∨ et ∈ (g r').enums)

theorem addsSame_register (e : Entry) : AddsSame (·.register e) :=
  ⟨fun _ _ y member => (mem_of_mem_register member).imp_right fun same => by
      subst same
      exact mem_register _,
    fun _ _ c member => .inl (by simpa using member),
    fun _ _ et member => .inl (by simpa using member)⟩

theorem addsSame_registerComposite (c : Composite) (e : Entry) (stub : c.stub = c) :
    AddsSame fun r => (r.insertComposite c).register e := by
  refine ⟨fun r _ y member => ?_, fun r _ y member => ?_, fun _ _ et member => .inl ?_⟩
  · rcases mem_of_mem_register member with old | new
    · exact .inl (by simpa [insertComposite_entries] using old)
    · subst new
      exact .inr (mem_register _)
  · rw [register_composites] at member
    rcases mem_of_mem_insertComposite member with old | new
    · exact .inl old
    · subst new
      exact .inr ⟨by rw [register_composites]; exact mem_insertComposite _, stub⟩
  · simpa using member

theorem addsSame_registerEnum (et : EnumType) (e : Entry) :
    AddsSame fun r => (r.insertEnum et).register e := by
  refine ⟨fun r _ y member => ?_, fun r _ c member => .inl (by simpa using member),
    fun r _ y member => ?_⟩
  · rcases mem_of_mem_register member with old | new
    · exact .inl (by simpa using old)
    · subst new
      exact .inr (mem_register _)
  · rw [register_enums] at member
    rcases mem_of_mem_insertEnum member with old | new
    · exact .inl old
    · exact .inr (by rw [register_enums, new]; exact mem_insertEnum _)

end Registry

namespace Compiler

variable {D : Document}

/-! ## States within a compilation's end -/

/-- The position of a name among the entries of `F`. -/
def position (F : Compiler) (name : String) : Nat := (F.registry.entries.map (·.name)).idxOf name

/-- A name registered in a state of the compilation that ends in `F` sits among the entries
that state has. -/
theorem position_lt {F u : Compiler} {name : String}
    (prefixed : u.registry.entries <+: F.registry.entries)
    (registered : u.registry.contains name = true) :
    position F name < u.registry.entries.length := by
  have member : name ∈ u.registry.entries.map (·.name) := by
    simpa [Registry.contains] using registered
  obtain ⟨rest, whole⟩ := prefixed.map (·.name)
  unfold position
  rw [← whole, List.idxOf_append_of_mem member]
  simpa using List.idxOf_lt_length_iff.mpr member

/-- A state of the compilation that ends in `F` in which a name is not registered yet has no
more entries than the name's position. -/
theorem length_le_position {F m : Compiler} {name : String}
    (prefixed : m.registry.entries <+: F.registry.entries)
    (fresh : m.registry.contains name = false) :
    m.registry.entries.length ≤ position F name := by
  by_contra short
  replace short : position F name < (m.registry.entries.map (·.name)).length := by
    simp only [List.length_map]
    omega
  have names := prefixed.map (·.name)
  -- the name would sit at its position in the shorter list too
  have inside : position F name < (F.registry.entries.map (·.name)).length :=
    short.trans_le names.length_le
  have found : (F.registry.entries.map (·.name))[position F name] = name :=
    List.getElem_idxOf inside
  have early : (m.registry.entries.map (·.name))[position F name] = name := by
    rw [names.getElem short]
    exact found
  have member : name ∈ m.registry.entries.map (·.name) := early ▸ List.getElem_mem short
  simp only [Registry.contains] at fresh
  rw [List.any_eq_false] at fresh
  obtain ⟨e, present, named⟩ := List.mem_map.mp member
  exact fresh e present (by simp [named])

/-- A state of a second compilation within the end `F` of a first one: it holds only `F`'s
definitions, entries and enumerations, only `F`'s composite types or their stubs, and `F`'s
patterns. -/
structure Within (s F : Compiler) : Prop where
  definitions : ∀ p ∈ s.definitions, p ∈ F.definitions
  entries : ∀ e ∈ s.registry.entries, e ∈ F.registry.entries
  composites : ∀ c ∈ s.registry.composites, ∃ c' ∈ F.registry.composites, c = c' ∨ c = c'.stub
  enums : ∀ et ∈ s.registry.enums, et ∈ F.registry.enums
  patterns : s.patterns = F.patterns

/-- The invariant of the second compilation: it is sound, holds the document's definitions and
stays within `F`. -/
structure Follows (D : Document) (F s : Compiler) : Prop where
  sound : Sound D s
  covers : ∀ p ∈ D.definitions, p ∈ s.definitions
  within : Within s F

theorem Follows.of_keeps {F s t : Compiler} (follows : Follows D F s) (keeps : Keeps D s t)
    (within : Within t F) : Follows D F t ∧ t.resolving = s.resolving :=
  ⟨⟨keeps.1, fun p member => keeps.2.1.definitions.subset (follows.covers p member), within⟩,
    keeps.2.2⟩

theorem Within.resolving {F s : Compiler} (within : Within s F) (names : List String) :
    Within { s with resolving := names } F :=
  ⟨within.definitions, within.entries, within.composites, within.enums, within.patterns⟩

/-- Marking a name as being registered keeps a state that follows `F` following it. -/
theorem Follows.push {F s : Compiler} {name : String} (follows : Follows D F s)
    (fresh : s.registry.contains name = false) (outside : name ∉ s.resolving) :
    Follows D F { s with resolving := name :: s.resolving } :=
  ⟨follows.sound.push fresh outside, follows.covers, follows.within.resolving _⟩

/-- Changing the registry by a change that adds the same everywhere keeps a state within `F`
when the first compilation made the same change on its way to `F`. -/
theorem Within.update {F m₁ m₂ : Compiler} {g : Registry → Registry} (adds : Registry.AddsSame g)
    (within : Within m₂ F) (later : Later { m₁ with registry := g m₁.registry } F) :
    Within { m₂ with registry := g m₂.registry } F := by
  obtain ⟨entries, composites, enums⟩ := adds
  refine ⟨within.definitions, fun e member => ?_, fun c member => ?_, fun et member => ?_,
    within.patterns⟩
  · rcases entries m₂.registry m₁.registry e member with old | new
    · exact within.entries e old
    · exact later.grows.entries.subset new
  · rcases composites m₂.registry m₁.registry c member with old | ⟨new, stub⟩
    · exact within.composites c old
    · obtain ⟨c', present, same⟩ := later.composites c new
      exact ⟨c', present, .inr (stub.symm.trans same.symm)⟩
  · rcases enums m₂.registry m₁.registry et member with old | new
    · exact within.enums et old
    · exact later.enums.subset new

section Oracle

variable {F : Compiler} (oracle : Sound D F)
include oracle

/-- A definition the second compilation holds is `F`'s definition of its name. -/
theorem Follows.definition_eq {s : Compiler} {name : String} {d : Definition}
    (follows : Follows D F s) (found : s.definition? name = some d) :
    F.definition? name = some d :=
  oracle.definition?_eq (follows.within.definitions _ (mem_of_definition? found))

/-- Both compilations hold the same definition under a name. -/
theorem definition_agrees {s u : Compiler} {name : String} {d₁ d₂ : Definition}
    (follows : Follows D F s) (found₂ : s.definition? name = some d₂) (later : Later u F)
    (found₁ : u.definition? name = some d₁) : d₂ = d₁ := by
  have first := later.grows.found found₁
  rw [follows.definition_eq oracle found₂] at first
  exact Option.some.inj first

/-- Both compilations find the same entry under a name. -/
theorem entry_agrees {s u : Compiler} {name : String} {e₁ e₂ : Entry} (within : Within s F)
    (found₂ : s.registry.entry name = .ok e₂)
    (prefixed : u.registry.entries <+: F.registry.entries)
    (found₁ : u.registry.entry name = .ok e₁) : e₂ = e₁ := by
  obtain ⟨present₂, named₂⟩ := Registry.entry_ok found₂
  obtain ⟨present₁, named₁⟩ := Registry.entry_ok found₁
  exact List.inj_on_of_nodup_map oracle.registry.entriesNodup (within.entries e₂ present₂)
    (prefixed.subset present₁) (named₂.trans named₁.symm)

end Oracle

/-- A definition of the document is a definition of every state of the second compilation. -/
theorem Follows.defined {F s : Compiler} {name : String} (follows : Follows D F s)
    (named : name ∈ D.definitions.map (·.1)) : (s.definition? name).isSome = true := by
  obtain ⟨⟨x, d⟩, member, rfl⟩ := List.mem_map.mp named
  rw [follows.sound.definition?_eq (follows.covers _ member)]
  rfl

/-- A name that a placed schema refers to and that a compilation registered is a definition of
the document. -/
theorem refers_defined (references : D.ReferencesDefined) {owner target : String} {d : Definition}
    {u : Compiler} (placed : Placed D owner d) (refers : d.Refers target) (sound : Sound D u)
    (registered : u.registry.contains target = true) : target ∈ D.definitions.map (·.1) := by
  obtain ⟨e, found⟩ := Registry.entry_of_contains registered
  obtain ⟨present, named⟩ := Registry.entry_ok found
  have defined := (sound.entriesDefined e present).1
  rw [named] at defined
  exact references owner d target _ placed refers (sound.placed_of_definition? defined)

/-! ## Steps that read no state, or only the patterns -/

theorem definitionOf_stateless (j : Json) (name : String) :
    Compiling.Stateless (definitionOf j name) := by
  unfold definitionOf
  split
  · exact .pure _
  · exact .throw _

theorem categoryOf_stateless (d : Definition) (name : String) :
    Compiling.Stateless (categoryOf d name) := by
  unfold categoryOf
  split
  · exact .pure _
  · exact .throw _

/-- A native type is read from the definition and the patterns alone. -/
theorem native_patterns {d : Definition} {context : String} {hk : TypeHandle × Caster}
    {s t s' : Compiler} (run : (native d context).run s = .ok (hk, t))
    (patterns : s'.patterns = s.patterns) : (native d context).run s' = .ok (hk, s') := by
  unfold native at run ⊢
  rw [Compiling.run_get_bind] at run ⊢
  dsimp only at run ⊢
  rw [patterns]
  refine Compiling.Stateless.run_eq ?_ run s'
  split
  · exact .throw _
  · exact .pure _

/-- Looking up a registered name in a state leaves the state as it is. -/
theorem registered_run {s : Compiler} {name : String} {e : Entry}
    (found : s.registry.entry name = .ok e) :
    (registered name).run s = .ok ((e.handle, e.caster), s) := by
  unfold registered
  rw [Compiling.run_get_bind]
  rw [Compiling.run_bind_of (show (liftExcept (s.registry.entry name) : Compiling Entry).run s =
    .ok (e, s) by rw [found]; rfl)]
  rfl

/-! ## Registry changes that register a name -/

/-- A registry change that registers `name`: it adds the same to every registry, and to a sound
state without `name` it adds `name`'s entry at the end, perhaps with a stub or an enumeration. -/
structure Appends (D : Document) (name : String) (g : Registry → Registry) : Prop where
  adds : Registry.AddsSame g
  later : ∀ s : Compiler, Sound D s → s.registry.contains name = false →
    Later s { s with registry := g s.registry }

theorem later_of_appended {s : Compiler} {r : Registry} {added : List Composite}
    (entries : s.registry.entries <+: r.entries)
    (composites : r.composites = s.registry.composites ++ added)
    (enums : s.registry.enums <+: r.enums) : Later s { s with registry := r } :=
  ⟨⟨List.prefix_refl _, fun _ => List.prefix_refl _, entries,
    by simp [Registry.compositeNames, composites], enums.map _⟩, enums,
    fun c member => ⟨c, by rw [composites]; exact List.mem_append_left _ member, rfl⟩, rfl⟩

theorem appends_register (e : Entry) : Appends D e.name (·.register e) :=
  ⟨Registry.addsSame_register e, fun s _ fresh => by
    rw [Registry.register_of_fresh e fresh]
    exact later_of_appended (List.prefix_append _ _) (List.append_nil _).symm (List.prefix_refl _)⟩

theorem appends_registerComposite (c : Composite) (e : Entry) (stub : c.stub = c)
    (named : c.name = e.name) : Appends D e.name fun r => (r.insertComposite c).register e :=
  ⟨Registry.addsSame_registerComposite c e stub, fun s sound fresh => by
    rw [Registry.insertComposite_register_of_fresh c e
      (named ▸ sound.registry.not_composite fresh) fresh]
    exact later_of_appended (List.prefix_append _ _) rfl (List.prefix_refl _)⟩

theorem appends_registerEnum (et : EnumType) (e : Entry) (named : et.name = e.name) :
    Appends D e.name fun r => (r.insertEnum et).register e :=
  ⟨Registry.addsSame_registerEnum et e, fun s sound fresh => by
    have absent : et.name ∉ s.registry.enumNames := fun present => by
      have registered := sound.registry.enumsRegistered _ present
      rw [named, fresh] at registered
      cases registered
    rw [Registry.insertEnum_register_of_fresh et e absent fresh]
    exact later_of_appended (List.prefix_append _ _) (List.append_nil _).symm
      (List.prefix_append _ _)⟩

theorem registerComposite_appends (name : String) (d : Definition) (kind : CompositeKind)
    (c : Category) : ∃ g, Appends D name g ∧ registerComposite name d kind c = updateRegistry g :=
  ⟨_, appends_registerComposite _ ⟨name, .composite name, .composite name, d, c⟩ rfl rfl, rfl⟩

/-- The last step of a registration, seen from the first compilation: the state before it
leads to the state after it. -/
theorem update_later {name : String} {x : Compiling Unit} {m t : Compiler}
    (shape : ∃ g, Appends D name g ∧ x = updateRegistry g) (run : x.run m = .ok ((), t))
    (sound : Sound D m) (fresh : m.registry.contains name = false) : Later m t := by
  obtain ⟨g, appends, rfl⟩ := shape
  simp only [updateRegistry, Compiling.run_modify, Except.ok.injEq, Prod.mk.injEq,
    true_and] at run
  subst run
  exact appends.later m sound fresh

/-- The last step of a registration, made by the second compilation after the first made it on
its way to `F`: it keeps the state within `F`. -/
theorem update_within {name : String} {x : Compiling Unit} {F m₁ t₁ m₂ : Compiler}
    (shape : ∃ g, Appends D name g ∧ x = updateRegistry g) (run : x.run m₁ = .ok ((), t₁))
    (later : Later t₁ F) (within : Within m₂ F) :
    ∃ t₂, x.run m₂ = .ok ((), t₂) ∧ Within t₂ F := by
  obtain ⟨g, appends, rfl⟩ := shape
  simp only [updateRegistry, Compiling.run_modify, Except.ok.injEq, Prod.mk.injEq,
    true_and] at run
  subst run
  exact ⟨_, rfl, within.update appends.adds later⟩

/-! ## Following the registrations -/

/-- What the second compilation needs of a state the first one reached at the end of a step:
the first compilation went on from it to `F`, and it holds at most `P` entries. -/
def Good (F : Compiler) (P : Nat) (t : Compiler) : Prop :=
  Later t F ∧ t.registry.entries.length ≤ P

theorem Good.back {F s t : Compiler} {P : Nat} (later : Later s t) (good : Good F P t) :
    Good F P s :=
  ⟨later.trans good.1, later.grows.entries.length_le.trans good.2⟩

/-- The last step of a registration of `name`, which adds its entry: the first compilation's
state before it is good when the state after it is and holds at most `P` entries whenever `name`
is missing, and the second compilation makes the same step from every state within `F`. -/
theorem update_replays {F m₁ t₁ : Compiler} {P : Nat} {name : String} {x : Compiling Unit}
    (shape : ∃ g, Appends D name g ∧ x = updateRegistry g) (run : x.run m₁ = .ok ((), t₁))
    (sound : Sound D m₁) (marked : name ∈ m₁.resolving) (later : Later t₁ F)
    (bound : ∀ u : Compiler, u.registry.entries <+: t₁.registry.entries →
      u.registry.contains name = false → u.registry.entries.length ≤ P) :
    Good F P m₁ ∧ ∀ m₂, Within m₂ F → ∃ t₂, x.run m₂ = .ok ((), t₂) ∧ Within t₂ F :=
  have fresh := sound.fresh name marked
  have first := update_later shape run sound fresh
  ⟨⟨first.trans later, bound m₁ first.grows.entries fresh⟩,
    fun _ within => update_within shape run later within⟩

/-- A registration that makes one call and then adds the name's entry is replayed when the call
is, from the state the first compilation made the call in. -/
theorem call_then_update {α : Type} {x : Nat → Compiling α} {k : α → Compiling Unit}
    {F s₁ m₁ t₁ s₂ : Compiler} {P : Nat} {name : String} {a : α}
    (shape : ∃ g, Appends D name g ∧ k a = updateRegistry g)
    (registering : (k a).run m₁ = .ok ((), t₁)) (keeps : Keeps D s₁ m₁)
    (marked : name ∈ s₁.resolving) (later : Later t₁ F)
    (bound : ∀ u : Compiler, u.registry.entries <+: t₁.registry.entries →
      u.registry.contains name = false → u.registry.entries.length ≤ P)
    (replay : Good F P m₁ → ∃ m₂, Compiling.Eventually x s₂ a m₂ ∧ Within m₂ F) :
    ∃ t₂, Compiling.Eventually (fun N => x N >>= k) s₂ () t₂ ∧ Within t₂ F := by
  have stays : name ∈ m₁.resolving := by rw [keeps.2.2]; exact marked
  obtain ⟨good₁, last⟩ := update_replays shape registering keeps.1 stays later bound
  obtain ⟨m₂, called, within₂⟩ := replay good₁
  obtain ⟨t₂, final₂, within⟩ := last m₂ within₂
  exact ⟨t₂, called.bind (.of_run final₂), within⟩

/-- Every name the second compilation is registering sits at position `P` of `F` or after. -/
def Above (F : Compiler) (P : Nat) (s : Compiler) : Prop := ∀ z ∈ s.resolving, P ≤ position F z

/-- The second compilation registers the name at position `q` of `F` as the first one did,
from every state that follows `F`, registers no name at `q` or before and defines the name. -/
def ReplaysName (D : Document) (F : Compiler) (q : Nat) : Prop :=
  ∀ name s, position F name = q → F.registry.contains name = true → Follows D F s →
    (∀ z ∈ s.resolving, q < position F z) → (s.definition? name).isSome = true →
    ∃ t, Compiling.Eventually (registerNamed · name) s () t ∧ Within t F

/-- The second compilation's state after a step it runs from some bound on follows `F`. -/
theorem Follows.after {α : Type} {F s t : Compiler} {x : Nat → Compiling α} {a : α}
    (follows : Follows D F s) (eventually : Compiling.Eventually x s a t)
    (keeps : ∀ N, (x N).run s = .ok (a, t) → Keeps D s t) (within : Within t F) :
    Follows D F t ∧ t.resolving = s.resolving := by
  obtain ⟨N, run⟩ := eventually.run_at
  exact follows.of_keeps (keeps N run) within

theorem Above.of_resolving {F s t : Compiler} {P : Nat} (above : Above F P s)
    (resolving : t.resolving = s.resolving) : Above F P t := by
  intro z onStack
  rw [resolving] at onStack
  exact above z onStack

/-- The second compilation's state along a loop: it follows `F` and registers no name before
`P`. -/
structure Trails (D : Document) (F : Compiler) (P : Nat) (s : Compiler) : Prop where
  follows : Follows D F s
  above : Above F P s

theorem Trails.after {α : Type} {F s t : Compiler} {P : Nat} {x : Nat → Compiling α} {a : α}
    (trails : Trails D F P s) (eventually : Compiling.Eventually x s a t)
    (keeps : ∀ N, (x N).run s = .ok (a, t) → Keeps D s t) (within : Within t F) :
    Trails D F P t :=
  have ⟨follows, resolving⟩ := trails.follows.after eventually keeps within
  ⟨follows, trails.above.of_resolving resolving⟩

/-- The second compilation registers a name that the first had registered by the end of a
step, when it defines the name. -/
theorem follow_registered {F : Compiler} {P : Nat} (below : ∀ q < P, ReplaysName D F q)
    {u s : Compiler} {name : String} (good : Good F P u)
    (registered : u.registry.contains name = true) (follows : Follows D F s)
    (above : Above F P s) (defined : (s.definition? name).isSome = true) :
    ∃ t, Compiling.Eventually (registerNamed · name) s () t ∧ Within t F := by
  have early := position_lt good.1.grows.entries registered
  have short := good.2
  exact below _ (by omega) name s rfl (good.1.grows.contains registered) follows
    (fun z onStack => by have := above z onStack; omega) defined

theorem Follows.registerNamed {F s t : Compiler} {name : String} (follows : Follows D F s)
    (eventually : Compiling.Eventually (registerNamed · name) s () t) (within : Within t F) :
    Follows D F t ∧ t.resolving = s.resolving ∧ t.registry.contains name = true := by
  obtain ⟨N, run⟩ := eventually.run_at
  obtain ⟨keeps, registered⟩ := (specs N).registerNamed run follows.sound
  exact ⟨(follows.of_keeps keeps within).1, keeps.2.2, registered⟩

/-- How the second compilation follows the registration functions of the first at bound `n`,
for steps of the first that end with at most `P` entries: from a state that follows `F` and
registers no name before `P`, the same call succeeds from some bound on with the same result,
within `F`. A registration of a name is followed while the name itself is being registered, and
the first run's states without the name hold at most `P` entries. -/
structure Replays (D : Document) (F : Compiler) (P n : Nat) : Prop where
  registerDefinition : ∀ {name : String} {d : Definition} {c : Category} {rest : List String}
    {s₁ t₁ s₂ : Compiler}, (registerDefinition n name d c).run s₁ = .ok ((), t₁) → Sound D s₁ →
    s₁.resolving = name :: rest → s₁.definition? name = some d → (name, c) ∈ s₁.categories →
    Later t₁ F → (∀ m : Compiler, m.registry.entries <+: t₁.registry.entries →
      m.registry.contains name = false → m.registry.entries.length ≤ P) →
    Follows D F s₂ → Above F P s₂ →
    ∃ t₂, Compiling.Eventually (registerDefinition · name d c) s₂ () t₂ ∧ Within t₂ F
  inheritanceParents : ∀ {name : String} {d : Definition} {s₁ : Compiler} {parents : List String}
    {t₁ s₂ : Compiler}, (inheritanceParents n name d).run s₁ = .ok (parents, t₁) → Sound D s₁ →
    Placed D name d → d.shapeCategory = .ok .multiInheritance → Good F P t₁ →
    Follows D F s₂ → Above F P s₂ →
    ∃ t₂, Compiling.Eventually (inheritanceParents · name d) s₂ parents t₂ ∧ Within t₂ F
  resolve : ∀ {d : Definition} {hint : String} {s₁ : Compiler} {hk : TypeHandle × Caster}
    {t₁ s₂ : Compiler}, (resolve n d hint).run s₁ = .ok (hk, t₁) → Sound D s₁ → Placed D hint d →
    Good F P t₁ → Follows D F s₂ → Above F P s₂ →
    ∃ t₂, Compiling.Eventually (resolve · d hint) s₂ hk t₂ ∧ Within t₂ F
  reference : ∀ {d : Definition} {context owner : String} {s₁ : Compiler}
    {hk : TypeHandle × Caster} {t₁ s₂ : Compiler}, (reference n d context).run s₁ = .ok (hk, t₁) →
    Sound D s₁ → Placed D owner d → Good F P t₁ → Follows D F s₂ → Above F P s₂ →
    ∃ t₂, Compiling.Eventually (reference · d context) s₂ hk t₂ ∧ Within t₂ F
  anonymous : ∀ {name : String} {d : Definition} {c : Category} {s₁ : Compiler}
    {hk : TypeHandle × Caster} {t₁ s₂ : Compiler}, (anonymous n name d c).run s₁ = .ok (hk, t₁) →
    Sound D s₁ → Placed D name d → d.shapeCategory = .ok c → Good F P t₁ → Follows D F s₂ →
    Above F P s₂ → ∃ t₂, Compiling.Eventually (anonymous · name d c) s₂ hk t₂ ∧ Within t₂ F
  listOf : ∀ {d : Definition} {name : String} {s₁ : Compiler} {hk : TypeHandle × Caster}
    {t₁ s₂ : Compiler}, (listOf n d name).run s₁ = .ok (hk, t₁) → Sound D s₁ → Placed D name d →
    d.shapeCategory = .ok .list → Good F P t₁ → Follows D F s₂ → Above F P s₂ →
    ∃ t₂, Compiling.Eventually (listOf · d name) s₂ hk t₂ ∧ Within t₂ F
  unionOf : ∀ {d : Definition} {name : String} {s₁ : Compiler} {hk : TypeHandle × Caster}
    {t₁ s₂ : Compiler}, (unionOf n d name).run s₁ = .ok (hk, t₁) → Sound D s₁ → Placed D name d →
    d.shapeCategory = .ok .union → Good F P t₁ → Follows D F s₂ → Above F P s₂ →
    ∃ t₂, Compiling.Eventually (unionOf · d name) s₂ hk t₂ ∧ Within t₂ F
  polymorphOf : ∀ {d : Definition} {name : String} {s₁ : Compiler} {hk : TypeHandle × Caster}
    {t₁ s₂ : Compiler}, (polymorphOf n d name).run s₁ = .ok (hk, t₁) → Sound D s₁ →
    Placed D name d → d.shapeCategory = .ok .polymorph → Good F P t₁ → Follows D F s₂ →
    Above F P s₂ → ∃ t₂, Compiling.Eventually (polymorphOf · d name) s₂ hk t₂ ∧ Within t₂ F
  conditions : ∀ {name : String} {parts : List Json} {d : Definition} {s₁ : Compiler}
    {branches : List ((List (String × Value) × String × Caster) × TypeHandle)} {t₁ s₂ : Compiler},
    (conditions n name parts).run s₁ = .ok (branches, t₁) → Sound D s₁ → Placed D name d →
    d.shapeCategory = .ok .polymorph → d.allOf? = some parts → Good F P t₁ → Follows D F s₂ →
    Above F P s₂ → ∃ t₂, Compiling.Eventually (conditions · name parts) s₂ branches t₂ ∧ Within t₂ F
  keyed : ∀ {name : String} {d : Definition} {s₁ : Compiler} {hk : TypeHandle × Caster}
    {t₁ s₂ : Compiler}, (keyed n name d).run s₁ = .ok (hk, t₁) → Sound D s₁ → Placed D name d →
    Good F P t₁ → Follows D F s₂ → Above F P s₂ →
    ∃ t₂, Compiling.Eventually (keyed · name d) s₂ hk t₂ ∧ Within t₂ F

theorem replays_zero {F : Compiler} {P : Nat} : Replays D F P 0 where
  registerDefinition run := by rw [registerDefinition] at run; exact (Compiling.throw_ok run).elim
  inheritanceParents run := by rw [inheritanceParents] at run; exact (Compiling.throw_ok run).elim
  resolve run := by rw [resolve] at run; exact (Compiling.throw_ok run).elim
  reference run := by rw [reference] at run; exact (Compiling.throw_ok run).elim
  anonymous run := by rw [anonymous] at run; exact (Compiling.throw_ok run).elim
  listOf run := by rw [listOf] at run; exact (Compiling.throw_ok run).elim
  unionOf run := by rw [unionOf] at run; exact (Compiling.throw_ok run).elim
  polymorphOf run := by rw [polymorphOf] at run; exact (Compiling.throw_ok run).elim
  conditions run := by rw [conditions] at run; exact (Compiling.throw_ok run).elim
  keyed run := by rw [keyed] at run; exact (Compiling.throw_ok run).elim

section Succ

variable {F : Compiler} {P n : Nat} (oracle : Sound D F) (references : D.ReferencesDefined)
  (below : ∀ q < P, ReplaysName D F q)

include oracle references below in
theorem reference_replays {d : Definition} {context owner : String} {s₁ : Compiler}
    {hk : TypeHandle × Caster} {t₁ s₂ : Compiler}
    (run : (reference (n + 1) d context).run s₁ = .ok (hk, t₁)) (sound₁ : Sound D s₁)
    (placed : Placed D owner d) (good : Good F P t₁) (follows : Follows D F s₂)
    (above : Above F P s₂) :
    ∃ t₂, Compiling.Eventually (reference · d context) s₂ hk t₂ ∧ Within t₂ F := by
  rw [reference] at run
  cases target? : d.referenceName? with
  | none =>
    simp only [target?] at run
    exact (Compiling.throw_ok run).elim
  | some target =>
    simp only [target?] at run
    obtain ⟨⟨⟩, m₁, registering, looking⟩ := Compiling.bind_ok run
    obtain ⟨rfl, e₁, found₁, rfl⟩ := registered_ok looking
    obtain ⟨keeps₁, registered₁⟩ := (specs n).registerNamed registering sound₁
    -- the target is a definition of the document, which the second compilation has
    have named := refers_defined references placed (.inl target?) keeps₁.1 registered₁
    obtain ⟨t₂, registering₂, within⟩ :=
      follow_registered below good registered₁ follows above (follows.defined named)
    obtain ⟨-, -, registered₂⟩ := follows.registerNamed registering₂ within
    obtain ⟨e₂, found₂⟩ := Registry.entry_of_contains registered₂
    obtain rfl := entry_agrees oracle within found₂ good.1.grows.entries found₁
    refine ⟨t₂, Compiling.Eventually.of_succ ?_, within⟩
    simp only [reference, target?]
    exact registering₂.bind (Compiling.Eventually.of_run (registered_run found₂))

/-- The first compilation's result for an inline schema is the entry of its name at the end. -/
theorem anonymous_entry {name : String} {d : Definition} {c : Category} {s t : Compiler}
    {hk : TypeHandle × Caster} (run : (anonymous (n + 1) name d c).run s = .ok (hk, t)) :
    ∃ e, t.registry.entry name = .ok e ∧ hk = (e.handle, e.caster) := by
  rw [anonymous] at run
  have run := get_bind_ok run
  dsimp only at run
  by_cases registered : s.registry.contains name = true
  · simp only [registered, Bool.not_true, Bool.false_eq_true, if_false] at run
    obtain ⟨rfl, found⟩ := registered_ok run
    exact found
  simp only [registered, Bool.not_false, if_true] at run
  split at run
  · obtain ⟨⟨⟩, adopted, -, run⟩ := Compiling.bind_ok run
    obtain ⟨⟨⟩, middle, -, looking⟩ := Compiling.bind_ok run
    obtain ⟨rfl, found⟩ := registered_ok looking
    exact found
  · obtain ⟨⟨⟩, middle, -, looking⟩ := Compiling.bind_ok run
    obtain ⟨rfl, found⟩ := registered_ok looking
    exact found

include oracle in
/-- Adopting a definition of a name that `F` registered keeps the second compilation following
`F`: `F` holds the same definition under the name. -/
theorem Follows.adopt (unclashed : D.Unclashed) {s a : Compiler} {name : String}
    {d : Definition} {c : Category} (follows : Follows D F s)
    (run : (adopt name d c).run s = .ok ((), a)) (undefined : s.definition? name = none)
    (placed : Placed D name d) (category : d.shapeCategory = .ok c)
    (registered : F.registry.contains name = true) :
    Follows D F a ∧ a.resolving = s.resolving ∧ a.definition? name = some d := by
  obtain ⟨sound, grows, resolving, registry, defined⟩ :=
    adopt_keeps run follows.sound undefined placed category
  obtain ⟨appended, -, -⟩ := adopt_definitions run undefined
  -- `F`'s definition of the name is placed there too, and the name is not the document's
  obtain ⟨e, found⟩ := Registry.entry_of_contains registered
  obtain ⟨present, named⟩ := Registry.entry_ok found
  have definedInF := (oracle.entriesDefined e present).1
  rw [named] at definedInF
  have notDocument : name ∉ D.definitions.map (·.1) := fun member => by
    have isSome := follows.defined member
    rw [undefined] at isSome
    cases isSome
  obtain rfl := unclashed name d e.definition placed (oracle.placed_of_definition? definedInF)
    notDocument
  refine ⟨⟨sound, fun p member => grows.definitions.subset (follows.covers p member),
    ⟨fun p member => ?_, ?_, ?_, ?_, ?_⟩⟩, resolving, defined⟩
  · rw [appended] at member
    rcases List.mem_append.mp member with old | new
    · exact follows.within.definitions p old
    · rw [List.mem_singleton.mp new]
      exact mem_of_definition? definedInF
  · rw [registry]; exact follows.within.entries
  · rw [registry]; exact follows.within.composites
  · rw [registry]; exact follows.within.enums
  · rw [adopt_patterns run]; exact follows.within.patterns

include oracle below in
theorem anonymous_replays (unclashed : D.Unclashed) {name : String} {d : Definition}
    {c : Category} {s₁ : Compiler} {hk : TypeHandle × Caster} {t₁ s₂ : Compiler}
    (run : (anonymous (n + 1) name d c).run s₁ = .ok (hk, t₁)) (sound₁ : Sound D s₁)
    (placed : Placed D name d) (category : d.shapeCategory = .ok c) (good : Good F P t₁)
    (follows : Follows D F s₂) (above : Above F P s₂) :
    ∃ t₂, Compiling.Eventually (anonymous · name d c) s₂ hk t₂ ∧ Within t₂ F := by
  obtain ⟨e₁, found₁, rfl⟩ := anonymous_entry run
  have registered₁ := ((specs (n + 1)).anonymous run sound₁ placed category).2.2
  -- the second compilation registers the name if it has to, and finds the first one's entry
  have finish : ∀ {u t₂ : Compiler}, Follows D F u → Above F P u → (u.definition? name).isSome →
      Compiling.Eventually (registerNamed · name) u () t₂ → Within t₂ F →
      Compiling.Eventually (fun N => registerNamed N name >>= fun _ => registered name) u
        (e₁.handle, e₁.caster) t₂ := by
    intro u t₂ followsHere _ _ registering within
    obtain ⟨-, -, registered₂⟩ := followsHere.registerNamed registering within
    obtain ⟨e₂, found₂⟩ := Registry.entry_of_contains registered₂
    obtain rfl := entry_agrees oracle within found₂ good.1.grows.entries found₁
    exact registering.bind (Compiling.Eventually.of_run (registered_run found₂))
  refine Compiling.Eventually.exists_of_succ ?_
  simp only [anonymous]
  by_cases registered₂ : s₂.registry.contains name = true
  · obtain ⟨e₂, found₂⟩ := Registry.entry_of_contains registered₂
    obtain rfl := entry_agrees oracle follows.within found₂ good.1.grows.entries found₁
    refine ⟨s₂, Compiling.Eventually.get_bind ?_, follows.within⟩
    simp only [registered₂, Bool.not_true, Bool.false_eq_true, if_false]
    exact Compiling.Eventually.of_run (registered_run found₂)
  by_cases undefined : (s₂.definition? name).isNone = true
  · obtain ⟨adopted, adopting⟩ : ∃ a, (adopt name d c).run s₂ = .ok ((), a) := ⟨_, rfl⟩
    obtain ⟨followsAdopted, resolving, defined⟩ := follows.adopt oracle unclashed adopting
      (Option.isNone_iff_eq_none.mp undefined) placed category (good.1.grows.contains registered₁)
    have aboveAdopted := above.of_resolving resolving
    obtain ⟨t₂, registering, within⟩ := follow_registered below good registered₁ followsAdopted
      aboveAdopted (by rw [defined]; rfl)
    refine ⟨t₂, Compiling.Eventually.get_bind ?_, within⟩
    simp only [registered₂, undefined, Bool.not_false, if_true]
    exact (Compiling.Eventually.of_run adopting).bind
      (finish followsAdopted aboveAdopted (by rw [defined]; rfl) registering within)
  · have defined : (s₂.definition? name).isSome = true := by
      simpa [Option.isNone_iff_eq_none, Option.isSome_iff_ne_none] using undefined
    obtain ⟨t₂, registering, within⟩ :=
      follow_registered below good registered₁ follows above defined
    refine ⟨t₂, Compiling.Eventually.get_bind ?_, within⟩
    simp only [registered₂, undefined, Bool.not_false, if_true, if_false, Bool.false_eq_true]
    exact finish follows above defined registering within

variable (ih : Replays D F P n)

include ih in
theorem listOf_replays {d : Definition} {name : String} {s₁ : Compiler}
    {hk : TypeHandle × Caster} {t₁ s₂ : Compiler}
    (run : (listOf (n + 1) d name).run s₁ = .ok (hk, t₁)) (sound₁ : Sound D s₁)
    (placed : Placed D name d) (category : d.shapeCategory = .ok .list) (good : Good F P t₁)
    (follows : Follows D F s₂) (above : Above F P s₂) :
    ∃ t₂, Compiling.Eventually (listOf · d name) s₂ hk t₂ ∧ Within t₂ F := by
  refine Compiling.Eventually.exists_of_succ ?_
  rw [listOf] at run
  simp only [listOf]
  -- splitting the first run's match on the items splits the second's with it
  split at run
  · obtain ⟨rfl, rfl⟩ := Compiling.pure_ok run
    exact ⟨s₂, .of_run rfl, follows.within⟩
  · obtain ⟨rfl, rfl⟩ := Compiling.pure_ok run
    exact ⟨s₂, .of_run rfl, follows.within⟩
  · next items notTrue found =>
    obtain ⟨itemDefinition, middle, defining, resolvingItem⟩ := Compiling.bind_ok run
    obtain ⟨rfl, read⟩ := definitionOf_ok defining
    obtain ⟨item, last, resolving, rest⟩ := Compiling.bind_ok resolvingItem
    obtain ⟨rfl, rfl⟩ := Compiling.pure_ok rest
    obtain ⟨t₂, following, within⟩ :=
      ih.resolve resolving sound₁ (.item placed category found notTrue read) good follows above
    exact ⟨t₂, (Compiling.Eventually.of_run ((definitionOf_stateless _ _).run_eq defining s₂)).bind
      (following.bind (.of_run rfl)), within⟩

include ih in
theorem unionOf_replays {d : Definition} {name : String} {s₁ : Compiler}
    {hk : TypeHandle × Caster} {t₁ s₂ : Compiler}
    (run : (unionOf (n + 1) d name).run s₁ = .ok (hk, t₁)) (sound₁ : Sound D s₁)
    (placed : Placed D name d) (category : d.shapeCategory = .ok .union) (good : Good F P t₁)
    (follows : Follows D F s₂) (above : Above F P s₂) :
    ∃ t₂, Compiling.Eventually (unionOf · d name) s₂ hk t₂ ∧ Within t₂ F := by
  refine Compiling.Eventually.exists_of_succ ?_
  rw [unionOf] at run
  simp only [unionOf]
  obtain ⟨members, middle, collecting, choosing⟩ := Compiling.bind_ok run
  -- the choice of the handle from the members reads no state
  have choice := Compiling.Stateless.run_same (by dsimp only; split <;> exact .pure _) choosing
  obtain ⟨rfl, choosingAnywhere⟩ := choice
  refine Compiling.Eventually.exists_bind (Compiling.filterMapM_follows Later.refl Later.trans
    Good.back n ?_ s₁ members t₁ s₂ collecting sound₁ good (⟨follows, above⟩ : Trails D F P s₂))
    fun t₂ _ trails => ⟨t₂, .of_run (choosingAnywhere t₂), trails.follows.within⟩
  rintro ⟨alternative, ix⟩ member s1 result t1 stepping s1Sound
  dsimp only at stepping ⊢
  split at stepping
  · next isNull =>
    obtain ⟨rfl, rfl⟩ := Compiling.pure_ok stepping
    refine ⟨s1Sound, .refl _, fun s2 _ trails => ⟨s2, ?_, trails⟩⟩
    simp only [isNull, ↓reduceIte]
    exact .of_run rfl
  · next notNull =>
    obtain ⟨option, s3, defining, resolvingOption⟩ := Compiling.bind_ok stepping
    obtain ⟨rfl, read⟩ := definitionOf_ok defining
    obtain ⟨m, s4, resolving, wrapping⟩ := Compiling.bind_ok resolvingOption
    obtain ⟨rfl, rfl⟩ := Compiling.pure_ok wrapping
    have placedOption := Placed.option placed category member (by simpa using notNull) read
    refine ⟨((specs n).resolve resolving s1Sound placedOption).1.1,
      ((recording n).resolve resolving s1Sound placedOption).later, fun s2 good' trails => ?_⟩
    obtain ⟨t2, following, within⟩ :=
      ih.resolve resolving s1Sound placedOption good' trails.follows trails.above
    refine ⟨t2, ?_, trails.after following
      (fun N run => ((specs N).resolve run trails.follows.sound placedOption).1) within⟩
    simp only [notNull, Bool.false_eq_true, ↓reduceIte]
    exact (Compiling.Eventually.of_run ((definitionOf_stateless _ _).run_eq defining s2)).bind
      (following.bind (.of_run rfl))

include ih in
theorem conditions_replays {name : String} {parts : List Json} {d : Definition} {s₁ : Compiler}
    {branches : List ((List (String × Value) × String × Caster) × TypeHandle)} {t₁ s₂ : Compiler}
    (run : (conditions (n + 1) name parts).run s₁ = .ok (branches, t₁)) (sound₁ : Sound D s₁)
    (placed : Placed D name d) (category : d.shapeCategory = .ok .polymorph)
    (parts? : d.allOf? = some parts) (good : Good F P t₁) (follows : Follows D F s₂)
    (above : Above F P s₂) :
    ∃ t₂, Compiling.Eventually (conditions · name parts) s₂ branches t₂ ∧ Within t₂ F := by
  refine Compiling.Eventually.exists_of_succ ?_
  rw [conditions] at run
  simp only [conditions]
  refine Compiling.Eventually.exists_mono (Compiling.mapM_follows Later.refl Later.trans Good.back
    n ?_ s₁ branches t₁ s₂ run sound₁ good (⟨follows, above⟩ : Trails D F P s₂))
    fun _ trails => trails.follows.within
  rintro ⟨part, ix⟩ member s1 b t1 stepping s1Sound
  dsimp only at stepping ⊢
  split at stepping
  · next fields found =>
    obtain ⟨constants, s3, folding, rest⟩ := Compiling.bind_ok stepping
    -- the constants are read from the condition's schema alone
    have reading := Compiling.Stateless.run_same (Compiling.Stateless.foldlM (by
      rintro acc ⟨field, schema⟩
      dsimp only
      split
      exacts [.pure _, .throw _]) []) folding
    obtain ⟨rfl, readingAnywhere⟩ := reading
    obtain ⟨thenPart, s4, defining, resolvingThen⟩ := Compiling.bind_ok rest
    obtain ⟨rfl, read⟩ := definitionOf_ok defining
    obtain ⟨hk, s5, resolving, wrapping⟩ := Compiling.bind_ok resolvingThen
    obtain ⟨rfl, rfl⟩ := Compiling.pure_ok wrapping
    have placedThen := Placed.branch placed category parts? member read
    refine ⟨((specs n).resolve resolving s1Sound placedThen).1.1,
      ((recording n).resolve resolving s1Sound placedThen).later, fun s2 good' trails => ?_⟩
    obtain ⟨t2, following, within⟩ :=
      ih.resolve resolving s1Sound placedThen good' trails.follows trails.above
    refine ⟨t2, ?_, trails.after following
      (fun N run => ((specs N).resolve run trails.follows.sound placedThen).1) within⟩
    exact (Compiling.Eventually.of_run (readingAnywhere s2)).bind
      ((Compiling.Eventually.of_run ((definitionOf_stateless _ _).run_eq defining s2)).bind
        (following.bind (.of_run rfl)))
  · exact (Compiling.throw_ok stepping).elim

include oracle references below in
theorem keyed_replays {name : String} {d : Definition} {s₁ : Compiler}
    {hk : TypeHandle × Caster} {t₁ s₂ : Compiler}
    (run : (keyed (n + 1) name d).run s₁ = .ok (hk, t₁)) (sound₁ : Sound D s₁)
    (placed : Placed D name d) (good : Good F P t₁) (follows : Follows D F s₂)
    (above : Above F P s₂) :
    ∃ t₂, Compiling.Eventually (keyed · name d) s₂ hk t₂ ∧ Within t₂ F := by
  refine Compiling.Eventually.exists_of_succ ?_
  rw [keyed] at run
  simp only [keyed]
  obtain ⟨disc?, middle, reading, run⟩ := Compiling.bind_ok run
  obtain ⟨discovered, rfl⟩ := Compiling.liftExcept_ok reading
  refine Compiling.Eventually.exists_bind ⟨s₂,
    .of_run ((Compiling.Stateless.liftExcept _).run_eq reading s₂),
    (⟨follows, above⟩ : Trails D F P s₂)⟩ fun u _ trails => ?_
  cases disc? with
  | none => exact (Compiling.throw_ok run).elim
  | some disc =>
    dsimp only at run ⊢
    obtain ⟨acc, last, folding, wrapping⟩ := Compiling.bind_ok run
    obtain ⟨rfl, rfl⟩ := Compiling.pure_ok wrapping
    refine Compiling.Eventually.exists_bind (Compiling.foldlM_follows Later.refl Later.trans
      Good.back (fun _ => True) n ?_ ([], []) _ acc t₁ u folding sound₁ trivial good trails)
      fun t₂ _ invariants => ⟨t₂, .of_run rfl, invariants.1.follows.within⟩
    -- every key's target is a name the definition refers to, registered as the first run did
    rintro ⟨key, target⟩ member ⟨mapping, handles⟩ s1 acc' t1 stepping s1Sound -
    dsimp only at stepping ⊢
    obtain ⟨⟨⟩, s3, registering, looking⟩ := Compiling.bind_ok stepping
    obtain ⟨hk', s4, lookup, wrapping'⟩ := Compiling.bind_ok looking
    obtain ⟨rfl, e₁, found₁, rfl⟩ := registered_ok lookup
    obtain ⟨rfl, rfl⟩ := Compiling.pure_ok wrapping'
    obtain ⟨keeps₁, registered₁⟩ := (specs n).registerNamed registering s1Sound
    refine ⟨keeps₁.1, trivial, ((recording n).registerNamed registering s1Sound).later,
      fun s2 good' trails => ?_⟩
    have named := refers_defined references placed
      (.inr ⟨disc, discovered, List.mem_map.mpr ⟨_, member, rfl⟩⟩) keeps₁.1 registered₁
    obtain ⟨t2, registering₂, within⟩ := follow_registered below good' registered₁
      trails.follows trails.above (trails.follows.defined named)
    obtain ⟨follows₂, resolving₂, registered₂⟩ := trails.follows.registerNamed registering₂ within
    obtain ⟨e₂, found₂⟩ := Registry.entry_of_contains registered₂
    obtain rfl := entry_agrees oracle within found₂ good'.1.grows.entries found₁
    exact ⟨t2, registering₂.bind ((Compiling.Eventually.of_run (registered_run found₂)).bind
      (.of_run rfl)), follows₂, trails.above.of_resolving resolving₂⟩

include ih in
theorem polymorphOf_replays {d : Definition} {name : String} {s₁ : Compiler}
    {hk : TypeHandle × Caster} {t₁ s₂ : Compiler}
    (run : (polymorphOf (n + 1) d name).run s₁ = .ok (hk, t₁)) (sound₁ : Sound D s₁)
    (placed : Placed D name d) (category : d.shapeCategory = .ok .polymorph) (good : Good F P t₁)
    (follows : Follows D F s₂) (above : Above F P s₂) :
    ∃ t₂, Compiling.Eventually (polymorphOf · d name) s₂ hk t₂ ∧ Within t₂ F := by
  refine Compiling.Eventually.exists_of_succ ?_
  rw [polymorphOf] at run
  simp only [polymorphOf]
  split at run
  · next parts parts? =>
    obtain ⟨branches, middle, branching, wrapping⟩ := Compiling.bind_ok run
    obtain ⟨rfl, rfl⟩ := Compiling.pure_ok wrapping
    obtain ⟨t₂, following, within⟩ :=
      ih.conditions branching sound₁ placed category parts? good follows above
    exact ⟨t₂, following.bind (.of_run rfl), within⟩
  · exact ih.keyed run sound₁ placed good follows above

include ih in
theorem resolve_replays {d : Definition} {hint : String} {s₁ : Compiler}
    {hk : TypeHandle × Caster} {t₁ s₂ : Compiler}
    (run : (resolve (n + 1) d hint).run s₁ = .ok (hk, t₁)) (sound₁ : Sound D s₁)
    (placed : Placed D hint d) (good : Good F P t₁) (follows : Follows D F s₂)
    (above : Above F P s₂) :
    ∃ t₂, Compiling.Eventually (resolve · d hint) s₂ hk t₂ ∧ Within t₂ F := by
  refine Compiling.Eventually.exists_of_succ ?_
  rw [resolve] at run
  simp only [resolve]
  by_cases unconstrained : d.isUnconstrained = true
  · simp only [unconstrained, ↓reduceIte] at run ⊢
    obtain ⟨rfl, rfl⟩ := Compiling.pure_ok run
    exact ⟨s₂, .of_run rfl, follows.within⟩
  simp only [unconstrained, Bool.false_eq_true, ↓reduceIte] at run ⊢
  obtain ⟨c, m₁, categorizing, chosen⟩ := Compiling.bind_ok run
  obtain ⟨rfl, category⟩ := categoryOf_ok categorizing
  have reading := Compiling.Eventually.of_run
    ((categoryOf_stateless d hint).run_eq categorizing s₂)
  -- the same category leads both runs to the same function
  cases c with
  | passthrough =>
    obtain ⟨t₂, following, within⟩ := ih.reference chosen sound₁ placed good follows above
    exact ⟨t₂, reading.bind following, within⟩
  | native =>
    obtain ⟨rfl, -⟩ := native_ok chosen
    exact ⟨s₂, reading.bind (.of_run (native_patterns chosen
      (follows.within.patterns.trans good.1.patterns))), follows.within⟩
  | list =>
    obtain ⟨t₂, following, within⟩ := ih.listOf chosen sound₁ placed category good follows above
    exact ⟨t₂, reading.bind following, within⟩
  | union =>
    obtain ⟨t₂, following, within⟩ := ih.unionOf chosen sound₁ placed category good follows above
    exact ⟨t₂, reading.bind following, within⟩
  | polymorph =>
    obtain ⟨t₂, following, within⟩ :=
      ih.polymorphOf chosen sound₁ placed category good follows above
    exact ⟨t₂, reading.bind following, within⟩
  | custom | enumeration | multiInheritance =>
    obtain ⟨t₂, following, within⟩ :=
      ih.anonymous chosen sound₁ placed category good follows above
    exact ⟨t₂, reading.bind following, within⟩

include ih in
theorem inheritanceParents_replays {name : String} {d : Definition} {s₁ : Compiler}
    {parents : List String} {t₁ s₂ : Compiler}
    (run : (inheritanceParents (n + 1) name d).run s₁ = .ok (parents, t₁)) (sound₁ : Sound D s₁)
    (placed : Placed D name d) (category : d.shapeCategory = .ok .multiInheritance)
    (good : Good F P t₁) (follows : Follows D F s₂) (above : Above F P s₂) :
    ∃ t₂, Compiling.Eventually (inheritanceParents · name d) s₂ parents t₂ ∧ Within t₂ F := by
  refine Compiling.Eventually.exists_of_succ ?_
  rw [inheritanceParents] at run
  simp only [inheritanceParents]
  refine Compiling.Eventually.exists_mono (Compiling.mapM_follows Later.refl Later.trans Good.back
    n ?_ s₁ parents t₁ s₂ run sound₁ good (⟨follows, above⟩ : Trails D F P s₂))
    fun _ trails => trails.follows.within
  rintro ⟨part, ix⟩ member s1 parent t1 stepping s1Sound
  dsimp only at stepping ⊢
  obtain ⟨partDefinition, s3, defining, categorizing⟩ := Compiling.bind_ok stepping
  obtain ⟨rfl, read⟩ := definitionOf_ok defining
  obtain ⟨c, s4, classifying, chosen⟩ := Compiling.bind_ok categorizing
  obtain ⟨rfl, partCategory⟩ := categoryOf_ok classifying
  have placedPart := Placed.parent placed category member read
  -- the second run reads the same part and category, and goes into the same branch
  split at chosen
  · -- a reference to an object type
    obtain ⟨⟨h, k⟩, s5, referring, choosing⟩ := Compiling.bind_ok chosen
    dsimp only at choosing
    split at choosing
    · obtain ⟨rfl, rfl⟩ := Compiling.pure_ok choosing
      refine ⟨((specs n).reference referring s1Sound).1.1,
        ((recording n).reference referring s1Sound).later, fun s2 good' trails => ?_⟩
      obtain ⟨t2, following, within⟩ :=
        ih.reference referring s1Sound placedPart good' trails.follows trails.above
      refine ⟨t2, ?_, trails.after following
        (fun N run => ((specs N).reference run trails.follows.sound).1) within⟩
      exact (Compiling.Eventually.of_run ((definitionOf_stateless _ _).run_eq defining s2)).bind
        ((Compiling.Eventually.of_run ((categoryOf_stateless _ _).run_eq classifying s2)).bind
          (following.bind (.of_run rfl)))
    · exact (Compiling.throw_ok choosing).elim
  -- an inline object, registered under a name of its own
  all_goals try exact (Compiling.throw_ok chosen).elim
  all_goals
    obtain ⟨hk, s5, adopting, naming⟩ := Compiling.bind_ok chosen
    obtain ⟨rfl, rfl⟩ := Compiling.pure_ok naming
    refine ⟨((specs n).anonymous adopting s1Sound placedPart partCategory).1.1,
      ((recording n).anonymous adopting s1Sound placedPart partCategory).later,
      fun s2 good' trails => ?_⟩
    obtain ⟨t2, following, within⟩ :=
      ih.anonymous adopting s1Sound placedPart partCategory good' trails.follows trails.above
    refine ⟨t2, ?_, trails.after following (fun N run =>
      ((specs N).anonymous run trails.follows.sound placedPart partCategory).1) within⟩
    exact (Compiling.Eventually.of_run ((definitionOf_stateless _ _).run_eq defining s2)).bind
      ((Compiling.Eventually.of_run ((categoryOf_stateless _ _).run_eq classifying s2)).bind
        (following.bind (.of_run rfl)))

include oracle references below ih in
theorem registerDefinition_replays {name : String} {d : Definition} {c : Category}
    {rest : List String} {s₁ t₁ s₂ : Compiler}
    (run : (registerDefinition (n + 1) name d c).run s₁ = .ok ((), t₁)) (sound₁ : Sound D s₁)
    (resolving₁ : s₁.resolving = name :: rest) (defined₁ : s₁.definition? name = some d)
    (categorized₁ : (name, c) ∈ s₁.categories) (later : Later t₁ F)
    (bound : ∀ m : Compiler, m.registry.entries <+: t₁.registry.entries →
      m.registry.contains name = false → m.registry.entries.length ≤ P)
    (follows : Follows D F s₂) (above : Above F P s₂) :
    ∃ t₂, Compiling.Eventually (registerDefinition · name d c) s₂ () t₂ ∧ Within t₂ F := by
  obtain ⟨d', defined', category⟩ := sound₁.categorized name c categorized₁
  rw [defined₁] at defined'
  cases defined'
  have placed := sound₁.placed_of_definition? defined₁
  have marked : name ∈ s₁.resolving := by rw [resolving₁]; exact List.mem_cons_self
  refine Compiling.Eventually.exists_of_succ ?_
  cases c <;> rw [registerDefinition] at run <;> simp only [registerDefinition]
  case native =>
    obtain ⟨hk, m₁, computed, registering⟩ := Compiling.bind_ok run
    obtain ⟨rfl, kind, rfl⟩ := native_ok computed
    obtain ⟨good₁, last⟩ :=
      update_replays ⟨_, appends_register _, rfl⟩ registering sound₁ marked later bound
    obtain ⟨t₂, final₂, within⟩ := last s₂ follows.within
    exact ⟨t₂, (Compiling.Eventually.of_run (native_patterns computed
      (follows.within.patterns.trans good₁.1.patterns))).bind (.of_run final₂), within⟩
  case enumeration =>
    obtain ⟨et, m₁, lifted, registering⟩ := Compiling.bind_ok run
    obtain ⟨read, rfl⟩ := Compiling.liftExcept_ok lifted
    obtain ⟨-, last⟩ := update_replays
      ⟨_, appends_registerEnum _ _ (EnumType.ofDefinition_ok read).1, rfl⟩ registering sound₁
      marked later bound
    obtain ⟨t₂, final₂, within⟩ := last s₂ follows.within
    exact ⟨t₂, (Compiling.Eventually.of_run
      ((Compiling.Stateless.liftExcept _).run_eq lifted s₂)).bind (.of_run final₂), within⟩
  case custom =>
    obtain ⟨-, last⟩ :=
      update_replays (registerComposite_appends _ _ _ _) run sound₁ marked later bound
    obtain ⟨t₂, final₂, within⟩ := last s₂ follows.within
    exact ⟨t₂, .of_run final₂, within⟩
  case passthrough =>
    cases target? : d.referenceName? with
    | none =>
      simp only [target?] at run
      exact (Compiling.throw_ok run).elim
    | some target =>
      simp only [target?] at run ⊢
      obtain ⟨⟨⟩, m₀, registering, looking⟩ := Compiling.bind_ok run
      obtain ⟨e₁, m₁, lookup, chosen⟩ := Compiling.bind_ok (get_bind_ok looking)
      obtain ⟨found₁, rfl⟩ := Compiling.liftExcept_ok lookup
      obtain ⟨keeps₁, registered₁⟩ := (specs n).registerNamed registering sound₁
      have stays : name ∈ m₁.resolving := by rw [keeps₁.2.2]; exact marked
      have named := refers_defined references placed (.inl target?) keeps₁.1 registered₁
      -- the second run registers the target first and finds the first run's entry
      have replayTarget : Good F P m₁ → ∃ m₂, Compiling.Eventually (registerNamed · target) s₂ ()
          m₂ ∧ Within m₂ F ∧
          (liftExcept (m₂.registry.entry target) : Compiling Entry).run m₂ = .ok (e₁, m₂) := by
        intro good₁
        obtain ⟨m₂, registering₂, within₂⟩ := follow_registered below good₁ registered₁ follows
          above (follows.defined named)
        obtain ⟨-, -, registered₂⟩ := follows.registerNamed registering₂ within₂
        obtain ⟨e₂, found₂⟩ := Registry.entry_of_contains registered₂
        obtain rfl := entry_agrees oracle within₂ found₂ good₁.1.grows.entries found₁
        exact ⟨m₂, registering₂, within₂, by rw [found₂]; rfl⟩
      split at chosen
      · next parent handle =>
        obtain ⟨good₁, last⟩ := update_replays (registerComposite_appends _ _ _ _) chosen
          keeps₁.1 stays later bound
        obtain ⟨m₂, registering₂, within₂, lookup₂⟩ := replayTarget good₁
        obtain ⟨t₂, final₂, within⟩ := last m₂ within₂
        refine ⟨t₂, registering₂.bind (Compiling.Eventually.get_bind
          ((Compiling.Eventually.of_run lookup₂).bind (.of_run ?_))), within⟩
        simpa only [handle] using final₂
      · next other =>
        obtain ⟨good₁, last⟩ := update_replays ⟨_, appends_register _, rfl⟩ chosen keeps₁.1 stays
          later bound
        obtain ⟨m₂, registering₂, within₂, lookup₂⟩ := replayTarget good₁
        obtain ⟨t₂, final₂, within⟩ := last m₂ within₂
        refine ⟨t₂, registering₂.bind (Compiling.Eventually.get_bind
          ((Compiling.Eventually.of_run lookup₂).bind (.of_run ?_))), within⟩
        split
        · next parent handle => exact absurd handle (other parent)
        · exact final₂
  case multiInheritance =>
    obtain ⟨parents, m₁, inheriting, registering⟩ := Compiling.bind_ok run
    exact call_then_update (registerComposite_appends _ _ _ _) registering
      ((specs n).inheritanceParents inheriting sound₁ placed category).1 marked later bound
      fun good₁ => ih.inheritanceParents inheriting sound₁ placed category good₁ follows above
  case list =>
    obtain ⟨hk, m₁, computed, registering⟩ := Compiling.bind_ok run
    exact call_then_update ⟨_, appends_register _, rfl⟩ registering
      ((specs n).listOf computed sound₁ placed category).1 marked later bound
      fun good₁ => ih.listOf computed sound₁ placed category good₁ follows above
  case union =>
    obtain ⟨hk, m₁, computed, registering⟩ := Compiling.bind_ok run
    exact call_then_update ⟨_, appends_register _, rfl⟩ registering
      ((specs n).unionOf computed sound₁ placed category).1 marked later bound
      fun good₁ => ih.unionOf computed sound₁ placed category good₁ follows above
  case polymorph =>
    obtain ⟨hk, m₁, computed, registering⟩ := Compiling.bind_ok run
    exact call_then_update ⟨_, appends_register _, rfl⟩ registering
      ((specs n).polymorphOf computed sound₁ placed category).1 marked later bound
      fun good₁ => ih.polymorphOf computed sound₁ placed category good₁ follows above

end Succ

/-- Every registration function of the first compilation is followed by the second, at every
bound, when the names before position `P` are. -/
theorem replays {F : Compiler} {P : Nat} (oracle : Sound D F) (references : D.ReferencesDefined)
    (unclashed : D.Unclashed) (below : ∀ q < P, ReplaysName D F q) : ∀ n, Replays D F P n
  | 0 => replays_zero
  | n + 1 =>
    have ih := replays oracle references unclashed below n
    { registerDefinition := registerDefinition_replays oracle references below ih
      inheritanceParents := inheritanceParents_replays ih
      resolve := resolve_replays ih
      reference := reference_replays oracle references below
      anonymous := anonymous_replays oracle below unclashed
      listOf := listOf_replays ih
      unionOf := unionOf_replays ih
      polymorphOf := polymorphOf_replays ih
      conditions := conditions_replays ih
      keyed := keyed_replays oracle references below }

/-- The second compilation registers every name `F` registered, from every state that follows
`F`, registers no name at its position or before and defines it. The induction is on the
position: the registration the first compilation made of the name registered only names before
it, which the second compilation registers by induction. -/
theorem registerNamed_replays {F : Compiler} (oracle : Sound D F)
    (references : D.ReferencesDefined) (unclashed : D.Unclashed)
    (records : ∀ name, F.registry.contains name = true → Recorded D F name) :
    ∀ q, ReplaysName D F q := by
  intro q
  induction q using Nat.strong_induction_on with
  | _ q below =>
  intro name s₂ pos registeredF follows aboveStrict defined₂
  obtain ⟨n₁, s₁, t₁, d, c, rest, sound₁, resolving₁, -, defined₁, categorized₁, run, later⟩ :=
    records name registeredF
  have reached : Later s₁ F := ((recording n₁).registerDefinition run sound₁ resolving₁ defined₁
    categorized₁).later.trans later
  obtain ⟨d₂, found₂⟩ := Option.isSome_iff_exists.mp defined₂
  obtain rfl := definition_agrees oracle follows found₂ reached defined₁
  obtain ⟨d', defined', category⟩ := sound₁.categorized name c categorized₁
  rw [defined₁] at defined'
  cases defined'
  by_cases registered₂ : s₂.registry.contains name = true
  · refine ⟨s₂, Compiling.Eventually.of_succ ?_, follows.within⟩
    simp only [registerNamed]
    refine Compiling.Eventually.get_bind ?_
    simp only [registered₂, ↓reduceIte]
    exact .of_run rfl
  have fresh₂ : s₂.registry.contains name = false := by simpa using registered₂
  have outside : name ∉ s₂.resolving := fun onStack => by
    have := aboveStrict name onStack
    omega
  -- the first compilation's registration of the name, replayed from the marked state
  obtain ⟨t₂, registering₂, within⟩ :=
    (replays oracle references unclashed below n₁).registerDefinition run sound₁ resolving₁
      defined₁ categorized₁ later
      (fun m prefixed fresh => pos ▸ length_le_position (prefixed.trans later.grows.entries) fresh)
      (follows.push fresh₂ outside) (by
        intro z onStack
        rcases List.mem_cons.mp onStack with rfl | old
        · exact pos.ge
        · exact (aboveStrict z old).le)
  refine ⟨{ t₂ with resolving := t₂.resolving.drop 1 }, Compiling.Eventually.of_succ ?_,
    within.resolving _⟩
  simp only [registerNamed]
  refine Compiling.Eventually.get_bind ?_
  have notResolving : s₂.resolving.contains name = false := by simpa using outside
  simp only [fresh₂, notResolving, found₂, Bool.false_eq_true, ↓reduceIte]
  -- the category the second compilation reads is the one the first registered the name under
  cases looked : s₂.categories.find? (·.1 == name) with
  | none =>
    have reading : (categoryOf d₂ name).run s₂ = .ok (c, s₂) := by
      simp only [categoryOf, category]
      rfl
    exact Compiling.Eventually.stay_bind reading
      ((Compiling.Eventually.of_run rfl).bind (registering₂.bind (.of_run rfl)))
  | some entry =>
    obtain ⟨x, c₂⟩ := entry
    have named : x = name := by simpa using List.find?_some looked
    subst named
    obtain ⟨d₃, defined₃, category₃⟩ :=
      follows.sound.categorized x c₂ (List.mem_of_find?_eq_some looked)
    rw [found₂] at defined₃
    cases defined₃
    rw [category] at category₃
    cases category₃
    exact Compiling.Eventually.stay_bind rfl
      ((Compiling.Eventually.of_run rfl).bind (registering₂.bind (.of_run rfl)))

end Compiler

end SchemaTypes
