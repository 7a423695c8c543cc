import SchemaTypes.Proofs.Registration

/-! # The passes of a compilation

A compilation first gives every definition the category its shape fits, then registers the
names of each category in order, adopts and registers the inline objects found under the
properties of custom types, and binds the properties and catch-all of every custom type. Each
pass keeps the compilation sound and only grows it (`Keeps`); registering the categories
leaves every name of every group registered.

Binding a property resolves its schema under `Owner_attribute`, the attribute name spelled with
the special names the type has gathered so far. A name becomes special only when it converts to
itself, so the special names never change how a name is spelled (`Naming.KeepsSpelling`): the
name is the one `Placed.property` gives. A composite type is completed by setting its properties
and catch-all and building its initializer from them; `Composite.FineIn` says that a composite
type mentions only types the registry holds and agrees with itself, which every such step keeps.
-/

namespace SchemaTypes.Naming

/-- Every special name stays as it is when converted without special names. -/
def KeepsSpelling (special : SpecialNames) : Prop :=
  ∀ x ∈ special.names, (pascalToSnake x {}).1 = x

theorem mem_insertSorted {name x : String} :
    ∀ {names : List String}, x ∈ SpecialNames.insertSorted name names → x = name ∨ x ∈ names
  | [], member => by simpa [SpecialNames.insertSorted] using member
  | n :: rest, member => by
    unfold SpecialNames.insertSorted at member
    split at member
    · simpa using member
    · split at member
      · exact .inr member
      · rcases List.mem_cons.mp member with rfl | later
        · exact .inr (by simp)
        · rcases mem_insertSorted later with same | old
          · exact .inl same
          · exact .inr (List.mem_cons_of_mem _ old)

theorem keepsSpelling_insert {special : SpecialNames} {name : String}
    (keeps : KeepsSpelling special) (stays : (pascalToSnake name {}).1 = name) :
    KeepsSpelling (special.insert name) := by
  intro x member
  rcases mem_insertSorted member with rfl | old
  · exact stays
  · exact keeps x old

theorem pascalToSnake_eq (name : String) (special : SpecialNames) :
    pascalToSnake name special =
      (((splitWords name special true).1.map Unicode.lowerText).getD name,
        (splitWords name special true).2) := by
  unfold pascalToSnake
  split <;> simp_all

/-- A name that is not special splits as it would with no special names; at most it is added
to them, and only when it does not split. -/
theorem splitWords_unknown {special : SpecialNames} {name : String} (roundTrip : Bool)
    (unknown : special.contains name = false) :
    (splitWords name special roundTrip).1 = (splitWords name {} roundTrip).1 ∧
      ((splitWords name special roundTrip).2 = special ∨
        (splitWords name special roundTrip).2 = special.insert name ∧
          (splitWords name {} roundTrip).1 = none) := by
  have empty : ({} : SpecialNames).contains name = false := by
    simp [SpecialNames.contains]
  unfold splitWords
  simp only [unknown, empty, Bool.or_false]
  split_ifs <;> simp

theorem pascalToSnake_special {special : SpecialNames} (keeps : KeepsSpelling special)
    (name : String) :
    (pascalToSnake name special).1 = (pascalToSnake name {}).1 ∧
      KeepsSpelling (pascalToSnake name special).2 := by
  by_cases known : special.contains name = true
  · -- a special name is left as it is, and spelled the same way without special names
    have leaves : splitWords name special true = (none, special) := by
      simp [splitWords, known]
    have stays : (pascalToSnake name {}).1 = name :=
      keeps name (by simpa [SpecialNames.contains] using known)
    rw [pascalToSnake_eq name special, leaves]
    exact ⟨stays.symm, keeps⟩
  · obtain ⟨words, added⟩ := splitWords_unknown true (by simpa using known)
    refine ⟨by rw [pascalToSnake_eq, pascalToSnake_eq, words], ?_⟩
    rw [pascalToSnake_eq]
    rcases added with same | ⟨inserted, unsplit⟩
    · rw [same]; exact keeps
    · rw [inserted]
      exact keepsSpelling_insert keeps (by rw [pascalToSnake_eq, unsplit]; rfl)

end SchemaTypes.Naming

namespace SchemaTypes

open Compiler (Fine)

namespace Composite

variable {r : Registry} {c : Composite}

/-- A composite type mentions only types the registry holds and agrees with itself. -/
def FineIn (r : Registry) (c : Composite) : Prop := r.Covers c.mentions ∧ c.Agrees

/-- Every property and the catch-all of a composite type are fine. -/
def PartsFine (r : Registry) (c : Composite) : Prop :=
  (∀ p ∈ c.properties, Fine r p.constraint p.caster) ∧
  (∀ ca, c.catchAll = some ca → Fine r ca.constraint ca.caster)

theorem FineIn.parts (fine : c.FineIn r) : c.PartsFine r := by
  obtain ⟨covers, properties, catchAll, -, -⟩ := fine
  simp only [Composite.mentions, Registry.covers_append, Registry.covers_flatMap,
    Registry.covers_catchAll] at covers
  exact ⟨fun p member => ⟨covers.1.1 p member, properties p member⟩,
    fun ca present => ⟨covers.1.2 ca present, catchAll ca present⟩⟩

/-- A type whose properties and catch-all are fine is fine once its initializer is built
from them. -/
theorem PartsFine.resynthesized (parts : c.PartsFine r) : c.resynthesized.FineIn r := by
  obtain ⟨properties, catchAll⟩ := parts
  have covers : r.Covers (c.properties.flatMap Property.mentions) :=
    Registry.covers_flatMap.mpr fun p member => (properties p member).1
  have coversExtra : r.Covers ((c.catchAll.map CatchAll.mentions).getD []) :=
    Registry.covers_catchAll.mpr fun ca present => (catchAll ca present).1
  refine ⟨?_, fun p member => (properties p member).2, fun ca present => (catchAll ca present).2,
    fun p member => (properties p member).2, fun ca present => (catchAll ca present).2⟩
  simp only [Composite.mentions, Composite.resynthesized, Initializer.mentions,
    Constructor.mentions, Registry.covers_append]
  exact ⟨⟨covers, coversExtra⟩, covers, coversExtra⟩

theorem mem_setProperty {ps : List Property} {p q : Property}
    (member : q ∈ Composite.setProperty ps p) : q = p ∨ q ∈ ps := by
  unfold Composite.setProperty at member
  split at member
  · obtain ⟨old, present, rfl⟩ := List.mem_map.mp member
    split
    · exact .inl rfl
    · exact .inr present
  · rcases List.mem_append.mp member with old | new
    · exact .inr old
    · exact .inl (List.mem_singleton.mp new)

/-- Setting a fine property of a fine type, and building its initializer anew, keeps it fine. -/
theorem FineIn.setProperty {p : Property} (fine : c.FineIn r) (pFine : Fine r p.constraint p.caster) :
    ({ c with properties := Composite.setProperty c.properties p }.resynthesized).FineIn r := by
  obtain ⟨properties, catchAll⟩ := fine.parts
  refine PartsFine.resynthesized ⟨fun q member => ?_, catchAll⟩
  rcases mem_setProperty member with rfl | old
  · exact pFine
  · exact properties q old

/-- Setting fine properties one after the other keeps a fine type fine, with its name and
kind. -/
theorem FineIn.setProperties :
    ∀ (ps : List Property) (c : Composite), c.FineIn r → (∀ p ∈ ps, Fine r p.constraint p.caster) →
      let c' := ps.foldl (fun c p =>
        { c with properties := Composite.setProperty c.properties p }.resynthesized) c
      c'.FineIn r ∧ c'.name = c.name ∧ c'.kind = c.kind
  | [], c, fine, _ => ⟨fine, rfl, rfl⟩
  | p :: ps, c, fine, fines => by
    obtain ⟨after, named, kind⟩ := FineIn.setProperties ps _
      (fine.setProperty (fines p List.mem_cons_self)) (fun q member => fines q (List.mem_cons_of_mem _ member))
    exact ⟨after, named, kind⟩

/-- Giving a fine type a fine catch-all, and building its initializer anew, keeps it fine. -/
theorem FineIn.withCatchAll {catchAll : Option CatchAll} (fine : c.FineIn r)
    (extra : ∀ ca, catchAll = some ca → Fine r ca.constraint ca.caster) :
    ({ c with catchAll }.resynthesized).FineIn r :=
  PartsFine.resynthesized ⟨fine.parts.1, extra⟩

end Composite

end SchemaTypes

namespace SchemaTypes.Compiler

variable {D : Document}

theorem forall₂_mem_right {α β : Type} {R : α → β → Prop} {y : β} :
    ∀ {xs : List α} {ys : List β}, List.Forall₂ R xs ys → y ∈ ys → ∃ x ∈ xs, R x y
  | _, _, .nil, member => by simp at member
  | x :: _, _ :: _, .cons related rest, member => by
    rcases List.mem_cons.mp member with rfl | later
    · exact ⟨x, by simp, related⟩
    · obtain ⟨x', inRest, related'⟩ := forall₂_mem_right rest later
      exact ⟨x', List.mem_cons_of_mem _ inRest, related'⟩

theorem forall₂_mem_left {α β : Type} {R : α → β → Prop} {x : α} :
    ∀ {xs : List α} {ys : List β}, List.Forall₂ R xs ys → x ∈ xs → ∃ y ∈ ys, R x y
  | _, _, .nil, member => by simp at member
  | _ :: _, y :: _, .cons related rest, member => by
    rcases List.mem_cons.mp member with rfl | later
    · exact ⟨y, by simp, related⟩
    · obtain ⟨y', inRest, related'⟩ := forall₂_mem_left rest later
      exact ⟨y', List.mem_cons_of_mem _ inRest, related'⟩

/-- Tracking names that have no category yet, one after the other, appends them to the
categories and each to the group of its category, and changes nothing else. -/
theorem trackAll_fresh {f : String × Category → Compiling PUnit}
    (tracks : ∀ p, f p = track p.1 p.2) :
    ∀ (ys : List (String × Category)) (s t : Compiler), (forM ys f).run s = .ok (⟨⟩, t) →
      (ys.map (·.1)).Nodup → (∀ y ∈ ys, ∀ c, (y.1, c) ∉ s.categories) →
      (∀ c, (s.groups.find? (·.1 == c)).isSome = true) →
      t.definitions = s.definitions ∧ t.registry = s.registry ∧ t.resolving = s.resolving ∧
        t.categories = s.categories ++ ys ∧
        (∀ c, t.group c = s.group c ++ (ys.filter (·.2 == c)).map (·.1)) ∧
        (∀ c, (t.groups.find? (·.1 == c)).isSome = true)
  | [], s, t, run, _, _, keyed => by
    obtain ⟨-, rfl⟩ := Compiling.pure_ok run
    simpa using keyed
  | (name, c) :: rest, s, t, run, nodup, untracked, keyed => by
    rw [List.forM_cons] at run
    obtain ⟨⟨⟩, middle, first, later⟩ := Compiling.bind_ok run
    rw [tracks] at first
    obtain ⟨shape, groups, middleKeyed⟩ :=
      track_fresh first (untracked (name, c) List.mem_cons_self) keyed
    have categories : middle.categories = s.categories ++ [(name, c)] := by rw [shape]
    obtain ⟨fresh, restNodup⟩ := List.nodup_cons.mp nodup
    -- the names still to come are neither tracked before nor the one just tracked
    have restUntracked : ∀ y ∈ rest, ∀ c', (y.1, c') ∉ middle.categories := by
      intro y member c' tracked
      rw [categories] at tracked
      rcases List.mem_append.mp tracked with old | new
      · exact untracked y (List.mem_cons_of_mem _ member) c' old
      · have named : y.1 = name := (Prod.mk.inj (List.mem_singleton.mp new)).1
        exact fresh (List.mem_map.mpr ⟨y, member, named⟩)
    obtain ⟨definitions, registry, resolving, restCategories, restGroups, finalKeyed⟩ :=
      trackAll_fresh tracks rest middle t later restNodup restUntracked middleKeyed
    refine ⟨by rw [definitions, shape], by rw [registry, shape], by rw [resolving, shape],
      by rw [restCategories, categories]; simp, ?_, finalKeyed⟩
    intro c'
    rw [restGroups, groups c']
    by_cases same : c' = c
    · subst same; simp
    · simp [same, Ne.symm same]

/-- The state a compilation of `D` starts from. -/
def start (D : Document) : Compiler := { definitions := D.definitions, patterns := D.patterns }

theorem start_group (c : Category) : (start D).group c = [] := by
  cases c <;> rfl

theorem start_keyed (c : Category) : ((start D).groups.find? (·.1 == c)).isSome = true := by
  cases c <;> rfl

/-- Categorizing a document whose definitions have distinct names gives every definition
the category its shape fits and makes the compilation sound, with nothing registered yet. -/
theorem categorize_sound {t : Compiler} (nodup : (D.definitions.map (·.1)).Nodup)
    (run : categorize.run (start D) = .ok ((), t)) :
    Sound D t ∧ t.definitions = D.definitions ∧ t.registry = {} ∧ t.resolving = [] := by
  unfold categorize at run
  have run := get_bind_ok run
  obtain ⟨categorized, middle, mapping, tracking⟩ := Compiling.bind_ok run
  obtain ⟨same, related⟩ := Compiling.mapM_reads
    (fun (p : String × Definition) (q : String × Category) =>
      q.1 = p.1 ∧ p.2.shapeCategory = .ok q.2)
    (by
      intro x _ s q s' step
      obtain ⟨c, middle, classify, rest⟩ := Compiling.bind_ok step
      obtain ⟨rfl, fits⟩ := categoryOf_ok classify
      obtain ⟨rfl, rfl⟩ := Compiling.pure_ok rest
      exact ⟨rfl, rfl, fits⟩)
    _ _ _ mapping
  subst same
  have names : categorized.map (·.1) = D.definitions.map (·.1) := by
    have paired : List.Forall₂ (· = ·) (D.definitions.map (·.1)) (categorized.map (·.1)) := by
      rw [List.forall₂_map_left_iff, List.forall₂_map_right_iff]
      exact related.imp fun _ _ r => r.1.symm
    exact (List.forall₂_eq_eq_eq ▸ paired).symm
  obtain ⟨definitions, registry, resolving, categories, groups, keyed⟩ :=
    trackAll_fresh (fun _ => rfl) categorized (start D) t tracking (names ▸ nodup)
      (by simp [start]) start_keyed
  simp only [start] at definitions registry resolving categories
  simp only [List.nil_append] at categories
  have found : ∀ {n d}, (n, d) ∈ D.definitions → t.definition? n = some d := fun member =>
    definition?_of_mem (by rw [definitions]; exact nodup) (by rw [definitions]; exact member)
  refine ⟨⟨?_, by rw [definitions]; exact nodup, ?_, ?_, ?_, keyed, ?_, ?_, ?_, ?_, ?_, ?_⟩,
    definitions, registry, resolving⟩
  · rw [definitions]
    exact fun p member => .document member
  · rw [definitions, categories]
    intro p member
    obtain ⟨q, inCategorized, named, -⟩ := forall₂_mem_left related member
    exact ⟨q.2, named ▸ inCategorized⟩
  · rw [categories]
    intro n c member
    obtain ⟨⟨m, d⟩, inDocument, named, fits⟩ := forall₂_mem_right related member
    simp only at named
    subst named
    exact ⟨d, found inDocument, fits⟩
  · intro n c
    rw [groups c, start_group, categories, List.nil_append]
    simp [List.mem_filter]
  · -- each group lists names of distinct definitions
    intro c
    rw [groups c, start_group, List.nil_append]
    exact (names ▸ nodup).sublist (List.filter_sublist.map _)
  · rw [registry]; simp
  · rw [resolving]; simp
  · rw [resolving]; exact List.nodup_nil
  · rw [registry]; simp
  · rw [registry]; exact Registry.sound_empty

/-! ## Registering the categories -/

/-- Registering the names of a category leaves every one of them registered. -/
theorem registerCategory_keeps {fuel : Nat} {c : Category} {s t : Compiler}
    (run : (registerCategory fuel c).run s = .ok ((), t)) (sound : Sound D s) :
    Keeps D s t ∧ ∀ n ∈ s.group c, t.registry.contains n = true := by
  unfold registerCategory at run
  have run := get_bind_ok run
  obtain ⟨after, grows, registered⟩ := Compiling.forM_keeps (Sound D) Extends Extends.refl
    (fun first second => first.trans second) (fun n s => s.registry.contains n = true)
    (fun _ _ _ held grows => grows.1.contains held)
    (fun _ _ s s' step sound => by
      obtain ⟨keeps, registered⟩ := (specs fuel).registerNamed step sound
      exact ⟨keeps.1, keeps.2, registered⟩)
    s t run sound
  exact ⟨⟨after, grows⟩, registered⟩

/-- Registering every category in order leaves every name of every group registered. -/
theorem registerCategories_keeps {fuel : Nat} {s t : Compiler}
    (run : (Category.order.forM (registerCategory fuel)).run s = .ok ((), t))
    (sound : Sound D s) : Keeps D s t ∧ ∀ c, ∀ n ∈ s.group c, t.registry.contains n = true := by
  -- the groups only grow, so each category's pass registers the names it had at the start
  obtain ⟨⟨after, grows⟩, -, registered⟩ := Compiling.forM_keeps (Keeps D s) Extends
    Extends.refl (fun first second => first.trans second)
    (fun c t => ∀ n ∈ s.group c, t.registry.contains n = true)
    (fun _ _ _ held grows n member => grows.1.contains (held n member))
    (fun c _ middle middle' step keeps => by
      obtain ⟨stepKeeps, registered⟩ := registerCategory_keeps step keeps.1
      exact ⟨keeps.trans stepKeeps, stepKeeps.2,
        fun n member => registered n ((keeps.2.1.groups c).subset member)⟩)
    s t run (Keeps.refl sound)
  exact ⟨⟨after, grows⟩, fun c => registered c (by cases c <;> simp [Category.order])⟩

/-! ## Inline objects under properties -/

/-- A custom type's definition: it is placed and its shape is custom. -/
theorem Sound.custom {s : Compiler} {name : String} (sound : Sound D s)
    (member : name ∈ s.group .custom) :
    ∃ d, s.definition? name = some d ∧ Placed D name d ∧ d.shapeCategory = .ok .custom := by
  obtain ⟨d, defined, fits⟩ := sound.categorized name .custom ((sound.grouped name _).mp member)
  exact ⟨d, defined, sound.placed_of_definition? defined, fits⟩

/-- Discovering the inline objects under the properties of custom types keeps the
compilation sound. -/
theorem discoverNested_keeps {fuel : Nat} :
    ∀ (rounds ix : Nat) (s t : Compiler), (discoverNested fuel ix rounds).run s = .ok ((), t) →
      Sound D s → Keeps D s t
  | 0, _, s, t, run, sound => by
    rw [discoverNested] at run
    obtain ⟨-, rfl⟩ := Compiling.pure_ok run
    exact Keeps.refl sound
  | rounds + 1, ix, s, t, run, sound => by
    rw [discoverNested] at run
    have run := get_bind_ok run
    split at run
    · obtain ⟨-, rfl⟩ := Compiling.pure_ok run
      exact Keeps.refl sound
    · next owner found =>
      obtain ⟨d, defined, placed, custom⟩ := sound.custom (List.mem_of_getElem? found)
      obtain ⟨⟨⟩, middle, discovering, rest⟩ := Compiling.bind_ok run
      obtain ⟨middleSound, extended, -⟩ := Compiling.forM_keeps (Sound D) Extends Extends.refl
        (fun first second => first.trans second) (fun _ _ => True) (fun _ _ _ _ _ => trivial)
        (fun field member s s' step sound => by
          obtain ⟨property, schema⟩ := field
          dsimp only at step
          rw [defined] at member
          suffices keeps : Keeps D s s' from ⟨keeps.1, keeps.2, trivial⟩
          -- only an inline custom object without a definition of its name is adopted and
          -- registered; every other schema is skipped
          split at step
          · obtain ⟨-, rfl⟩ := Compiling.pure_ok step
            exact Keeps.refl sound
          · next nested read =>
            split at step
            · obtain ⟨-, rfl⟩ := Compiling.pure_ok step
              exact Keeps.refl sound
            · split at step
              · next fits =>
                have step := get_bind_ok step
                split at step
                · obtain ⟨-, rfl⟩ := Compiling.pure_ok step
                  exact Keeps.refl sound
                · next undefined =>
                  obtain ⟨⟨⟩, adopted, adopting, registering⟩ := Compiling.bind_ok step
                  obtain ⟨adoptedSound, grows, resolving, -, -⟩ := adopt_keeps adopting sound
                    (by simpa using undefined) (.property placed custom member read) fits
                  obtain ⟨keeps, -⟩ := (specs fuel).registerNamed registering adoptedSound
                  exact (show Keeps D s adopted from ⟨adoptedSound, grows, resolving⟩).trans keeps
              · obtain ⟨-, rfl⟩ := Compiling.pure_ok step
                exact Keeps.refl sound)
        s middle discovering sound
      exact (show Keeps D s middle from ⟨middleSound, extended⟩).trans
        (discoverNested_keeps rounds (ix + 1) middle t rest middleSound)

/-! ## Binding the properties of custom types -/

theorem Fine.orNull {r : Registry} {h : TypeHandle} {k : Caster} (fine : Fine r h k) :
    Fine r h.orNull k :=
  ⟨by rw [TypeHandle.mentions_orNull]; exact fine.1, fine.2.orNull⟩

theorem mem_of_splitByRequired {d : Definition} {x : String × Json}
    (member : x ∈ d.splitByRequired.1 ∨ x ∈ d.splitByRequired.2) : x ∈ d.properties?.getD [] := by
  unfold Definition.splitByRequired at member
  cases listed : d.properties? with
  | none => simp [listed] at member
  | some ps =>
    simp only [listed, List.partition_eq_filter_filter, List.mem_filter] at member
    simp only [Option.getD_some]
    rcases member with ⟨present, -⟩ | ⟨present, -⟩ <;> exact present

/-- Binding a declared property of a custom type resolves its schema under the property's
name and gives a fine property; the special names keep their spelling. -/
theorem bindProperty_keeps {fuel : Nat} {name external : String}
    {special special' : SpecialNames} {schema : Json} {required : Bool} {d : Definition}
    {s t : Compiler} {p : Property}
    (run : (bindProperty fuel name special external schema required).run s =
      .ok ((p, special'), t))
    (sound : Sound D s) (spelling : Naming.KeepsSpelling special) (placed : Placed D name d)
    (custom : d.shapeCategory = .ok .custom) (member : (external, schema) ∈ d.properties?.getD []) :
    Keeps D s t ∧ Fine t.registry p.constraint p.caster ∧ Naming.KeepsSpelling special' := by
  unfold bindProperty at run
  obtain ⟨spelled, keepsSpelling⟩ := Naming.pascalToSnake_special spelling external
  generalize Naming.pascalToSnake external special = converted at run spelled keepsSpelling
  obtain ⟨internal, converted⟩ := converted
  dsimp only at run spelled keepsSpelling
  obtain ⟨nested, middle, reading, resolving⟩ := Compiling.bind_ok run
  obtain ⟨rfl, read⟩ := definitionOf_ok reading
  obtain ⟨⟨h, k⟩, last, resolved, building⟩ := Compiling.bind_ok resolving
  obtain ⟨keeps, fine⟩ := (specs fuel).resolve resolved sound
    (by rw [spelled]; exact .property placed custom member read)
  dsimp only at building
  split at building
  · obtain ⟨same, rfl⟩ := Compiling.pure_ok building
    obtain ⟨rfl, rfl⟩ := Prod.mk.inj same
    exact ⟨keeps, fine, keepsSpelling⟩
  · obtain ⟨same, rfl⟩ := Compiling.pure_ok building
    obtain ⟨rfl, rfl⟩ := Prod.mk.inj same
    exact ⟨keeps, fine.orNull, keepsSpelling⟩

/-- The catch-all of a custom type is fine: none, one taking anything, or the type of
`additionalProperties` resolved under its own name. -/
theorem bindCatchAll_keeps {fuel : Nat} {name : String} {d : Definition} {s t : Compiler}
    {catchAll : Option CatchAll} (run : (bindCatchAll fuel name d).run s = .ok (catchAll, t))
    (sound : Sound D s) (placed : Placed D name d) (custom : d.shapeCategory = .ok .custom) :
    Keeps D s t ∧ ∀ ca, catchAll = some ca → Fine t.registry ca.constraint ca.caster := by
  unfold bindCatchAll at run
  split at run
  · obtain ⟨rfl, rfl⟩ := Compiling.pure_ok run
    exact ⟨Keeps.refl sound, by simp⟩
  · obtain ⟨rfl, rfl⟩ := Compiling.pure_ok run
    exact ⟨Keeps.refl sound, by simp⟩
  · obtain ⟨rfl, rfl⟩ := Compiling.pure_ok run
    refine ⟨Keeps.refl sound, ?_⟩
    rintro ca ⟨⟩
    exact fine_any _
  · next schema notFalse notTrue given =>
    obtain ⟨nested, middle, reading, resolving⟩ := Compiling.bind_ok run
    obtain ⟨rfl, read⟩ := definitionOf_ok reading
    obtain ⟨⟨h, k⟩, last, resolved, building⟩ := Compiling.bind_ok resolving
    obtain ⟨keeps, fine⟩ := (specs fuel).resolve resolved sound
      (.extra placed custom given (fun same => notTrue same) (fun same => notFalse same) read)
    obtain ⟨rfl, rfl⟩ := Compiling.pure_ok building
    refine ⟨keeps, ?_⟩
    rintro ca ⟨⟩
    exact fine

/-- Binding the properties and catch-all of a custom type keeps the compilation sound. -/
theorem bindComposite_keeps {fuel : Nat} {name : String} {s t : Compiler}
    (run : (bindComposite fuel name).run s = .ok ((), t)) (sound : Sound D s)
    (member : name ∈ s.group .custom) : Keeps D s t := by
  obtain ⟨d, defined, placed, custom⟩ := sound.custom member
  unfold bindComposite at run
  have run := get_bind_ok run
  rw [defined] at run
  dsimp only at run
  generalize splitting : d.splitByRequired = parts at run
  obtain ⟨required, optional⟩ := parts
  dsimp only at run
  obtain ⟨⟨properties, special⟩, folded, folding, run⟩ := Compiling.bind_ok run
  -- the properties bound so far are fine and the special names keep their spelling
  obtain ⟨foldedSound, foldedExtends, propertiesFine, -⟩ := Compiling.foldlM_keeps (Sound D)
    Extends Extends.refl (fun first second => first.trans second)
    (fun acc s => (∀ p ∈ acc.1, Fine s.registry p.constraint p.caster) ∧
      Naming.KeepsSpelling acc.2)
    (by
      intro x declared acc s1 acc' s2 holds step sound1
      obtain ⟨⟨external, schema⟩, req⟩ := x
      obtain ⟨ps, sp⟩ := acc
      dsimp only at step
      obtain ⟨⟨p, sp'⟩, bound, binding, step⟩ := Compiling.bind_ok step
      dsimp only at step
      obtain ⟨rfl, rfl⟩ := Compiling.pure_ok step
      have listed : (external, schema) ∈ d.properties?.getD [] := by
        apply mem_of_splitByRequired
        rw [splitting]
        simp only [List.mem_append, List.mem_map, Prod.mk.injEq] at declared
        rcases declared with ⟨y, present, rfl, -⟩ | ⟨y, present, rfl, -⟩
        · exact .inl present
        · exact .inr present
      obtain ⟨keeps, fine, spelling⟩ := bindProperty_keeps binding sound1 holds.2 placed custom listed
      refine ⟨keeps.1, keeps.2, fun q present => ?_, spelling⟩
      rcases List.mem_append.mp present with old | new
      · exact keeps.2.1.fine (holds.1 q old)
      · rw [List.mem_singleton.mp new]; exact fine)
    ([], {}) s (properties, special) folded ⟨by simp, fun _ member => by simp at member⟩
    folding sound
  obtain ⟨catchAll, caught, catching, finishing⟩ := Compiling.bind_ok run
  obtain ⟨caughtKeeps, extra⟩ := bindCatchAll_keeps catching foldedSound placed custom
  have finishing := get_bind_ok finishing
  obtain ⟨c, looked, lookup, replacing⟩ := Compiling.bind_ok finishing
  obtain ⟨found, same⟩ := Compiling.liftExcept_ok lookup
  subst looked
  obtain ⟨present, named⟩ := Registry.composite_ok found
  have grown : Grows folded caught := caughtKeeps.2.1
  have fine : c.FineIn caught.registry :=
    ⟨caughtKeeps.1.registry.compositesCovered c present,
      caughtKeeps.1.registry.compositesAgree c present⟩
  -- the special names do not change what a type mentions, so only the properties and the
  -- catch-all have to be fine
  obtain ⟨merged, mergedName, mergedKind⟩ := Composite.FineIn.setProperties properties
    { c with special := c.special.union special } fine
    (fun p member => grown.fine (propertiesFine p member))
  split at replacing
  · obtain ⟨after, extended⟩ := replaceComposite_keeps replacing caughtKeeps.1 present
      mergedName mergedKind (merged.withCatchAll extra).1 (merged.withCatchAll extra).2
    exact (show Keeps D s folded from ⟨foldedSound, foldedExtends⟩).trans
      (caughtKeeps.trans ⟨after, extended⟩)
  · obtain ⟨after, extended⟩ := replaceComposite_keeps replacing caughtKeeps.1 present
      mergedName mergedKind merged.1 merged.2
    exact (show Keeps D s folded from ⟨foldedSound, foldedExtends⟩).trans
      (caughtKeeps.trans ⟨after, extended⟩)

/-- Binding the custom types in turn, the group growing as inline types are found, keeps the
compilation sound. -/
theorem bindFrom_keeps {fuel : Nat} :
    ∀ (rounds ix : Nat) (s t : Compiler), (bindFrom fuel ix rounds).run s = .ok ((), t) →
      Sound D s → Keeps D s t
  | 0, _, s, t, run, sound => by
    rw [bindFrom] at run
    obtain ⟨-, rfl⟩ := Compiling.pure_ok run
    exact Keeps.refl sound
  | rounds + 1, ix, s, t, run, sound => by
    rw [bindFrom] at run
    have run := get_bind_ok run
    split at run
    · obtain ⟨-, rfl⟩ := Compiling.pure_ok run
      exact Keeps.refl sound
    · next name found =>
      obtain ⟨⟨⟩, middle, binding, rest⟩ := Compiling.bind_ok run
      have keeps := bindComposite_keeps binding sound (List.mem_of_getElem? found)
      exact keeps.trans (bindFrom_keeps rounds (ix + 1) middle t rest keeps.1)

end SchemaTypes.Compiler
