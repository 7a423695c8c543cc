import Mathlib.Data.List.Nodup
import SchemaTypes.Proofs.Agreement

/-! # Sound registries

The compiler builds a registry by appending entries, composite types and enumerations under
fresh names, and by replacing a composite type with a completed one of the same name and
kind. `Registry.Sound` collects what every registry built that way satisfies:

* names are registered once, and every composite type and enumeration has an entry;
* every entry's handle and caster, and every composite type's properties, catch-all and
  initializer, mention only types the registry holds, and agree with each other;
* an entry with a composite handle is the entry of that composite type;
* every parent of a composite type is registered, and a parent that is a composite type
  comes before its child, so that following parents never leads back;
* the members of an enumeration belong to it and have distinct names.

The lookup lemmas come first: what `entry`, `composite`, `enumType` and `contains` find.
Then each way of changing a registry is shown to keep it sound.
-/

namespace SchemaTypes

/-- What a lookup by name finds is in the list and has that name. -/
theorem find?_named {α : Type} {items : List α} {key : α → String} {name : String} {x : α}
    (found : items.find? (fun y => key y == name) = some x) : x ∈ items ∧ key x = name :=
  ⟨List.mem_of_find?_eq_some found, by simpa using List.find?_some found⟩

/-- A lookup by a name that some item has finds an item. -/
theorem find?_named_isSome {α : Type} {items : List α} {key : α → String} {name : String}
    (present : name ∈ items.map key) : ∃ x, items.find? (fun y => key y == name) = some x := by
  obtain ⟨y, member, rfl⟩ := List.mem_map.mp present
  exact Option.isSome_iff_exists.mp (List.find?_isSome.mpr ⟨y, member, by simp⟩)

namespace Registry

variable {r : Registry} {name : String}

/-! ## Lookups -/

theorem contains_iff : r.contains name = true ↔ name ∈ r.entries.map (·.name) := by
  simp [contains]

theorem entry_ok {e : Entry} (found : r.entry name = .ok e) : e ∈ r.entries ∧ e.name = name := by
  unfold entry at found
  cases lookup : r.entries.find? (·.name == name) with
  | none => rw [lookup] at found; cases found
  | some x =>
    rw [lookup] at found
    cases found
    exact find?_named lookup

theorem composite_ok {c : Composite} (found : r.composite name = .ok c) :
    c ∈ r.composites ∧ c.name = name := by
  unfold composite at found
  cases lookup : r.composites.find? (·.name == name) with
  | none => rw [lookup] at found; cases found
  | some x =>
    rw [lookup] at found
    cases found
    exact find?_named lookup

theorem enumType_ok {et : EnumType} (found : r.enumType name = .ok et) :
    et ∈ r.enums ∧ et.name = name := by
  unfold enumType at found
  cases lookup : r.enums.find? (·.name == name) with
  | none => rw [lookup] at found; cases found
  | some x =>
    rw [lookup] at found
    cases found
    exact find?_named lookup

/-- A registered name has an entry. -/
theorem entry_of_contains (registered : r.contains name = true) : ∃ e, r.entry name = .ok e := by
  obtain ⟨e, found⟩ := find?_named_isSome (contains_iff.mp registered)
  exact ⟨e, by simp [entry, found]⟩

/-- A composite type's name finds a composite type. -/
theorem composite_of_mem (present : name ∈ r.compositeNames) :
    ∃ c, r.composite name = .ok c := by
  obtain ⟨c, found⟩ := find?_named_isSome present
  exact ⟨c, by simp [composite, found]⟩

/-- An enumeration's name finds an enumeration. -/
theorem enumType_of_mem (present : name ∈ r.enumNames) : ∃ et, r.enumType name = .ok et := by
  obtain ⟨et, found⟩ := find?_named_isSome present
  exact ⟨et, by simp [enumType, found]⟩

/-! ## Updates -/

/-- Registering a fresh name appends its entry. -/
theorem register_of_fresh (e : Entry) (fresh : r.contains e.name = false) :
    r.register e = { r with entries := r.entries ++ [e] } := by
  have absent : (r.entries.any (·.name == e.name)) = false := fresh
  simp only [register, absent, Bool.false_eq_true, if_false]

/-- Adding a composite type of a new name appends it. -/
theorem insertComposite_of_fresh {c : Composite} (fresh : c.name ∉ r.compositeNames) :
    r.insertComposite c = { r with composites := r.composites ++ [c] } := by
  have absent : (r.composites.any (·.name == c.name)) = false := by
    simpa [compositeNames] using fresh
  simp only [insertComposite, absent, Bool.false_eq_true, if_false]

/-- Adding a composite type of a present name replaces it in place. -/
theorem insertComposite_of_present {c : Composite} (present : c.name ∈ r.compositeNames) :
    r.insertComposite c =
      { r with composites := r.composites.map fun x => if x.name == c.name then c else x } := by
  have found : (r.composites.any (·.name == c.name)) = true := by
    simpa [compositeNames] using present
  simp only [insertComposite, found, if_true]

/-- Adding an enumeration of a new name appends it. -/
theorem insertEnum_of_fresh {et : EnumType} (fresh : et.name ∉ r.enumNames) :
    r.insertEnum et = { r with enums := r.enums ++ [et] } := by
  have absent : (r.enums.any (·.name == et.name)) = false := by
    simpa [enumNames] using fresh
  simp only [insertEnum, absent, Bool.false_eq_true, if_false]

/-- Replacing composite types by one of the same name keeps the list of names. -/
theorem names_replaced {c : Composite} (composites : List Composite) :
    (composites.map fun x => if x.name == c.name then c else x).map (·.name) =
      composites.map (·.name) := by
  rw [List.map_map]
  apply List.map_congr_left
  intro x _
  by_cases same : x.name = c.name
  · simp [same]
  · simp [same]

/-- After a replacement, a composite type is the new one or one of the old ones. -/
theorem mem_replaced {c x : Composite} {composites : List Composite}
    (member : x ∈ composites.map fun y => if y.name == c.name then c else y) :
    x = c ∨ x ∈ composites := by
  obtain ⟨y, old, rfl⟩ := List.mem_map.mp member
  by_cases same : y.name = c.name
  · simp [same]
  · simp [same, old]

theorem contains_appended {e : Entry} (registered : r.contains name = true) :
    ({ r with entries := r.entries ++ [e] } : Registry).contains name = true := by
  simp only [contains, List.any_append, Bool.or_eq_true]
  exact .inl registered

/-- A name stays registered in a registry whose entries extend the old ones. -/
theorem contains_of_prefix {t : Registry} (grown : r.entries <+: t.entries)
    (registered : r.contains name = true) : t.contains name = true := by
  obtain ⟨more, extended⟩ := grown
  unfold contains at registered ⊢
  rw [← extended, List.any_append, registered, Bool.true_or]

theorem insertComposite_register_of_fresh (c : Composite) (e : Entry)
    (absent : c.name ∉ r.compositeNames) (fresh : r.contains e.name = false) :
    (r.insertComposite c).register e =
      { r with composites := r.composites ++ [c], entries := r.entries ++ [e] } := by
  rw [insertComposite_of_fresh absent]
  exact register_of_fresh e fresh

theorem insertEnum_register_of_fresh (et : EnumType) (e : Entry)
    (absent : et.name ∉ r.enumNames) (fresh : r.contains e.name = false) :
    (r.insertEnum et).register e =
      { r with enums := r.enums ++ [et], entries := r.entries ++ [e] } := by
  rw [insertEnum_of_fresh absent]
  exact register_of_fresh e fresh

/-- Appending a new name keeps a list of names free of repeats. -/
theorem nodup_snoc {names : List String} {n : String} (nodup : names.Nodup) (fresh : n ∉ names) :
    (names ++ [n]).Nodup := by
  refine List.nodup_append.mpr ⟨nodup, by simp, ?_⟩
  intro a old b new
  rw [List.mem_singleton] at new
  rintro rfl
  exact fresh (new ▸ old)

/-! ## Sound registries -/

/-- What every registry the compiler builds satisfies. -/
structure Sound (r : Registry) : Prop where
  entriesNodup : (r.entries.map (·.name)).Nodup
  entriesCovered : ∀ e ∈ r.entries, r.Covers (e.handle.mentions ++ e.caster.mentions)
  entriesAgree : ∀ e ∈ r.entries, Agree e.handle e.caster
  compositeHandles : ∀ e ∈ r.entries, ∀ m, e.handle = .composite m → m = e.name
  compositesNodup : r.compositeNames.Nodup
  compositesRegistered : ∀ n ∈ r.compositeNames, r.contains n = true
  compositesCovered : ∀ c ∈ r.composites, r.Covers c.mentions
  compositesAgree : ∀ c ∈ r.composites, c.Agrees
  parentsRegistered : ∀ c ∈ r.composites, ∀ p ∈ c.parents, r.contains p = true
  parentsEarlier : ∀ c ∈ r.composites, ∀ p ∈ c.parents, p ∈ r.compositeNames →
    r.compositeNames.idxOf p < r.compositeNames.idxOf c.name
  passthroughParents : ∀ c ∈ r.composites, ∀ p, c.kind = .passthrough p → p ∈ r.compositeNames
  enumsRegistered : ∀ n ∈ r.enumNames, r.contains n = true
  enumMembers : ∀ et ∈ r.enums, ∀ m ∈ et.members, m.enumName = et.name
  enumsDistinct : ∀ et ∈ r.enums, (et.members.map (·.name)).Nodup

theorem sound_empty : ({} : Registry).Sound where
  entriesNodup := List.nodup_nil
  entriesCovered := by simp
  entriesAgree := by simp
  compositeHandles := by simp
  compositesNodup := List.nodup_nil
  compositesRegistered := by simp [compositeNames]
  compositesCovered := by simp
  compositesAgree := by simp
  parentsRegistered := by simp
  parentsEarlier := by simp
  passthroughParents := by simp
  enumsRegistered := by simp [enumNames]
  enumMembers := by simp
  enumsDistinct := by simp

/-- A name that is not registered is not a composite type's. -/
theorem Sound.not_composite (sound : r.Sound) (fresh : r.contains name = false) :
    name ∉ r.compositeNames := by
  intro present
  rw [sound.compositesRegistered name present] at fresh
  cases fresh

/-- Registering an entry under a fresh name keeps a registry sound when the entry mentions
only types the registry holds, its handle and caster agree, and a composite handle names
the entry itself. -/
theorem Sound.register {e : Entry} (sound : r.Sound) (fresh : r.contains e.name = false)
    (covered : r.Covers (e.handle.mentions ++ e.caster.mentions)) (agree : Agree e.handle e.caster)
    (named : ∀ m, e.handle = .composite m → m = e.name) : (r.register e).Sound := by
  rw [register_of_fresh e fresh]
  have freshName : e.name ∉ r.entries.map (·.name) := fun present => by
    rw [contains_iff.mpr present] at fresh
    cases fresh
  refine ⟨?_, ?_, ?_, ?_, sound.compositesNodup, ?_, sound.compositesCovered,
    sound.compositesAgree, ?_, sound.parentsEarlier, sound.passthroughParents, ?_,
    sound.enumMembers, sound.enumsDistinct⟩
  · simpa only [List.map_append, List.map_cons, List.map_nil] using
      nodup_snoc sound.entriesNodup freshName
  · intro x member
    rcases List.mem_append.mp member with old | new
    · exact sound.entriesCovered x old
    · rw [List.mem_singleton.mp new]; exact covered
  · intro x member
    rcases List.mem_append.mp member with old | new
    · exact sound.entriesAgree x old
    · rw [List.mem_singleton.mp new]; exact agree
  · intro x member
    rcases List.mem_append.mp member with old | new
    · exact sound.compositeHandles x old
    · rw [List.mem_singleton.mp new]; exact named
  · exact fun n present => contains_appended (sound.compositesRegistered n present)
  · exact fun c member p parent => contains_appended (sound.parentsRegistered c member p parent)
  · exact fun n present => contains_appended (sound.enumsRegistered n present)

/-- A composite type with no properties yet, under a fresh name and with its entry, keeps a
registry sound when its parents are registered and a passthrough's parent is a composite
type. -/
theorem Sound.addComposite {c : Composite} {d : Definition} {category : Category}
    (sound : r.Sound) (fresh : r.contains c.name = false) (noProperties : c.properties = [])
    (noCatchAll : c.catchAll = none) (initializer : c.initializer = .direct ⟨c.name, [], none⟩)
    (parents : ∀ p ∈ c.parents, r.contains p = true)
    (passthrough : ∀ p, c.kind = .passthrough p → p ∈ r.compositeNames) :
    ((r.insertComposite c).register ⟨c.name, .composite c.name, .composite c.name, d, category⟩).Sound := by
  have absent := sound.not_composite fresh
  have shape := insertComposite_register_of_fresh c
    ⟨c.name, .composite c.name, .composite c.name, d, category⟩ absent fresh
  generalize (r.insertComposite c).register ⟨c.name, .composite c.name, .composite c.name, d, category⟩
    = t at shape ⊢
  have entries : t.entries = r.entries ++ [⟨c.name, .composite c.name, .composite c.name, d, category⟩] := by
    rw [shape]
  have composites : t.composites = r.composites ++ [c] := by rw [shape]
  have enums : t.enums = r.enums := by rw [shape]
  have names : t.compositeNames = r.compositeNames ++ [c.name] := by
    simp [compositeNames, composites]
  have registered : ∀ n, r.contains n = true → t.contains n = true :=
    fun n old => contains_of_prefix (by rw [entries]; exact List.prefix_append _ _) old
  have mono : ∀ {ms}, r.Covers ms → t.Covers ms := fun covers =>
    Covers.mono (by rw [names]; exact List.subset_append_left _ _)
      (by unfold enumNames; rw [enums]; exact fun _ h => h) covers
  -- a registered parent is not the new name, so it is one of the old composite types
  have older : ∀ p, r.contains p = true → p ∈ t.compositeNames → p ∈ r.compositeNames := by
    intro p old present
    rw [names] at present
    rcases List.mem_append.mp present with old' | new
    · exact old'
    · rw [List.mem_singleton.mp new, fresh] at old; cases old
  have index : ∀ p ∈ r.compositeNames, t.compositeNames.idxOf p = r.compositeNames.idxOf p := by
    intro p present
    rw [names]
    exact List.idxOf_append_of_mem present
  have freshNames : c.name ∉ r.entries.map (·.name) := fun present => by
    rw [contains_iff.mpr present] at fresh; cases fresh
  refine ⟨?_, ?_, ?_, ?_, ?_, ?_, ?_, ?_, ?_, ?_, ?_, ?_, ?_, ?_⟩
  · rw [entries]
    simpa only [List.map_append, List.map_cons, List.map_nil] using
      nodup_snoc sound.entriesNodup freshNames
  · rw [entries]
    intro x member
    rcases List.mem_append.mp member with old | new
    · exact mono (sound.entriesCovered x old)
    · rw [List.mem_singleton.mp new]
      simp [Covers, Provides, TypeHandle.mentions, Caster.mentions, names]
  · rw [entries]
    intro x member
    rcases List.mem_append.mp member with old | new
    · exact sound.entriesAgree x old
    · rw [List.mem_singleton.mp new]; exact .composite c.name
  · rw [entries]
    intro x member
    rcases List.mem_append.mp member with old | new
    · exact sound.compositeHandles x old
    · rw [List.mem_singleton.mp new]; simp
  · rw [names]; exact nodup_snoc sound.compositesNodup absent
  · intro n present
    rw [names] at present
    rcases List.mem_append.mp present with old | new
    · exact registered n (sound.compositesRegistered n old)
    · rw [List.mem_singleton.mp new]; simp [contains, entries]
  · rw [composites]
    intro x member
    rcases List.mem_append.mp member with old | new
    · exact mono (sound.compositesCovered x old)
    · rw [List.mem_singleton.mp new]
      simp [Covers, Composite.mentions, noProperties, noCatchAll, initializer,
        Initializer.mentions, Constructor.mentions]
  · rw [composites]
    intro x member
    rcases List.mem_append.mp member with old | new
    · exact sound.compositesAgree x old
    · rw [List.mem_singleton.mp new]
      simp [Composite.Agrees, noProperties, noCatchAll, initializer, Initializer.signature]
  · rw [composites]
    intro x member p parent
    rcases List.mem_append.mp member with old | new
    · exact registered p (sound.parentsRegistered x old p parent)
    · rw [List.mem_singleton.mp new] at parent
      exact registered p (parents p parent)
  · rw [composites]
    intro x member p parent present
    rcases List.mem_append.mp member with old | new
    · have inOld := older p (sound.parentsRegistered x old p parent) present
      rw [index p inOld, index x.name (List.mem_map_of_mem old)]
      exact sound.parentsEarlier x old p parent inOld
    · rw [List.mem_singleton.mp new] at parent ⊢
      have inOld := older p (parents p parent) present
      rw [index p inOld, names, List.idxOf_append_of_notMem absent]
      simpa using List.idxOf_lt_length_of_mem inOld
  · rw [composites, names]
    intro x member p kindIs
    rcases List.mem_append.mp member with old | new
    · exact List.mem_append_left _ (sound.passthroughParents x old p kindIs)
    · rw [List.mem_singleton.mp new] at kindIs
      exact List.mem_append_left _ (passthrough p kindIs)
  · intro n present
    have present' : n ∈ r.enumNames := by simpa [enumNames, enums] using present
    exact registered n (sound.enumsRegistered n present')
  · rw [enums]; exact sound.enumMembers
  · rw [enums]; exact sound.enumsDistinct

/-- Replacing a composite type by one of the same name and kind keeps a registry sound when
the new one mentions only types the registry holds and agrees with itself. -/
theorem Sound.replaceComposite {c c' : Composite} (sound : r.Sound) (present : c ∈ r.composites)
    (sameName : c'.name = c.name) (sameKind : c'.kind = c.kind) (covered : r.Covers c'.mentions)
    (agrees : c'.Agrees) : (r.insertComposite c').Sound := by
  have presentName : c'.name ∈ r.compositeNames := sameName ▸ List.mem_map_of_mem present
  have sameNames : (r.insertComposite c').compositeNames = r.compositeNames := by
    rw [insertComposite_of_present presentName]
    exact names_replaced r.composites
  have sameEnums : (r.insertComposite c').enums = r.enums := by
    rw [insertComposite_of_present presentName]
  have mono : ∀ {ms}, r.Covers ms → (r.insertComposite c').Covers ms := fun covers =>
    Covers.mono (by rw [sameNames]; exact fun _ h => h)
      (by unfold enumNames; rw [sameEnums]; exact fun _ h => h) covers
  have sameParents : c'.parents = c.parents := by simp only [Composite.parents, sameKind]
  have composites : ∀ x ∈ (r.insertComposite c').composites, x = c' ∨ x ∈ r.composites := by
    rw [insertComposite_of_present presentName]
    exact fun x member => mem_replaced member
  have sameEntries : (r.insertComposite c').entries = r.entries := by
    rw [insertComposite_of_present presentName]
  have registered : ∀ n, r.contains n = true → (r.insertComposite c').contains n = true := by
    intro n h; simpa [contains, sameEntries] using h
  refine ⟨?_, ?_, ?_, ?_, ?_, ?_, ?_, ?_, ?_, ?_, ?_, ?_, ?_, ?_⟩
  · rw [sameEntries]; exact sound.entriesNodup
  · rw [sameEntries]; exact fun e member => mono (sound.entriesCovered e member)
  · rw [sameEntries]; exact sound.entriesAgree
  · rw [sameEntries]; exact sound.compositeHandles
  · rw [sameNames]; exact sound.compositesNodup
  · rw [sameNames]; exact fun n present => registered n (sound.compositesRegistered n present)
  · intro x member
    rcases composites x member with rfl | old
    · exact mono covered
    · exact mono (sound.compositesCovered x old)
  · intro x member
    rcases composites x member with rfl | old
    · exact agrees
    · exact sound.compositesAgree x old
  · intro x member p parent
    rcases composites x member with rfl | old
    · exact registered p (sound.parentsRegistered c present p (sameParents ▸ parent))
    · exact registered p (sound.parentsRegistered x old p parent)
  · intro x member p parent inNames
    rw [sameNames] at inNames ⊢
    rcases composites x member with rfl | old
    · rw [sameName]
      exact sound.parentsEarlier c present p (sameParents ▸ parent) inNames
    · exact sound.parentsEarlier x old p parent inNames
  · intro x member p kindIs
    rw [sameNames]
    rcases composites x member with rfl | old
    · exact sound.passthroughParents c present p (sameKind ▸ kindIs)
    · exact sound.passthroughParents x old p kindIs
  · intro n present
    have present' : n ∈ r.enumNames := by simpa [enumNames, sameEnums] using present
    exact registered n (sound.enumsRegistered n present')
  · rw [sameEnums]; exact sound.enumMembers
  · rw [sameEnums]; exact sound.enumsDistinct

/-- An enumeration whose members belong to it and have distinct names, under a fresh name and
with its entry, keeps a registry sound. -/
theorem Sound.addEnum {et : EnumType} {d : Definition} {category : Category} (sound : r.Sound)
    (fresh : r.contains et.name = false) (members : ∀ m ∈ et.members, m.enumName = et.name)
    (distinct : (et.members.map (·.name)).Nodup) :
    ((r.insertEnum et).register ⟨et.name, .enum et.name, .enum et.name, d, category⟩).Sound := by
  have absent : et.name ∉ r.enumNames := by
    intro present
    rw [sound.enumsRegistered _ present] at fresh
    cases fresh
  have shape := insertEnum_register_of_fresh et
    ⟨et.name, .enum et.name, .enum et.name, d, category⟩ absent fresh
  generalize (r.insertEnum et).register ⟨et.name, .enum et.name, .enum et.name, d, category⟩
    = t at shape ⊢
  have entries : t.entries = r.entries ++ [⟨et.name, .enum et.name, .enum et.name, d, category⟩] := by
    rw [shape]
  have composites : t.composites = r.composites := by rw [shape]
  have enums : t.enums = r.enums ++ [et] := by rw [shape]
  have names : t.compositeNames = r.compositeNames := by simp [compositeNames, composites]
  have enumNamesGrown : t.enumNames = r.enumNames ++ [et.name] := by simp [enumNames, enums]
  have registered : ∀ n, r.contains n = true → t.contains n = true :=
    fun n old => contains_of_prefix (by rw [entries]; exact List.prefix_append _ _) old
  have mono : ∀ {ms}, r.Covers ms → t.Covers ms := fun covers =>
    Covers.mono (by rw [names]; exact fun _ h => h)
      (by rw [enumNamesGrown]; exact List.subset_append_left _ _) covers
  have freshNames : et.name ∉ r.entries.map (·.name) := fun present => by
    rw [contains_iff.mpr present] at fresh; cases fresh
  refine ⟨?_, ?_, ?_, ?_, ?_, ?_, ?_, ?_, ?_, ?_, ?_, ?_, ?_, ?_⟩
  · rw [entries]
    simpa only [List.map_append, List.map_cons, List.map_nil] using
      nodup_snoc sound.entriesNodup freshNames
  · rw [entries]
    intro x member
    rcases List.mem_append.mp member with old | new
    · exact mono (sound.entriesCovered x old)
    · rw [List.mem_singleton.mp new]
      simp [Covers, Provides, TypeHandle.mentions, Caster.mentions, enumNamesGrown]
  · rw [entries]
    intro x member
    rcases List.mem_append.mp member with old | new
    · exact sound.entriesAgree x old
    · rw [List.mem_singleton.mp new]; exact .enum et.name
  · rw [entries]
    intro x member
    rcases List.mem_append.mp member with old | new
    · exact sound.compositeHandles x old
    · rw [List.mem_singleton.mp new]; simp
  · rw [names]; exact sound.compositesNodup
  · rw [names]; exact fun n present => registered n (sound.compositesRegistered n present)
  · rw [composites]; exact fun x member => mono (sound.compositesCovered x member)
  · rw [composites]; exact sound.compositesAgree
  · rw [composites]
    exact fun x member p parent => registered p (sound.parentsRegistered x member p parent)
  · rw [composites, names]; exact sound.parentsEarlier
  · rw [composites, names]; exact sound.passthroughParents
  · rw [enumNamesGrown]
    intro n present
    rcases List.mem_append.mp present with old | new
    · exact registered n (sound.enumsRegistered n old)
    · rw [List.mem_singleton.mp new]; simp [contains, entries]
  · rw [enums]
    intro x member
    rcases List.mem_append.mp member with old | new
    · exact sound.enumMembers x old
    · rw [List.mem_singleton.mp new]; exact members
  · rw [enums]
    intro x member
    rcases List.mem_append.mp member with old | new
    · exact sound.enumsDistinct x old
    · rw [List.mem_singleton.mp new]; exact distinct

/-- Setting the root keeps a registry sound. -/
theorem Sound.withRoot (sound : r.Sound) (root : Option String) : ({ r with root } : Registry).Sound :=
  ⟨sound.entriesNodup, sound.entriesCovered, sound.entriesAgree, sound.compositeHandles,
    sound.compositesNodup, sound.compositesRegistered, sound.compositesCovered,
    sound.compositesAgree, sound.parentsRegistered, sound.parentsEarlier,
    sound.passthroughParents, sound.enumsRegistered, sound.enumMembers, sound.enumsDistinct⟩

end Registry

end SchemaTypes
