import SchemaTypes.Proofs.Loading
import SchemaTypes.Proofs.RegistrySound

/-! # Casting never misses a type

A cast looks types up by name: a composite caster finds the class of its name, an enumeration
caster its enumeration, and a type with several parents the composite type of every parent.
In a sound registry every name a caster, a composite type or an initializer mentions is the
name of a type the registry holds, so none of these lookups fails, and no other step fails
with `ClassNotFound`: binding arguments fails by type, choosing a branch by key or value, and
the wrappers that place a failure in the data keep its kind.

`Registry.Safe r n` says that every cast function at bound `n` avoids that failure for
everything whose mentions the registry covers; `Registry.Sound.safe` proves it at every bound,
by induction on the bound, since every function calls the others one bound lower.
-/

namespace SchemaTypes

/-- A failure for want of a registered type. -/
def Error.Missing (e : Error) : Prop := e.kind = "ClassNotFound"

/-- A cast that fails for want of a registered type, inside the value. -/
def CastFailure.Missing : CastFailure → Prop
  | .nested e => e.Missing
  | .mismatch _ _ => False

namespace Error

@[simp] theorem kind_prefixed (e : Error) (s : PathSegment) : (e.prefixed s).kind = e.kind := by
  cases e <;> rfl

@[simp] theorem kind_atField (e : Error) (field : String) : (e.atField field).kind = e.kind :=
  kind_prefixed e _

@[simp] theorem kind_atIndex (e : Error) (i : Nat) : (e.atIndex i).kind = e.kind :=
  kind_prefixed e _

@[simp] theorem kind_withinType (e : Error) (name : String) : (e.withinType name).kind = e.kind := by
  cases e with
  | typeError p w m => simp only [withinType]; split <;> rfl
  | _ => rfl

@[simp] theorem kind_typeAt (message : String) : (typeAt message).kind = "Type" := rfl

@[simp] theorem kind_keyAt (message : String) : (keyAt message).kind = "Key" := rfl

@[simp] theorem kind_valueAt (message : String) : (valueAt message).kind = "Value" := rfl

theorem not_missing_typeAt (message : String) : ¬ (typeAt message).Missing := by
  simp [Missing]

theorem not_missing_atIndex {e : Error} (good : ¬ e.Missing) (i : Nat) :
    ¬ (e.atIndex i).Missing := by
  simpa [Missing] using good

theorem not_missing_atField {e : Error} (good : ¬ e.Missing) (field : String) :
    ¬ (e.atField field).Missing := by
  simpa [Missing] using good

theorem not_missing_withinType {e : Error} (good : ¬ e.Missing) (name : String) :
    ¬ (e.withinType name).Missing := by
  simpa [Missing] using good

end Error

theorem CastFailure.not_missing_toError {f : CastFailure} (good : ¬ f.Missing)
    (describe : Value → Option String → String) : ¬ (f.toError describe).Missing := by
  cases f with
  | mismatch v d => exact Error.not_missing_typeAt _
  | nested e => exact good

theorem Constructor.sortKeywords_error {c : Constructor} {e : Error} :
    ∀ {given extra keywords : List (String × Value)},
      c.sortKeywords given extra keywords = .error e → ¬ e.Missing
  | _, _, [], failed => by cases failed
  | given, extra, (name, v) :: rest, failed => by
    unfold Constructor.sortKeywords at failed
    split at failed
    · split at failed
      · cases failed; exact Error.not_missing_typeAt _
      · exact Constructor.sortKeywords_error failed
    · split at failed
      · exact Constructor.sortKeywords_error failed
      · cases failed; exact Error.not_missing_typeAt _

theorem except_bind_error {ε α β : Type} {x : Except ε α} {f : α → Except ε β} {e : ε}
    (failed : (x >>= f) = .error e) : x = .error e ∨ ∃ a, x = .ok a ∧ f a = .error e := by
  cases x with
  | error e' => cases failed; exact .inl rfl
  | ok a => exact .inr ⟨a, rfl, failed⟩

/-- Binding arguments fails only with a type failure. -/
theorem Constructor.bind_error {c : Constructor} {args : Arguments} {e : Error}
    (failed : c.bind args = .error e) : ¬ e.Missing := by
  unfold Constructor.bind at failed
  split at failed
  · cases failed; exact Error.not_missing_typeAt _
  · dsimp only at failed
    rcases except_bind_error failed with sorting | ⟨⟨given, extra⟩, -, binding⟩
    · exact Constructor.sortKeywords_error sorting
    · dsimp only at binding
      split at binding
      · cases binding
      · cases binding
        simp [Error.Missing]

namespace Registry

variable {r : Registry}

/-- Choosing a branch fails only for a missing or unknown discriminator or a failed
condition, never for want of a type. -/
theorem selectBranch_error {c : Caster} {data : List (String × Value)} {e : Error}
    (failed : selectBranch c data = .error e) : ¬ e.Missing := by
  unfold selectBranch at failed
  repeat' (first | split at failed | dsimp only at failed)
  all_goals
    cases failed <;> simp [Error.Missing]

/-- The caster of the branch a polymorph chooses is one of its branch casters. -/
theorem selectBranch_mem {c k : Caster} {data : List (String × Value)} {target : String}
    (chosen : selectBranch c data = .ok (target, k)) : k ∈ c.branchCasters := by
  unfold selectBranch at chosen
  repeat' (first | split at chosen | dsimp only at chosen)
  all_goals
    cases chosen <;>
      exact List.mem_map.mpr ⟨_, List.mem_of_find?_eq_some ‹List.find? _ _ = some _›, rfl⟩

/-- In a sound registry, a composite type name stands for the composite type of that name
as a class. -/
theorem Sound.classOf_ok {name : String} (sound : r.Sound) (present : name ∈ r.compositeNames) :
    ∃ c, r.classOf name = .ok c ∧ c ∈ r.composites ∧ c.name = name := by
  obtain ⟨c, found⟩ := composite_of_mem present
  obtain ⟨member, named⟩ := composite_ok found
  refine ⟨c, ?_, member, named⟩
  unfold classOf
  split
  · next entryName target caster definition category lookup =>
    obtain ⟨entered, entryNamed⟩ := find?_named lookup
    have own := sound.compositeHandles _ entered target rfl
    simp only at entryNamed own
    rw [own, entryNamed, found]
  · exact found

end Registry

theorem Error.not_missing_circular (name : String) : ¬ (Error.circularReference name).Missing := by
  simp [Error.Missing, Error.kind]

/-- A failure inside a value, from a step that avoids failing for want of a type. -/
theorem Avoids.nested {α : Type} {x : Loading α} (safe : Avoids Error.Missing x) :
    Avoids CastFailure.Missing (x.adapt CastFailure.nested) :=
  Avoids.adapt safe fun _ good => good

theorem CastFailure.not_missing_mismatch (v : Value) (detail : Option String) :
    ¬ (CastFailure.mismatch v detail).Missing :=
  id

namespace Registry

variable {r : Registry}

/-- Every cast function at one bound on the depth of calls avoids failing for want of a type,
for every caster, composite type, initializer and constructor whose mentions the registry
holds. -/
structure Safe (r : Registry) (n : Nat) : Prop where
  castWith : ∀ k v, r.Covers k.mentions → Avoids CastFailure.Missing (r.castWith n k v)
  castPolymorph : ∀ c v, r.Covers c.mentions →
    Avoids CastFailure.Missing (r.castPolymorph n c v)
  discriminate : ∀ c data, r.Covers c.mentions → Avoids Error.Missing (r.discriminate n c data)
  fromMap : ∀ c raw, c ∈ r.composites → Avoids Error.Missing (r.fromMap n c raw)
  construct : ∀ c args, c ∈ r.composites → Avoids Error.Missing (r.construct n c args)
  runInitializer : ∀ i args fields owner, r.Covers i.mentions →
    Avoids Error.Missing (r.runInitializer n i args fields owner)
  invoke : ∀ ctor args fields owner, r.Covers ctor.mentions →
    Avoids Error.Missing (r.invoke n ctor args fields owner)
  coerce : ∀ name h k v, r.Covers k.mentions → Avoids Error.Missing (r.coerce n name h k v)

/-- At bound zero every cast function gives up with a circular reference. -/
theorem safe_zero : Safe r 0 where
  castWith _ _ _ := by
    rw [castWith]; exact Avoids.throw (Error.not_missing_circular _)
  castPolymorph _ _ _ := by
    rw [castPolymorph]; exact Avoids.throw (Error.not_missing_circular _)
  discriminate _ _ _ := by
    rw [discriminate]; exact Avoids.throw (Error.not_missing_circular _)
  fromMap _ _ _ := by
    rw [fromMap]; exact Avoids.throw (Error.not_missing_circular _)
  construct _ _ _ := by
    rw [construct]; exact Avoids.throw (Error.not_missing_circular _)
  runInitializer _ _ _ _ _ := by
    rw [runInitializer]; exact Avoids.throw (Error.not_missing_circular _)
  invoke _ _ _ _ _ := by
    rw [invoke]; exact Avoids.throw (Error.not_missing_circular _)
  coerce _ _ _ _ _ := by
    rw [coerce]; exact Avoids.throw (Error.not_missing_circular _)

section Succ

variable {n : Nat} (ih : Safe r n)
include ih

theorem castWith_safe (sound : r.Sound) (k : Caster) (v : Value) (covers : r.Covers k.mentions) :
    Avoids CastFailure.Missing (r.castWith (n + 1) k v) := by
  cases k with
  | identity => simp only [castWith]; exact Avoids.pure v
  | native t =>
    simp only [castWith]
    split
    · exact Avoids.pure _
    · exact Avoids.throw (CastFailure.not_missing_mismatch _ _)
  | list item =>
    cases v
    case list xs =>
      simp only [castWith]
      refine Avoids.bind (Avoids.mapM fun x _ => ?_) fun _ => Avoids.pure _
      exact Avoids.adapt (ih.castWith item _ covers) fun f good =>
        Error.not_missing_atIndex (CastFailure.not_missing_toError good _) _
    all_goals simp only [castWith]; exact Avoids.throw (CastFailure.not_missing_mismatch _ _)
  | enum name =>
    obtain ⟨et, found⟩ := enumType_of_mem (covers (.enum name) (by simp [Caster.mentions]))
    simp only [castWith, found]
    split
    · exact Avoids.pure _
    · exact Avoids.throw (CastFailure.not_missing_mismatch _ _)
  | composite name =>
    obtain ⟨c, found, present, -⟩ :=
      sound.classOf_ok (covers (.composite name) (by simp [Caster.mentions]))
    cases v
    case object t fs =>
      simp only [castWith]
      split
      · exact Avoids.pure _
      · refine Avoids.nested (Avoids.exceptBind (by simp [found]) ?_)
        intro c' lookedUp
        rw [found] at lookedUp
        cases lookedUp
        exact Avoids.bind (Avoids.lift _) fun raw => ih.fromMap c raw present
    case map es =>
      simp only [castWith]
      refine Avoids.nested (Avoids.exceptBind (by simp [found]) ?_)
      intro c' lookedUp
      rw [found] at lookedUp
      cases lookedUp
      exact ih.fromMap c es present
    all_goals simp only [castWith]; exact Avoids.throw (CastFailure.not_missing_mismatch _ _)
  | keyed property mapping => simp only [castWith]; exact ih.castPolymorph _ v covers
  | conditional branches => simp only [castWith]; exact ih.castPolymorph _ v covers

theorem castPolymorph_safe (c : Caster) (v : Value) (covers : r.Covers c.mentions) :
    Avoids CastFailure.Missing (r.castPolymorph (n + 1) c v) := by
  cases v
  case object t fs =>
    simp only [castPolymorph]
    split
    · exact Avoids.pure _
    · exact Avoids.throw (CastFailure.not_missing_mismatch _ _)
  case map es =>
    simp only [castPolymorph]
    exact Avoids.nested (ih.discriminate c es covers)
  all_goals simp only [castPolymorph]; exact Avoids.throw (CastFailure.not_missing_mismatch _ _)

theorem discriminate_safe (c : Caster) (data : List (String × Value))
    (covers : r.Covers c.mentions) : Avoids Error.Missing (r.discriminate (n + 1) c data) := by
  simp only [discriminate]
  refine Avoids.exceptBind (fun _ failed => selectBranch_error failed) ?_
  intro ⟨target, k⟩ chosen
  have branch := covers_of_subset (Caster.mentions_of_mem_branchCasters (selectBranch_mem chosen))
    covers
  exact Avoids.adapt (ih.castWith k _ branch) fun _ good => CastFailure.not_missing_toError good _

theorem fromMap_safe (c : Composite) (raw : List (String × Value)) (present : c ∈ r.composites) :
    Avoids Error.Missing (r.fromMap (n + 1) c raw) := by
  simp only [fromMap]
  exact Avoids.bind (Avoids.lift _) fun keyword =>
    Avoids.bind (ih.construct c _ present) fun _ => Avoids.pure _

theorem construct_safe (sound : r.Sound) (c : Composite) (args : Arguments) (present : c ∈ r.composites) :
    Avoids Error.Missing (r.construct (n + 1) c args) := by
  simp only [construct]
  have covers := sound.compositesCovered c present
  simp only [Composite.mentions, covers_append] at covers
  exact Avoids.adapt (ih.runInitializer _ _ _ _ covers.2) fun _ good =>
    Error.not_missing_withinType good _

theorem runInitializer_safe (sound : r.Sound) (i : Initializer) (args : Arguments) (fields : List (String × Value))
    (owner : String) (covers : r.Covers i.mentions) :
    Avoids Error.Missing (r.runInitializer (n + 1) i args fields owner) := by
  cases i with
  | direct ctor =>
    simp only [runInitializer]
    exact ih.invoke ctor args fields owner covers
  | combined signature parents =>
    simp only [runInitializer]
    simp only [Initializer.mentions, covers_append] at covers
    refine Avoids.bind (Avoids.ofExcept fun _ failed => Constructor.bind_error failed) fun bound => ?_
    refine Avoids.foldlM (fun acc parent member => ?_) fields
    have named : parent ∈ r.compositeNames :=
      covers.2 (.composite parent) (List.mem_map_of_mem member)
    obtain ⟨pc, found⟩ := composite_of_mem named
    refine Avoids.exceptBind (by simp [found]) fun pc' lookedUp => ?_
    rw [found] at lookedUp
    cases lookedUp
    have parentCovers := sound.compositesCovered pc (composite_ok found).1
    simp only [Composite.mentions, covers_append] at parentCovers
    exact ih.runInitializer _ _ _ _ parentCovers.2

theorem invoke_safe (ctor : Constructor) (args : Arguments) (fields : List (String × Value))
    (owner : String) (covers : r.Covers ctor.mentions) :
    Avoids Error.Missing (r.invoke (n + 1) ctor args fields owner) := by
  simp only [invoke]
  simp only [Constructor.mentions, covers_append, covers_flatMap, covers_catchAll] at covers
  obtain ⟨params, catchAll⟩ := covers
  refine Avoids.bind (Avoids.ofExcept fun _ failed => Constructor.bind_error failed) fun bound => ?_
  refine Avoids.bind (Avoids.foldlM (fun acc p member => ?_) fields) fun fields => ?_
  · split
    · exact Avoids.pure _
    · have casterCovers := (covers_append.mp (params p member)).2
      exact Avoids.bind (Avoids.adapt (ih.coerce _ _ _ _ casterCovers) fun _ good =>
        Error.not_missing_atField good _) fun _ => Avoids.pure _
  · split
    · exact Avoids.pure _
    · next ca given =>
      have casterCovers := (covers_append.mp (catchAll ca given)).2
      refine Avoids.foldlM (fun acc extra _ => ?_) fields
      exact Avoids.bind (Avoids.lift _) fun vocab =>
        Avoids.bind (Avoids.adapt (ih.coerce _ _ _ _ casterCovers) fun _ good =>
          Error.not_missing_atField good _) fun _ => Avoids.pure _

theorem coerce_safe (name : String) (h : TypeHandle) (k : Caster) (v : Value)
    (covers : r.Covers k.mentions) : Avoids Error.Missing (r.coerce (n + 1) name h k v) := by
  simp only [coerce]
  split
  · exact Avoids.pure v
  · exact Avoids.adapt (ih.castWith k v covers) fun _ good => CastFailure.not_missing_toError good _

end Succ

/-- In a sound registry no cast function fails for want of a type, at any bound. -/
theorem Sound.safe (sound : r.Sound) : ∀ n, Safe r n
  | 0 => safe_zero
  | n + 1 =>
    have ih := sound.safe n
    { castWith := castWith_safe ih sound
      castPolymorph := castPolymorph_safe ih
      discriminate := discriminate_safe ih
      fromMap := fromMap_safe ih
      construct := construct_safe ih sound
      runInitializer := runInitializer_safe ih sound
      invoke := invoke_safe ih
      coerce := coerce_safe ih }

section Operations

variable (sound : r.Sound)
include sound

theorem Sound.cast_safe {k : Caster} (covers : r.Covers k.mentions) (v : Value) :
    Avoids Error.Missing (r.cast k v) :=
  Avoids.adapt ((sound.safe _).castWith k v covers) fun _ good =>
    CastFailure.not_missing_toError good _

/-- The caster of a registered entry mentions only types the registry holds. -/
theorem Sound.entry_covers {name : String} {e : Entry} (found : r.entry name = .ok e) :
    r.Covers e.caster.mentions :=
  (covers_append.mp (sound.entriesCovered e (entry_ok found).1)).2

theorem Sound.instantiate_safe {e : Entry} (present : e ∈ r.entries) (v : Value) :
    Avoids Error.Missing (r.instantiate e.name v) := by
  obtain ⟨e', found⟩ := entry_of_contains (contains_iff.mpr (List.mem_map_of_mem present))
  unfold instantiate
  refine Avoids.exceptBind (by simp [found]) fun e'' lookedUp => ?_
  rw [found] at lookedUp
  cases lookedUp
  exact sound.cast_safe (sound.entry_covers found) v

theorem Sound.discriminateAs_safe {e : Entry} (present : e ∈ r.entries) (data : Value) :
    Avoids Error.Missing (r.discriminateAs e.name data) := by
  obtain ⟨e', found⟩ := entry_of_contains (contains_iff.mpr (List.mem_map_of_mem present))
  unfold discriminateAs
  refine Avoids.exceptBind (by simp [found]) fun e'' lookedUp => ?_
  rw [found] at lookedUp
  cases lookedUp
  -- a polymorph discriminates a map; anything else is refused by type
  dsimp only
  split
  · refine Avoids.bind (Avoids.throw (Error.not_missing_typeAt _)) fun _ => ?_
    split
    · exact (sound.safe _).discriminate _ _ (sound.entry_covers found)
    · exact Avoids.throw (Error.not_missing_typeAt _)
  · split
    · exact (sound.safe _).discriminate _ _ (sound.entry_covers found)
    · exact Avoids.throw (Error.not_missing_typeAt _)

theorem Sound.fromDict_safe {c : Composite} (present : c ∈ r.composites) (raw : Value) :
    Avoids Error.Missing (r.fromDict c raw) := by
  unfold fromDict
  split
  · exact (sound.safe _).fromMap c _ present
  · split
    · exact Avoids.pure _
    · exact Avoids.bind (Avoids.lift _) fun es => (sound.safe _).fromMap c es present
  · exact Avoids.throw (Error.not_missing_withinType (Error.not_missing_typeAt _) _)

theorem Sound.constructInstance_safe {c : Composite} (present : c ∈ r.composites)
    (args : Arguments) : Avoids Error.Missing (r.constructInstance c args) := by
  unfold constructInstance
  exact Avoids.bind ((sound.safe _).construct c args present) fun _ => Avoids.pure _

end Operations

end Registry

end SchemaTypes
