import SchemaTypes.Proofs.CombinedInitializer
import SchemaTypes.Proofs.JsonRoutes

/-! # Where a failed load points in the data

A load that fails by type, key or value reports a path: list positions and field names, from
the outermost value in. The path is built while the failure travels outwards: a list adds the
position of the item, a constructor the name of the field whose value did not fit or that is
missing, and a polymorph the name of its discriminator. So the path follows the data, except in
how it spells a field. A constructor names a field by the external name of its property, or,
for an extra field, by its attribute name written in PascalCase; the data may have used another
key that reads as the same attribute, such as `sample_mass` for the property `SampleMass`
(`sample_mass_reported_as_property`).

`Registry.Reaches` states where such a path may lead: through positions of lists and keys of
maps, each key spelled as `Registry.Spells` allows, to a value inside the data; or, at its last
step, to a required property of a type that reads none of an object's keys as its attribute.
Loading plain data into a composite type of a compiled registry fails only with paths of this
kind (`fromDict_failure_located`). `Registry.Confines` carries the statement through the cast
functions by induction on the bound on the depth of their calls, as `Registry.Safe` does for
failures for want of a type.
-/

namespace SchemaTypes

namespace Registry

/-- How a failure may name the field that the data key `key` fills: by the key itself, by the
external name of a property whose attribute some composite type reads the key as, or by that
attribute written in PascalCase. -/
inductive Spells (r : Registry) (key : String) : String → Prop
  | self : r.Spells key key
  | property {c d : Composite} {p : Property} {vocab : Vocabulary} :
      c ∈ r.composites → d ∈ r.composites → p ∈ d.properties →
      (r.internalName vocab c.name key).1 = p.name → r.Spells key p.externalName
  | pascal {c : Composite} {vocab : Vocabulary} (special : SpecialNames) : c ∈ r.composites →
      r.Spells key (Naming.snakeToPascal (r.internalName vocab c.name key).1 special)

/-- The attribute names the composite type `c` reads the keys of `es` as, from the special
names `vocab`. -/
def attributes (r : Registry) (c : Composite) (es : List (String × Value)) (vocab : Vocabulary) :
    List String :=
  ((r.internalKeys c.name es).run vocab).1.map (·.1)

/-- Where a failure's path leads in data: through positions of lists and keys of maps spelled
as `Spells` allows, to a value; or, at its last step, to a required property of a composite
type that reads none of an object's keys as that property's attribute. -/
inductive Reaches (r : Registry) : Value → List PathSegment → Prop
  | here (v : Value) : r.Reaches v []
  | index {xs : List Value} {i : Nat} {x : Value} {path : List PathSegment} :
      xs[i]? = some x → r.Reaches x path → r.Reaches (.list xs) (.index i :: path)
  | field {es : List (String × Value)} {key s : String} {x : Value} {path : List PathSegment} :
      (key, x) ∈ es → r.Spells key s → r.Reaches x path → r.Reaches (.map es) (.field s :: path)
  | missing {es : List (String × Value)} {c : Composite} {q : Property} (vocab : Vocabulary) :
      c ∈ r.composites → q ∈ c.properties → q.default = .required →
      q.name ∉ r.attributes c es vocab → r.Reaches (.map es) [.field q.externalName]

end Registry

/-! ## Failures inside a value -/

namespace Error

/-- The failure's path, if it has one, leads into `v`. -/
def Within (r : Registry) (v : Value) (e : Error) : Prop :=
  ∀ path, e.path? = some path → r.Reaches v path.segments

/-- The failure has a path that does not lead into `v`. -/
def Strays (r : Registry) (v : Value) (e : Error) : Prop := ¬ e.Within r v

theorem path?_prefixed (e : Error) (s : PathSegment) :
    (e.prefixed s).path? = e.path?.map (·.pushFront s) := by
  cases e <;> rfl

theorem path?_withinType (e : Error) (name : String) : (e.withinType name).path? = e.path? := by
  cases e with
  | typeError p w m => simp only [withinType]; split <;> rfl
  | _ => rfl

variable {r : Registry} {v : Value} {e : Error}

theorem not_strays : ¬ e.Strays r v ↔ e.Within r v := not_not

theorem within_of_path?_eq_none (none : e.path? = none) : e.Within r v := by
  intro path found
  rw [none] at found
  cases found

theorem within_of_root (root : e.path? = some {}) : e.Within r v := by
  intro path found
  rw [root] at found
  cases found
  exact .here v

theorem Within.withinType (within : e.Within r v) (name : String) :
    (e.withinType name).Within r v := by
  intro path found
  rw [path?_withinType] at found
  exact within path found

theorem Within.atField {es : List (String × Value)} {key s : String} {x : Value}
    (member : (key, x) ∈ es) (spelled : r.Spells key s) (within : e.Within r x) :
    (e.atField s).Within r (.map es) := by
  intro path found
  rw [Error.atField, path?_prefixed] at found
  obtain ⟨inner, located, rfl⟩ := Option.map_eq_some_iff.mp found
  exact .field member spelled (within inner located)

theorem Within.atIndex {xs : List Value} {i : Nat} {x : Value} (at_i : xs[i]? = some x)
    (within : e.Within r x) : (e.atIndex i).Within r (.list xs) := by
  intro path found
  rw [Error.atIndex, path?_prefixed] at found
  obtain ⟨inner, located, rfl⟩ := Option.map_eq_some_iff.mp found
  exact .index at_i (within inner located)

end Error

namespace CastFailure

/-- A failure to cast `v` that, when it arose inside `v`, has its path into `v`. -/
def Within (r : Registry) (v : Value) : CastFailure → Prop
  | .mismatch _ _ => True
  | .nested e => e.Within r v

/-- A failure to cast `v` that arose inside `v` with a path that leads elsewhere. -/
def Strays (r : Registry) (v : Value) (f : CastFailure) : Prop := ¬ f.Within r v

variable {r : Registry} {v : Value} {f : CastFailure}

theorem not_strays : ¬ f.Strays r v ↔ f.Within r v := not_not

theorem not_strays_mismatch (w : Value) (detail : Option String) :
    ¬ (CastFailure.mismatch w detail).Strays r v :=
  not_strays.mpr trivial

/-- A mismatch is worded at the root, and a failure inside keeps its path. -/
theorem Within.toError (within : f.Within r v) (describe : Value → Option String → String) :
    (f.toError describe).Within r v := by
  cases f with
  | mismatch w d => exact Error.within_of_root rfl
  | nested e => exact within

end CastFailure

/-! ## Arguments drawn from data -/

theorem Avoids.read {ε α β : Type} {bad : ε → Prop} {x : StateM Vocabulary α}
    {f : α → ExceptT ε (StateM Vocabulary) β} (rest : ∀ vocab, Avoids bad (f (x.run vocab).1)) :
    Avoids bad ((x : ExceptT ε (StateM Vocabulary) α) >>= f) := by
  intro vocab e run
  rw [run_lift_bind] at run
  exact rest vocab _ e run

namespace Constructor

/-- With no positional values, a parameter is bound to the keyword of its name or to its
default. -/
theorem bound_of_keyword {c : Constructor} {args : Arguments} {bound : Bound}
    (positional : args.positional = []) (bound_ok : c.bind args = .ok bound) {name : String}
    {v : Value} (member : (name, v) ∈ bound.declared) :
    (name, v) ∈ args.keyword ∨ ∃ p ∈ c.params, p.name = name ∧ p.default = .value v := by
  unfold bind at bound_ok
  rw [positional, if_neg (by simp)] at bound_ok
  simp only [List.zip_nil_right, List.map_nil] at bound_ok
  obtain ⟨⟨given, extra⟩, sorted, rest⟩ := Compiling.except_bind_ok bound_ok
  dsimp only at rest
  split at rest
  · cases rest
    obtain ⟨p, param, mapped⟩ := List.mem_filterMap.mp member
    split at mapped
    · next w found =>
      cases mapped
      rcases sortKeywords_given sorted _ (Value.mem_of_lookup found) with none | keyword
      · cases none
      · exact .inl keyword
    · next d _ isDefault =>
      cases mapped
      exact .inr ⟨p, param, rfl, isDefault⟩
    · cases mapped
  · cases rest

/-- The extra keywords of a binding are keywords given. -/
theorem extra_of_keyword {c : Constructor} {args : Arguments} {bound : Bound}
    (bound_ok : c.bind args = .ok bound) {e : String × Value} (member : e ∈ bound.extra) :
    e ∈ args.keyword := by
  unfold bind at bound_ok
  split at bound_ok
  · cases bound_ok
  obtain ⟨⟨given, extra⟩, sorted, rest⟩ := Compiling.except_bind_ok bound_ok
  dsimp only at rest
  split at rest
  · cases rest
    rcases sortKeywords_extra sorted e member with none | ⟨keyword, -⟩
    · cases none
    · exact keyword
  · cases rest

/-- Binding fails at the root, or at the field of a required parameter that no keyword
names. -/
theorem bind_error_path {c : Constructor} {args : Arguments} {e : Error}
    (distinct : (c.params.map (·.name)).Nodup) (distinctKeywords : (args.keyword.map (·.1)).Nodup)
    (failed : c.bind args = .error e) :
    e.path? = some {} ∨ ∃ q ∈ c.params, q.default = .required ∧
      q.name ∉ args.keyword.map (·.1) ∧ e.path? = some ⟨[.field q.externalName]⟩ := by
  rw [c.bind_eq_bindSpec args distinct distinctKeywords] at failed
  unfold bindSpec at failed
  split at failed
  · cases failed
    exact .inl rfl
  · split at failed
    · cases failed
      left
      unfold keywordRefusal
      split <;> rfl
    · dsimp only at failed
      split at failed
      · cases failed
      · next first others missing =>
        cases failed
        -- the first missing parameter receives nothing and has no default
        have listed : first ∈ c.missingParams args := by rw [missing]; exact List.mem_cons_self
        obtain ⟨⟨q, ix⟩, chosen, rfl⟩ := List.mem_map.mp listed
        obtain ⟨position, unbound⟩ := List.mem_filter.mp chosen
        have param : q ∈ c.params := List.mem_of_getElem? (List.mem_zipIdx_iff_getElem?.mp position)
        cases default : q.default with
        | value d => simp [Arguments.boundValue, default, PropertyDefault.value?] at unbound
        | required =>
          refine .inr ⟨q, param, default, fun named => ?_, rfl⟩
          obtain ⟨x, member, same⟩ := List.mem_map.mp named
          obtain ⟨w, found⟩ := Value.lookup_of_mem (same ▸ member : (q.name, x.2) ∈ args.keyword)
          simp [Arguments.boundValue, Arguments.received, found] at unbound

end Constructor

namespace Registry

variable {r : Registry}

/-- Arguments drawn from data `es` that the composite type `c` reads: no positional values,
keywords of distinct names, each `null` or the value of a key that `c` reads as its name. -/
structure Draws (r : Registry) (c : Composite) (es : List (String × Value)) (args : Arguments) :
    Prop where
  positional : args.positional = []
  distinct : (args.keyword.map (·.1)).Nodup
  drawn : ∀ e ∈ args.keyword,
    e.2 = .null ∨ ∃ key vocab, (key, e.2) ∈ es ∧ (r.internalName vocab c.name key).1 = e.1

/-- Every required property of `d` is named by a keyword, or is one that the data `es` lacks. -/
def Supplied (r : Registry) (d : Composite) (es : List (String × Value)) (args : Arguments) :
    Prop :=
  ∀ q ∈ d.properties, q.default = .required →
    q.name ∈ args.keyword.map (·.1) ∨ r.Reaches (.map es) [.field q.externalName]

/-- The keys of data read by a composite type are drawn from the data, and supply its required
properties or are missing one. -/
theorem internalKeys_draws {c : Composite} (present : c ∈ r.composites)
    (es : List (String × Value)) (vocab : Vocabulary) :
    r.Draws c es { keyword := ((r.internalKeys c.name es).run vocab).1 } ∧
      r.Supplied c es { keyword := ((r.internalKeys c.name es).run vocab).1 } := by
  obtain ⟨keyed, collected, related⟩ := internalKeys_eq (r := r) c.name es vocab
  refine ⟨⟨rfl, ?_, fun e member => ?_⟩, fun q member required => ?_⟩
  · rw [collected, Pairs.collect_eq_collect]
    exact Pairs.nodup_collect keyed
  · rw [collected] at member
    obtain ⟨x, member', value, vocab', key⟩ :=
      Compiler.forall₂_mem_right related (Value.mem_collect member)
    exact .inr ⟨x.1, vocab', by rw [value]; exact member', key⟩
  · by_cases named : q.name ∈ ((r.internalKeys c.name es).run vocab).1.map (·.1)
    · exact .inl named
    · exact .inr (.missing vocab present member required named)

/-- The arguments a parent of a combined initializer gets are drawn from the data as the
arguments bound were: a bound value is a keyword or a default, which is `null`, and an extra
keyword is a keyword. -/
theorem Draws.parent {c : Composite} {es : List (String × Value)} {args : Arguments}
    {signature : Constructor} {bound : Bound} (draws : r.Draws c es args)
    (bound_ok : signature.bind args = .ok bound)
    (nulls : ∀ p ∈ signature.params, p.default = .required ∨ p.default = .value .null)
    (keep : String × Value → Bool) {extra : List (String × Value)} (fromExtra : extra ⊆ bound.extra) :
    r.Draws c es { keyword := Value.collect (bound.declared.filter keep ++ extra) } := by
  refine ⟨rfl, by rw [Pairs.collect_eq_collect]; exact Pairs.nodup_collect _, fun e member => ?_⟩
  obtain ⟨name, v⟩ := e
  rcases List.mem_append.mp (Value.mem_collect member) with declared | extraKeyword
  · rcases Constructor.bound_of_keyword draws.positional bound_ok (List.mem_filter.mp declared).1
      with keyword | ⟨p, param, -, isDefault⟩
    · exact draws.drawn _ keyword
    · rcases nulls p param with required | null
      · rw [required] at isDefault
        cases isDefault
      · rw [null] at isDefault
        cases isDefault
        exact .inl rfl
  · exact draws.drawn _ (Constructor.extra_of_keyword bound_ok (fromExtra extraKeyword))

/-- A parent of a combined initializer gets a keyword for each of its parameters: the merged
signature has a parameter of the same name, which binding gave a value. -/
theorem Merges.parent_supplied {signature : Constructor} {parents : List String}
    (merges : r.Merges (.combined signature parents)) {args : Arguments} {bound : Bound}
    (bound_ok : signature.bind args = .ok bound) {parent : String} (member : parent ∈ parents)
    {pc : Composite} (found : r.composite parent = .ok pc) (shape : pc.Shaped r)
    (keep : String × Value → Bool)
    (keeps : ∀ x v, (pc.initializer.signature.param? x).isSome = true → keep (x, v) = true)
    (extra : List (String × Value)) (es : List (String × Value)) :
    r.Supplied pc es { keyword := Value.collect (bound.declared.filter keep ++ extra) } := by
  intro q property _
  have param : q ∈ pc.initializer.signature.params := by rw [shape.signature]; exact property
  -- the merged signature has a parameter of the parent parameter's name
  have merged : q.name ∈ signature.params.map (·.name) := by
    cases merges with
    | combined listed params _ _ =>
      obtain ⟨pc', inParents, found'⟩ := Compiler.forall₂_mem_left listed member
      rw [found] at found'
      cases found'
      rw [params, Composite.mem_names_foldl_setProperty]
      exact .inr (List.mem_map_of_mem (List.mem_flatMap.mpr ⟨pc, inParents, param⟩))
  obtain ⟨q', param', named⟩ := List.mem_map.mp merged
  obtain ⟨v, value⟩ := (Constructor.bind_params bound_ok).1 q' param'
  rw [named] at value
  have kept : (q.name, v) ∈ bound.declared.filter keep :=
    List.mem_filter.mpr ⟨Value.mem_of_lookup value, keeps _ _ (Constructor.declares_of_mem param)⟩
  left
  rw [Pairs.collect_eq_collect, Pairs.mem_keys_collect]
  exact List.mem_map_of_mem (List.mem_append_left extra kept)

/-- Binding the arguments of a shaped composite type fails inside the data. -/
theorem bind_within {c d : Composite} {es : List (String × Value)} {args : Arguments}
    {ctor : Constructor} {e : Error} (params : ctor.params = d.properties)
    (distinct : (ctor.params.map (·.name)).Nodup) (draws : r.Draws c es args)
    (supplied : r.Supplied d es args) (failed : ctor.bind args = .error e) :
    e.Within r (.map es) := by
  rcases Constructor.bind_error_path distinct draws.distinct failed
    with root | ⟨q, param, required, unnamed, path⟩
  · exact Error.within_of_root root
  · rw [params] at param
    rcases supplied q param required with named | reaches
    · exact absurd named unnamed
    · intro found located
      rw [path] at located
      cases located
      exact reaches

/-- A shaped type binds against its own properties. -/
theorem shaped_params {d : Composite} (shape : d.Shaped r) :
    d.initializer.signature.params = d.properties := by
  rw [shape.signature]

/-! ## Failures of the cast functions -/

theorem enumType_error_path? {name : String} {e : Error} (failed : r.enumType name = .error e) :
    e.path? = none := by
  unfold enumType at failed
  split at failed
  · cases failed
  · cases failed
    rfl

theorem composite_error_path? {name : String} {e : Error} (failed : r.composite name = .error e) :
    e.path? = none := by
  unfold composite at failed
  split at failed
  · cases failed
  · cases failed
    rfl

theorem classOf_error_path? {name : String} {e : Error} (failed : r.classOf name = .error e) :
    e.path? = none := by
  unfold classOf at failed
  split at failed
  · exact composite_error_path? failed
  · exact composite_error_path? failed

/-- Choosing a branch fails at the root, or at a discriminator the data holds. -/
theorem selectBranch_within {k : Caster} {data : List (String × Value)} {e : Error}
    (failed : selectBranch k data = .error e) : e.Within r (.map data) := by
  unfold selectBranch at failed
  repeat' (first | split at failed | dsimp only at failed)
  all_goals cases failed
  all_goals first
    | exact Error.within_of_root rfl
    | exact Error.Within.atField (Value.mem_of_lookup ‹Value.lookup data _ = some _›) .self
        (Error.within_of_root rfl)

/-- Every cast function at one bound on the depth of calls fails, on plain data, only with a
path into that data: the data cast, or the data whose keys a constructor's arguments come
from. -/
structure Confines (r : Registry) (n : Nat) : Prop where
  castWith : ∀ k v, v.Plain → Avoids (CastFailure.Strays r v) (r.castWith n k v)
  castPolymorph : ∀ k v, v.Plain → Avoids (CastFailure.Strays r v) (r.castPolymorph n k v)
  discriminate : ∀ k data, Value.PlainEntries data →
    Avoids (Error.Strays r (.map data)) (r.discriminate n k data)
  fromMap : ∀ c raw, c ∈ r.composites → Value.PlainEntries raw →
    Avoids (Error.Strays r (.map raw)) (r.fromMap n c raw)
  construct : ∀ c es vocab, c ∈ r.composites → Value.PlainEntries es →
    Avoids (Error.Strays r (.map es))
      (r.construct n c { keyword := ((r.internalKeys c.name es).run vocab).1 })
  runInitializer : ∀ c d es args fields owner, c ∈ r.composites → d ∈ r.composites →
    Value.PlainEntries es → r.Draws c es args → r.Supplied d es args →
    Avoids (Error.Strays r (.map es)) (r.runInitializer n d.initializer args fields owner)
  invoke : ∀ c d ctor es args fields owner, c ∈ r.composites → d ∈ r.composites →
    d.initializer = .direct ctor → Value.PlainEntries es → r.Draws c es args →
    r.Supplied d es args → Avoids (Error.Strays r (.map es)) (r.invoke n ctor args fields owner)
  coerce : ∀ name h k v, v.Plain → Avoids (Error.Strays r v) (r.coerce n name h k v)

/-- A circular reference has no path. -/
theorem Error.not_strays_circular (name : String) (v : Value) :
    ¬ (Error.circularReference name).Strays r v :=
  Error.not_strays.mpr (Error.within_of_path?_eq_none rfl)

/-- At bound zero every cast function gives up with a circular reference, which has no path. -/
theorem confines_zero : Confines r 0 where
  castWith _ v _ := by
    rw [castWith]; exact Avoids.throw (Error.not_strays_circular _ v)
  castPolymorph _ v _ := by
    rw [castPolymorph]; exact Avoids.throw (Error.not_strays_circular _ v)
  discriminate _ _ _ := by
    rw [discriminate]; exact Avoids.throw (Error.not_strays_circular _ _)
  fromMap _ _ _ _ := by
    rw [fromMap]; exact Avoids.throw (Error.not_strays_circular _ _)
  construct _ _ _ _ _ := by
    rw [construct]; exact Avoids.throw (Error.not_strays_circular _ _)
  runInitializer _ _ _ _ _ _ _ _ _ _ _ := by
    rw [runInitializer]; exact Avoids.throw (Error.not_strays_circular _ _)
  invoke _ _ _ _ _ _ _ _ _ _ _ _ _ := by
    rw [invoke]; exact Avoids.throw (Error.not_strays_circular _ _)
  coerce _ _ _ v _ := by
    rw [coerce]; exact Avoids.throw (Error.not_strays_circular _ v)

/-- Coercing `null` succeeds, or gives up with a circular reference, which has no path. -/
theorem coerce_null_strays_not (n : Nat) (name : String) (h : TypeHandle) (k : Caster)
    (f : Error → Error) (keeps : ∀ e, e.path? = none → (f e).path? = none) (target : Value) :
    Avoids (Error.Strays r target) ((r.coerce n name h k .null).adapt f) := by
  have pathless : Avoids (fun e : Error => e.path?.isSome = true) (r.coerce n name h k .null) := by
    cases n with
    | zero =>
      rw [coerce]
      exact Avoids.throw (by simp [Error.path?])
    | succ n =>
      rw [coerce, if_pos (by simp [Value.isNull])]
      exact Avoids.pure _
  exact Avoids.adapt pathless fun e none => Error.not_strays.mpr
    (Error.within_of_path?_eq_none (keeps e (Option.not_isSome_iff_eq_none.mp none)))

section Succ

variable {n : Nat} (ih : Confines r n) (shaped : ∀ c ∈ r.composites, c.Shaped r)
include ih

/-- Coercing a value drawn from data, and naming a failure by a spelling of the value's key,
keeps the failure inside the data. -/
theorem coerce_drawn {es : List (String × Value)} (plain : Value.PlainEntries es) {v : Value}
    {s : String} (drawn : v = .null ∨ ∃ key, (key, v) ∈ es ∧ r.Spells key s) (name : String)
    (h : TypeHandle) (k : Caster) :
    Avoids (Error.Strays r (.map es)) ((r.coerce n name h k v).adapt (·.atField s)) := by
  rcases drawn with rfl | ⟨key, member, spelled⟩
  · exact coerce_null_strays_not n name h k _ (fun e none => by
      rw [Error.atField, Error.path?_prefixed, none]; rfl) _
  · exact Avoids.adapt (ih.coerce name h k v (plain _ member)) fun e good =>
      Error.not_strays.mpr ((Error.not_strays.mp good).atField member spelled)

theorem castWith_confines (k : Caster) (v : Value) (plain : v.Plain) :
    Avoids (CastFailure.Strays r v) (r.castWith (n + 1) k v) := by
  cases k with
  | identity =>
    simp only [castWith]
    exact Avoids.pure v
  | native t =>
    simp only [castWith]
    split
    · exact Avoids.pure _
    · exact Avoids.throw (CastFailure.not_strays_mismatch _ _)
  | list item =>
    cases v
    case list xs =>
      simp only [castWith]
      refine Avoids.bind (Avoids.mapM fun pair member => ?_) fun _ => Avoids.pure _
      obtain ⟨x, ix⟩ := pair
      -- an item's failure is placed at its position
      have at_ix : xs[ix]? = some x := List.mem_zipIdx_iff_getElem?.mp member
      exact Avoids.adapt (ih.castWith item x (plain.items x (List.mem_of_getElem? at_ix)))
        fun f good => CastFailure.not_strays.mpr
          (((CastFailure.not_strays.mp good).toError _).atIndex at_ix)
    all_goals simp only [castWith]; exact Avoids.throw (CastFailure.not_strays_mismatch _ _)
  | enum name =>
    simp only [castWith]
    split
    · next e failed =>
      exact Avoids.throw (Error.not_strays.mpr
        (Error.within_of_path?_eq_none (enumType_error_path? failed)))
    · split
      · exact Avoids.pure _
      · exact Avoids.throw (CastFailure.not_strays_mismatch _ _)
  | composite name =>
    cases v
    case object t fs => cases plain
    case map es =>
      simp only [castWith]
      refine Avoids.adapt (Avoids.exceptBind (fun e failed => ?_) fun c found => ?_) fun _ good => good
      · exact Error.not_strays.mpr (Error.within_of_path?_eq_none (classOf_error_path? failed))
      · exact ih.fromMap c es (classOf_mem found) plain.entries
    all_goals simp only [castWith]; exact Avoids.throw (CastFailure.not_strays_mismatch _ _)
  | keyed property mapping =>
    simp only [castWith]
    exact ih.castPolymorph _ v plain
  | conditional branches =>
    simp only [castWith]
    exact ih.castPolymorph _ v plain

theorem castPolymorph_confines (k : Caster) (v : Value) (plain : v.Plain) :
    Avoids (CastFailure.Strays r v) (r.castPolymorph (n + 1) k v) := by
  cases v
  case object t fs => cases plain
  case map es =>
    simp only [castPolymorph]
    exact Avoids.adapt (ih.discriminate k es plain.entries) fun _ good => good
  all_goals simp only [castPolymorph]; exact Avoids.throw (CastFailure.not_strays_mismatch _ _)

theorem discriminate_confines (k : Caster) (data : List (String × Value))
    (plain : Value.PlainEntries data) :
    Avoids (Error.Strays r (.map data)) (r.discriminate (n + 1) k data) := by
  simp only [discriminate]
  refine Avoids.exceptBind (fun e failed => Error.not_strays.mpr (selectBranch_within failed)) ?_
  intro branch _
  obtain ⟨target, caster⟩ := branch
  exact Avoids.adapt (ih.castWith caster _ (.map plain)) fun f good =>
    Error.not_strays.mpr ((CastFailure.not_strays.mp good).toError _)

theorem fromMap_confines (c : Composite) (raw : List (String × Value)) (present : c ∈ r.composites)
    (plain : Value.PlainEntries raw) :
    Avoids (Error.Strays r (.map raw)) (r.fromMap (n + 1) c raw) := by
  simp only [fromMap]
  exact Avoids.read fun vocab =>
    Avoids.bind (ih.construct c raw vocab present plain) fun _ => Avoids.pure _

theorem construct_confines (c : Composite) (es : List (String × Value)) (vocab : Vocabulary)
    (present : c ∈ r.composites) (plain : Value.PlainEntries es) :
    Avoids (Error.Strays r (.map es))
      (r.construct (n + 1) c { keyword := ((r.internalKeys c.name es).run vocab).1 }) := by
  simp only [construct]
  obtain ⟨draws, supplied⟩ := internalKeys_draws present es vocab
  exact Avoids.adapt (ih.runInitializer c c es _ [] c.name present present plain draws supplied)
    fun e good => Error.not_strays.mpr ((Error.not_strays.mp good).withinType c.name)

include shaped in
theorem invoke_confines (c d : Composite) (ctor : Constructor) (es : List (String × Value))
    (args : Arguments) (fields : List (String × Value)) (owner : String)
    (present : c ∈ r.composites) (dPresent : d ∈ r.composites) (own : d.initializer = .direct ctor)
    (plain : Value.PlainEntries es) (draws : r.Draws c es args) (supplied : r.Supplied d es args) :
    Avoids (Error.Strays r (.map es)) (r.invoke (n + 1) ctor args fields owner) := by
  have shape := shaped d dPresent
  have params : ctor.params = d.properties := by
    have signed := shaped_params shape
    rwa [own] at signed
  have distinct : (ctor.params.map (·.name)).Nodup := by
    have merged := shape.merges.distinct
    rw [own] at merged
    exact merged
  simp only [invoke]
  refine Avoids.exceptBind
    (fun e failed => Error.not_strays.mpr (bind_within params distinct draws supplied failed))
    fun bound bound_ok => ?_
  -- a parameter coerces a keyword of its name, drawn from the data, or its default `null`
  have declaredDrawn : ∀ p ∈ ctor.params, ∀ v, Value.lookup bound.declared p.name = some v →
      v = .null ∨ ∃ key, (key, v) ∈ es ∧ r.Spells key p.externalName := by
    intro p param v found
    rcases Constructor.bound_of_keyword draws.positional bound_ok (Value.mem_of_lookup found)
      with keyword | ⟨q, param', -, isDefault⟩
    · rcases draws.drawn _ keyword with null | ⟨key, vocab, member, internal⟩
      · exact .inl null
      · exact .inr ⟨key, member, .property present dPresent (params ▸ param) internal⟩
    · rcases shape.defaults q (params ▸ param') with required | null
      · rw [required] at isDefault
        cases isDefault
      · rw [null] at isDefault
        cases isDefault
        exact .inl rfl
  -- an extra keyword is drawn from the data and named by its attribute in PascalCase
  have extraDrawn : ∀ e ∈ bound.extra, ∀ special,
      e.2 = .null ∨ ∃ key, (key, e.2) ∈ es ∧ r.Spells key (Naming.snakeToPascal e.1 special) := by
    intro e member special
    rcases draws.drawn _ (Constructor.extra_of_keyword bound_ok member)
      with null | ⟨key, vocab, member', internal⟩
    · exact .inl null
    · exact .inr ⟨key, member', internal ▸ .pascal special present⟩
  refine Avoids.bind (Avoids.foldlM (fun acc p param => ?_) fields) fun fields => ?_
  · split
    · exact Avoids.pure _
    · next v found =>
      exact Avoids.bind (coerce_drawn ih plain (declaredDrawn p param v found) _ _ _)
        fun _ => Avoids.pure _
  · split
    · exact Avoids.pure _
    · refine Avoids.foldlM (fun acc extra member => ?_) fields
      obtain ⟨name, v⟩ := extra
      refine Avoids.bind (Avoids.lift _) fun vocab => ?_
      exact Avoids.bind (coerce_drawn ih plain (extraDrawn _ member _) _ _ _)
        fun _ => Avoids.pure _

include shaped in
theorem runInitializer_confines (c d : Composite) (es : List (String × Value)) (args : Arguments)
    (fields : List (String × Value)) (owner : String) (present : c ∈ r.composites)
    (dPresent : d ∈ r.composites) (plain : Value.PlainEntries es) (draws : r.Draws c es args)
    (supplied : r.Supplied d es args) :
    Avoids (Error.Strays r (.map es)) (r.runInitializer (n + 1) d.initializer args fields owner) := by
  have shape := shaped d dPresent
  cases own : d.initializer with
  | direct ctor =>
    simp only [runInitializer]
    exact ih.invoke c d ctor es args fields owner present dPresent own plain draws supplied
  | combined signature parents =>
    have merges : r.Merges (.combined signature parents) := own ▸ shape.merges
    have params : signature.params = d.properties := by
      have signed := shaped_params shape
      rwa [own] at signed
    have nulls : ∀ p ∈ signature.params, p.default = .required ∨ p.default = .value .null :=
      fun p param => shape.defaults p (params ▸ param)
    simp only [runInitializer]
    refine Avoids.exceptBind (fun e failed => Error.not_strays.mpr
      (bind_within params merges.distinct draws supplied failed)) fun bound bound_ok => ?_
    refine Avoids.foldlM (fun acc parent member => ?_) fields
    refine Avoids.exceptBind (fun e failed => Error.not_strays.mpr
      (Error.within_of_path?_eq_none (composite_error_path? failed))) fun pc found => ?_
    have pcPresent := (composite_ok found).1
    -- each parent gets bound values and extras drawn from the data, one for each parameter
    have fromExtra : (if pc.initializer.signature.acceptsExtra then bound.extra else []) ⊆
        bound.extra := by
      split
      · exact List.Subset.refl _
      · exact List.nil_subset _
    exact ih.runInitializer c pc es _ acc pc.name present pcPresent plain
      (draws.parent bound_ok nulls _ fromExtra)
      (merges.parent_supplied bound_ok member found (shaped pc pcPresent) _
        (fun _ _ named => named) _ es)

theorem coerce_confines (name : String) (h : TypeHandle) (k : Caster) (v : Value)
    (plain : v.Plain) : Avoids (Error.Strays r v) (r.coerce (n + 1) name h k v) := by
  simp only [coerce]
  split
  · exact Avoids.pure v
  · exact Avoids.adapt (ih.castWith k v plain) fun f good =>
      Error.not_strays.mpr ((CastFailure.not_strays.mp good).toError _)

end Succ

/-- In a registry whose composite types are shaped, every cast function fails on plain data
only inside that data, at every bound. -/
theorem confines (shaped : ∀ c ∈ r.composites, c.Shaped r) : ∀ n, Confines r n
  | 0 => confines_zero
  | n + 1 =>
    have ih := confines shaped n
    { castWith := castWith_confines ih
      castPolymorph := castPolymorph_confines ih
      discriminate := discriminate_confines ih
      fromMap := fromMap_confines ih
      construct := construct_confines ih
      runInitializer := runInitializer_confines ih shaped
      invoke := invoke_confines ih shaped
      coerce := coerce_confines ih }

/-- Loading plain data into a composite type of a shaped registry fails only inside the data. -/
theorem fromDict_confines (shaped : ∀ c ∈ r.composites, c.Shaped r) {c : Composite}
    (present : c ∈ r.composites) {data : Value} (plain : data.Plain) :
    Avoids (Error.Strays r data) (r.fromDict c data) := by
  unfold fromDict
  split
  · exact (confines shaped _).fromMap c _ present plain.entries
  · cases plain
  · exact Avoids.throw (Error.not_strays.mpr
      (Error.within_of_root (by rw [Error.path?_withinType]; rfl)))

end Registry

/-- A failure to load plain data into a composite type of a compiled registry locates itself in
the data: its path leads through list positions and keys of the data to a value inside it, or,
at its last step, names a required property that the object there lacks. Each key on the way
is spelled as the data has it, or as a property or the PascalCase form of the attribute the
key is read as. -/
theorem fromDict_failure_located {D : Document} {R : Registry}
    (distinct : (D.definitions.map (·.1)).Nodup) (compiled : D.compile = .ok R)
    {c : Composite} (present : c ∈ R.composites) {data : Value} (plain : data.Plain)
    {vocab : Vocabulary} {e : Error} (failed : ((R.fromDict c data).run' vocab).1 = .error e) :
    ∀ path, e.path? = some path → R.Reaches data path.segments :=
  Error.not_strays.mp
    (Registry.fromDict_confines (compiled_shaped distinct compiled) present plain vocab e failed)

/-- A document with one object type, whose optional property `SampleMass` holds an integer. -/
def massDocument : Document :=
  { title := none, root := none,
    definitions := [("T", ⟨[("type", .str "object"),
      ("properties", .obj [("SampleMass", .obj [("type", .str "integer")])])]⟩)] }

/-- The registry compiled from `massDocument`. -/
def massRegistry : Registry := massDocument.compile.toOption.getD {}

theorem massDocument_compiles : massDocument.compile = .ok massRegistry :=
  Document.compile_of_toBool (by decide +kernel)

/-- The object type of `massDocument`. -/
def massType : Composite :=
  (massRegistry.composite "T").toOption.getD (Composite.empty "T" .custom)

theorem massType_found : massRegistry.composite "T" = .ok massType := by
  unfold massType
  cases found : massRegistry.composite "T" with
  | ok c => rfl
  | error e =>
    have present : (massRegistry.composite "T").toBool = true := by decide +kernel
    rw [found] at present
    cases present

/-- Data that gives the sample mass under its attribute name, as a text. -/
def textMass : Value := .map [("sample_mass", .str "abc")]

/-- The failure of loading `textMass` as `massType`. -/
def textMassFailure : Error :=
  match ((massRegistry.fromDict massType textMass).run' {}).1 with
  | .error e => e
  | .ok _ => .circularReference "T"

theorem textMass_fails :
    ((massRegistry.fromDict massType textMass).run' {}).1 = .error textMassFailure := by
  unfold textMassFailure
  cases loaded : ((massRegistry.fromDict massType textMass).run' {}).1 with
  | error e => rfl
  | ok v =>
    have fails : ((massRegistry.fromDict massType textMass).run' {}).1.toBool = false := by
      decide +kernel
    rw [loaded] at fails
    cases fails

/-- Loading `textMass` fails inside it: the path `SampleMass` names the property that its key
`sample_mass` is read as. -/
theorem textMass_failure_located :
    (massDocument.definitions.map (·.1)).Nodup ∧ massDocument.compile = .ok massRegistry ∧
      massType ∈ massRegistry.composites ∧ textMass.Plain ∧
      ((massRegistry.fromDict massType textMass).run' {}).1 = .error textMassFailure ∧
      ∀ path, textMassFailure.path? = some path → massRegistry.Reaches textMass path.segments := by
  have present := (Registry.composite_ok massType_found).1
  have plain : textMass.Plain := .map fun e member => by
    rw [List.mem_singleton.mp member]
    exact .str _
  exact ⟨by decide, massDocument_compiles, present, plain, textMass_fails,
    fromDict_failure_located (by decide) massDocument_compiles present plain textMass_fails⟩

/-- The failure of loading `{"sample_mass": "abc"}` as `massType` is a type failure at the path
`SampleMass`, which is not a key of the data, and names a property that is not required: the
key `sample_mass` is read as the attribute of the property `SampleMass`, and the failure is named
by the property's external name. -/
theorem sample_mass_reported_as_property :
    massDocument.compile = .ok massRegistry ∧
      ((massRegistry.fromDict massType textMass).run' {}).1 = .error textMassFailure ∧
      textMassFailure.kind = "Type" ∧
      textMassFailure.path? = some ⟨[.field "SampleMass"]⟩ ∧
      "SampleMass" ∉ ["sample_mass"] ∧
      massType.properties.map (·.externalName) = ["SampleMass"] ∧
      massType.properties.map (·.default.value?.isSome) = [true] := by
  refine ⟨massDocument_compiles, textMass_fails, ?_, ?_, by decide, ?_, ?_⟩ <;> decide +kernel

end SchemaTypes
