import SchemaTypes.Proofs.CastSoundness

/-! # Scalars and flat records

Some values come back from their JSON as they were written: `null`, booleans, strings, finite
doubles and integers of the signed 64-bit range (`Value.Scalar`). Timestamps and UUIDs come
back as their texts, instances as maps and enumeration members as their literals.

A *flat record* is a composite type whose instances hold only such scalars: its initializer
binds its own properties and takes no extra fields, its attribute names and its external names
are distinct, and every property casts to a string, an integer, a double or a boolean,
optional or not, required or defaulting to `null` as the compiler makes them.
`Composite.isFlatRecord` decides it. Coercing a value read from JSON to a scalar property
*settles* it: the result is `null` or of the property's kind, and coercing a settled value
again keeps it.
-/

namespace SchemaTypes

/-- A value that reads back from its JSON as itself: `null`, a boolean, a string, a double, or
an integer of the signed 64-bit range. -/
def Value.Scalar : Value → Prop
  | .null | .bool _ | .str _ | .number _ => True
  | .int n => Value.fitsInt n = true
  | _ => False

/-- Every integer of the value, when it is one, lies in the signed 64-bit range: so is every
value read from JSON. -/
def Value.IntFits : Value → Prop
  | .int n => Value.fitsInt n = true
  | _ => True

theorem Value.intFits_ofJson (j : Json) : (Value.ofJson j).IntFits := by
  cases j with
  | int n =>
    simp only [Value.ofJson]
    split
    · next fits => exact fits
    · trivial
  | _ => simp [Value.ofJson, Value.IntFits]

/-- A scalar written as JSON reads back as itself. -/
theorem Value.ofJson_toJson {external : String → String → String} {v : Value} {j : Json}
    (scalar : v.Scalar) (written : v.toJson external = .ok j) : Value.ofJson j = v := by
  cases v with
  | null => cases written; rfl
  | bool b => cases written; rfl
  | str s => cases written; rfl
  | int n => cases written; simp [Value.ofJson, show Value.fitsInt n = true from scalar]
  | number x =>
    simp only [Value.toJson, Value.numberJson] at written
    split at written
    · cases written
    · cases written; rfl
  | _ => exact scalar.elim

/-- A scalar is written as JSON without the external names of any type. -/
theorem Value.toJson_scalar {external external' : String → String → String} {v : Value}
    (scalar : v.Scalar) : v.toJson external = v.toJson external' := by
  cases v <;> first | rfl | exact scalar.elim

namespace NativeType

/-- The native kinds whose values read back from JSON: strings, integers, doubles and
booleans. -/
def isScalar : NativeType → Bool
  | .string | .integer | .number | .boolean => true
  | .dateTime | .uuid => false

/-- A value of a scalar kind with its integer in range is a scalar. -/
theorem scalar_of_admits {t : NativeType} {v : Value} (scalar : t.isScalar = true)
    (admitted : t.admits v = true) (fits : v.IntFits) : v.Scalar := by
  cases t <;> cases v <;> simp_all [isScalar, admits, Value.Scalar, Value.IntFits]

/-- Conversion to a scalar kind gives an integer only in range. -/
theorem convert_intFits {t : NativeType} {v w : Value} (converted : t.convert v = some w) :
    w.IntFits := by
  cases t <;> cases v <;> simp [convert] at converted
  case integer.number x =>
    obtain ⟨n, _, found⟩ := Option.bind_eq_some_iff.mp converted
    split at found
    · next fits => cases found; exact fits
    · cases found
  case integer.str s =>
    obtain ⟨n, read, rfl⟩ := converted
    unfold readInt64 at read
    exact (Option.filter_eq_some_iff.mp read).2
  case integer.bool b =>
    subst converted
    show Value.fitsInt _ = true
    cases b <;> decide
  case boolean.int n =>
    by_cases zero : n = 0
    · subst zero; simp at converted; subst converted; trivial
    by_cases one : n = 1
    · subst one; simp at converted; subst converted; trivial
    simp [zero, one] at converted
  case boolean.str s =>
    split at converted
    · cases converted; trivial
    · cases converted; trivial
    · cases converted
  all_goals obtain ⟨_, _, rfl⟩ := converted; trivial

end NativeType

theorem NativeType.cast_intFits {t : NativeType} {v w : Value} (fits : v.IntFits)
    (cast : t.cast v = some w) : w.IntFits := by
  unfold NativeType.cast at cast
  split at cast
  · cases cast; exact fits
  · exact NativeType.convert_intFits cast

/-- Whether a default is none or `null`, the two the compiler gives. -/
def PropertyDefault.isNullOrRequired : PropertyDefault → Bool
  | .required | .value .null => true
  | .value _ => false

/-- The attribute name and the external name of a property. -/
def Property.names (p : Property) : String × String := (p.name, p.externalName)

/-- Whether a property holds a scalar of one native kind: it casts to the kind, its constraint
is the kind or the kind made optional, and it is required or defaults to `null`. -/
def Property.isScalar (p : Property) : Bool :=
  match p.caster with
  | .native t =>
    t.isScalar && (p.constraint.same (.native t) || p.constraint.same (.optional (.native t))) &&
      p.default.isNullOrRequired
  | _ => false

/-- A scalar property: the kind it casts to, and how it is constrained and defaulted. -/
structure Property.ScalarOf (p : Property) (t : NativeType) : Prop where
  kind : t.isScalar = true
  caster : p.caster = .native t
  constraint : p.constraint = .native t ∨ p.constraint = .optional (.native t)
  default : p.default = .required ∨ p.default = .value .null

theorem Property.scalarOf_of_isScalar {p : Property} (scalar : p.isScalar = true) :
    ∃ t, p.ScalarOf t := by
  unfold Property.isScalar at scalar
  split at scalar
  · next t caster =>
    simp only [Bool.and_eq_true, Bool.or_eq_true] at scalar
    obtain ⟨⟨kind, constraint⟩, default⟩ := scalar
    refine ⟨t, kind, caster, ?_, ?_⟩
    · rcases constraint with same | same
      · exact .inl (TypeHandle.eq_of_same _ _ same)
      · exact .inr (TypeHandle.eq_of_same _ _ same)
    · unfold PropertyDefault.isNullOrRequired at default
      split at default
      · next required => exact .inl required
      · next null => exact .inr null
      · cases default
  · cases scalar

/-- Instances of a composite type are flat records of scalars: its initializer binds its own
properties and takes no extra fields, and its properties have distinct attribute names,
distinct external names and scalar kinds. -/
structure Composite.FlatRecord (c : Composite) (ctor : Constructor) : Prop where
  direct : c.initializer = .direct ctor
  noCatchAll : ctor.catchAll = none
  names : ctor.params.map Property.names = c.properties.map Property.names
  distinct : (c.properties.map (·.name)).Nodup
  distinctExternal : (c.properties.map (·.externalName)).Nodup
  scalar : ∀ p ∈ ctor.params, p.isScalar = true

/-- Whether instances of a composite type are flat records of scalars. -/
def Composite.isFlatRecord (c : Composite) : Bool :=
  match c.initializer with
  | .direct ctor =>
    ctor.catchAll.isNone && ctor.params.map Property.names == c.properties.map Property.names &&
      decide (c.properties.map (·.name)).Nodup &&
      decide (c.properties.map (·.externalName)).Nodup && ctor.params.all Property.isScalar
  | .combined .. => false

theorem Composite.flatRecord_of_isFlatRecord {c : Composite} (flat : c.isFlatRecord = true) :
    ∃ ctor, c.FlatRecord ctor := by
  unfold Composite.isFlatRecord at flat
  split at flat
  · next ctor direct =>
    simp only [Bool.and_eq_true, Option.isNone_iff_eq_none, beq_iff_eq, decide_eq_true_eq,
      List.all_eq_true] at flat
    obtain ⟨⟨⟨⟨noCatchAll, names⟩, distinct⟩, distinctExternal⟩, scalar⟩ := flat
    exact ⟨ctor, direct, noCatchAll, names, distinct, distinctExternal, scalar⟩
  · cases flat

/-- Among items with distinct keys, looking up a member's key finds that member. -/
theorem find?_key_of_nodup {α : Type} {ps : List α} {key : α → String}
    (distinct : (ps.map key).Nodup) {q : α} (member : q ∈ ps) :
    ps.find? (fun x => key x == key q) = some q := by
  obtain ⟨q', found⟩ : ∃ q', ps.find? (fun x => key x == key q) = some q' :=
    Option.isSome_iff_exists.mp (List.find?_isSome.mpr ⟨q, member, by simp⟩)
  have present := List.mem_of_find?_eq_some found
  have sameKey : key q' = key q := by simpa using List.find?_some found
  rw [found, List.inj_on_of_nodup_map distinct present member sameKey]

namespace Composite.FlatRecord

variable {c : Composite} {ctor : Constructor} (flat : c.FlatRecord ctor)
include flat

theorem paramsDistinct : (ctor.params.map (·.name)).Nodup := by
  have same : ctor.params.map (·.name) = c.properties.map (·.name) := by
    have := congrArg (List.map Prod.fst) flat.names
    simpa [List.map_map, Function.comp_def, Property.names] using this
  rw [same]
  exact flat.distinct

theorem paramsDistinctExternal : (ctor.params.map (·.externalName)).Nodup := by
  have same : ctor.params.map (·.externalName) = c.properties.map (·.externalName) := by
    have := congrArg (List.map Prod.snd) flat.names
    simpa [List.map_map, Function.comp_def, Property.names] using this
  rw [same]
  exact flat.distinctExternal

/-- A parameter is the property of its attribute name and of its external name. -/
theorem property {p : Property} (param : p ∈ ctor.params) :
    ∃ q ∈ c.properties, q.name = p.name ∧ q.externalName = p.externalName := by
  have paired : p.names ∈ c.properties.map Property.names :=
    flat.names ▸ List.mem_map_of_mem param
  obtain ⟨q, member, same⟩ := List.mem_map.mp paired
  exact ⟨q, member, congrArg Prod.fst same, congrArg Prod.snd same⟩

theorem property?_eq {p : Property} (param : p ∈ ctor.params) :
    ∃ q, c.property? p.name = some q ∧ q.externalName = p.externalName := by
  obtain ⟨q, member, named, external⟩ := flat.property param
  refine ⟨q, ?_, external⟩
  rw [Composite.property?, ← named]
  exact find?_key_of_nodup flat.distinct member

theorem findExternal_eq {p : Property} (param : p ∈ ctor.params) :
    ∃ q, c.properties.find? (·.externalName == p.externalName) = some q ∧ q.name = p.name := by
  obtain ⟨q, member, named, external⟩ := flat.property param
  refine ⟨q, ?_, named⟩
  rw [← external]
  exact find?_key_of_nodup flat.distinctExternal member

end Composite.FlatRecord

/-- A value a property of kind `t` keeps when it is loaded again: `null` or of the kind, and read
back from its JSON as itself. -/
def Value.SettledAs (t : NativeType) (v : Value) : Prop :=
  v.Scalar ∧ (v = .null ∨ t.admits v = true)

/-- A value a scalar property holds after loading: settled for the property's kind. -/
def Property.Settles (p : Property) (v : Value) : Prop :=
  ∃ t, p.ScalarOf t ∧ v.SettledAs t

namespace Registry

variable {r : Registry}

/-- Coercing a value read from JSON to a scalar property settles it. -/
theorem coerce_settles {n : Nat} {name : String} {p : Property} {t : NativeType}
    (scalar : p.ScalarOf t) {v w : Value} (fits : v.IntFits)
    (yields : Yields (r.coerce n name p.constraint p.caster v) w) : w.SettledAs t := by
  cases n with
  | zero => rw [coerce] at yields; exact (Yields.throw_inv yields).elim
  | succ n =>
    simp only [coerce] at yields
    split at yields
    · next kept =>
      rw [Yields.pure_inv yields]
      -- a value taken as it is: `null`, or of the kind since the constraint is the kind
      have admitted : v = .null ∨ t.admits v = true := by
        rcases Bool.or_eq_true _ _ |>.mp kept with null | conforming
        · exact .inl (Value.eq_null_of_isNull null)
        · rcases scalar.constraint with same | same <;> rw [same] at conforming
          · exact .inr conforming
          · simp only [conforms, Bool.or_eq_true] at conforming
            exact conforming.imp Value.eq_null_of_isNull id
      rcases admitted with null | admitted
      · subst null; exact ⟨trivial, .inl rfl⟩
      · exact ⟨NativeType.scalar_of_admits scalar.kind admitted fits, .inr admitted⟩
    · have casting := Yields.adapt_inv yields
      rw [scalar.caster] at casting
      cases n with
      | zero => rw [castWith] at casting; exact (Yields.throw_inv casting).elim
      | succ n =>
        simp only [castWith] at casting
        split at casting
        · next v' converted =>
          rw [Yields.pure_inv casting]
          have admitted := NativeType.admits_of_cast converted
          exact ⟨NativeType.scalar_of_admits scalar.kind admitted
            (NativeType.cast_intFits fits converted), .inr admitted⟩
        · exact (Yields.throw_inv casting).elim

/-- Coercing a settled value to its scalar property keeps it. -/
theorem coerce_keeps {n : Nat} {name : String} {p : Property} {t : NativeType}
    (scalar : p.ScalarOf t) {v : Value} (settled : v.SettledAs t) :
    Returns (r.coerce (n + 1) name p.constraint p.caster v) v := by
  have kept : (v.isNull || r.conforms v p.constraint) = true := by
    rcases settled.2 with null | admitted
    · subst null; rfl
    · rcases scalar.constraint with same | same <;> simp [same, conforms, admitted]
  simp only [coerce, if_pos kept]
  exact Returns.pure v

end Registry

end SchemaTypes
