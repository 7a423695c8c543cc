import SchemaTypes.Proofs.CompiledRegistry

/-! # Casts give values of their declared type

A registry pairs every handle with a caster, and a sound registry pairs them so that they
`Agree`. This module shows that the pairing is honest: whatever a cast gives, at any bound
and from any special names, `Fits` the handle. The proof is one induction on the bound of
the cast functions (`Faithful`): a native cast converts into its kind, a list cast casts
every item, an enumeration cast finds a member, a composite cast loads an instance of the
class of the name, and a polymorph dispatches to a branch whose caster agrees with a member
of the union.

Two readings in `Fits` are not conformance. A union paired with the identity caster is never
cast to, so any value fits it. And a polymorph keeps as it is an instance whose type inherits
from one of its branch targets; when a branch name is taken by another definition that
instance is of no member of the union, as `kept_instance_outside_union` shows.

Building an instance coerces every argument to its parameter, so what an initializer stores
is `null` or fits the parameter it is stored under, or the catch-all for an extra name.
-/

namespace SchemaTypes

/-- Every conversion gives a value of the kind it converts to. -/
theorem NativeType.admits_of_convert {t : NativeType} {v w : Value}
    (converted : t.convert v = some w) : t.admits w = true := by
  cases t <;> cases v <;> simp [NativeType.convert] at converted
  case integer.number x =>
    obtain ⟨n, _, found⟩ := Option.bind_eq_some_iff.mp converted
    split at found
    · cases found; rfl
    · cases found
  case boolean.int n =>
    -- only `0` and `1` convert
    by_cases zero : n = 0
    · subst zero; simp at converted; subst converted; rfl
    by_cases one : n = 1
    · subst one; simp at converted; subst converted; rfl
    simp [zero, one] at converted
  case boolean.str s =>
    split at converted
    · cases converted; rfl
    · cases converted; rfl
    · cases converted
  all_goals obtain ⟨_, _, rfl⟩ := converted; rfl

/-- A native cast gives a value of the native kind. -/
theorem NativeType.admits_of_cast {t : NativeType} {v w : Value} (cast : t.cast v = some w) :
    t.admits w = true := by
  unfold NativeType.cast at cast
  split at cast
  · next admitted => cases cast; exact admitted
  · exact NativeType.admits_of_convert cast

theorem Value.eq_null_of_isNull {v : Value} (null : v.isNull = true) : v = .null := by
  cases v <;> simp_all [Value.isNull]

theorem Value.mem_setEntry {entries : List (String × Value)} {key x : String} {value v : Value}
    (member : (x, v) ∈ Value.setEntry entries key value) :
    (x = key ∧ v = value) ∨ (x, v) ∈ entries := by
  unfold Value.setEntry at member
  split at member
  · obtain ⟨⟨y, u⟩, old, same⟩ := List.mem_map.mp member
    split at same
    · obtain ⟨rfl, rfl⟩ := Prod.mk.inj same
      exact .inl ⟨rfl, rfl⟩
    · exact .inr (same ▸ old)
  · rcases List.mem_append.mp member with old | new
    · exact .inr old
    · obtain ⟨rfl, rfl⟩ := Prod.mk.inj (List.mem_singleton.mp new)
      exact .inl ⟨rfl, rfl⟩

namespace Registry

variable {r : Registry}

/-- Every type is a subtype of itself. -/
theorem isSubtype_self (name : String) : r.isSubtype name name = true := by
  simp [isSubtype]

end Registry

/-- The member an enumeration finds for a value is one of its members. -/
theorem EnumType.mem_of_lookup {et : EnumType} {v : Value} {m : EnumMember}
    (found : et.lookup v = some m) : m ∈ et.members := by
  unfold EnumType.lookup at found
  split at found
  · split at found
    · exact List.mem_of_find?_eq_some found
    · cases found
  · obtain ⟨id, _, byId⟩ := Option.bind_eq_some_iff.mp found
    exact List.mem_of_find?_eq_some byId
  · obtain ⟨id, _, byId⟩ := Option.bind_eq_some_iff.mp found
    exact List.mem_of_find?_eq_some byId

namespace Registry

variable {r : Registry}

/-- In a sound registry the class a name stands for is the composite type of that name. -/
theorem Sound.classOf_name {name : String} {c : Composite} (sound : r.Sound)
    (found : r.classOf name = .ok c) : c.name = name := by
  unfold classOf at found
  split at found
  · next entryName target caster definition category lookup =>
    obtain ⟨entered, entryNamed⟩ := find?_named lookup
    have own := sound.compositeHandles _ entered target rfl
    simp only at entryNamed own
    rw [(composite_ok found).2, own, entryNamed]
  · exact (composite_ok found).2

/-- Loading an instance of a composite type gives an instance of that type. -/
theorem fromMap_yields {n : Nat} {c : Composite} {raw : List (String × Value)} {w : Value}
    (yields : Yields (r.fromMap n c raw) w) : ∃ fields, w = .object c.name fields := by
  cases n with
  | zero => rw [fromMap] at yields; exact (Yields.throw_inv yields).elim
  | succ n =>
    rw [fromMap] at yields
    obtain ⟨keyword, -, building⟩ := Yields.bind_inv yields
    obtain ⟨fields, -, made⟩ := Yields.bind_inv building
    exact ⟨fields, Yields.pure_inv made⟩

/-- An instance loaded as the class of a name fits the composite handle of that name. -/
theorem Sound.loaded_fits {n : Nat} {name : String} {c : Composite}
    {raw : List (String × Value)} {w : Value} (sound : r.Sound) (found : r.classOf name = .ok c)
    (yields : Yields (r.fromMap n c raw) w) : Fits r w (.composite name) (.composite name) := by
  obtain ⟨fields, rfl⟩ := fromMap_yields yields
  rw [sound.classOf_name found]
  exact .conforms (by simp [conforms, isSubtype_self])

/-- Every value a cast function gives at one bound fits the handle that agrees with its
caster. -/
structure Faithful (r : Registry) (n : Nat) : Prop where
  castWith : ∀ {h : TypeHandle} {k : Caster} {v w : Value}, Agree h k →
    Yields (r.castWith n k v) w → Fits r w h k
  castPolymorph : ∀ {members : List TypeHandle} {c : Caster} {v w : Value},
    c.isPolymorph = true → (∀ k ∈ c.branchCasters, AgreeAmong members k) →
    Yields (r.castPolymorph n c v) w → Fits r w (.union members) c
  discriminate : ∀ {members : List TypeHandle} {c : Caster} {data : List (String × Value)}
    {w : Value}, (∀ k ∈ c.branchCasters, AgreeAmong members k) →
    Yields (r.discriminate n c data) w → Fits r w (.union members) c

theorem faithful_zero : Faithful r 0 where
  castWith _ yields := by rw [castWith] at yields; exact (Yields.throw_inv yields).elim
  castPolymorph _ _ yields := by rw [castPolymorph] at yields; exact (Yields.throw_inv yields).elim
  discriminate _ yields := by rw [discriminate] at yields; exact (Yields.throw_inv yields).elim

section Succ

variable {n : Nat} (ih : Faithful r n)
include ih

theorem castPolymorph_faithful {members : List TypeHandle} {c : Caster} {v w : Value}
    (polymorph : c.isPolymorph = true) (branches : ∀ k ∈ c.branchCasters, AgreeAmong members k)
    (yields : Yields (r.castPolymorph (n + 1) c v) w) : Fits r w (.union members) c := by
  cases v
  case object t fs =>
    simp only [castPolymorph] at yields
    split at yields
    · next kept => rw [Yields.pure_inv yields]; exact .kept polymorph kept
    · exact (Yields.throw_inv yields).elim
  case map es =>
    simp only [castPolymorph] at yields
    exact ih.discriminate branches (Yields.adapt_inv yields)
  all_goals simp only [castPolymorph] at yields; exact (Yields.throw_inv yields).elim

theorem discriminate_faithful {members : List TypeHandle} {c : Caster}
    {data : List (String × Value)} {w : Value}
    (branches : ∀ k ∈ c.branchCasters, AgreeAmong members k)
    (yields : Yields (r.discriminate (n + 1) c data) w) : Fits r w (.union members) c := by
  simp only [discriminate] at yields
  obtain ⟨⟨target, k⟩, choosing, casting⟩ := Yields.bind_inv yields
  have branch := selectBranch_mem (Yields.ofExcept_inv choosing)
  obtain ⟨h, member, agree⟩ := agreeAmong_iff.mp (branches k branch)
  exact .branch branch member (ih.castWith agree (Yields.adapt_inv casting))

theorem castWith_faithful (sound : r.Sound) {h : TypeHandle} {k : Caster} {v w : Value}
    (agree : Agree h k) (yields : Yields (r.castWith (n + 1) k v) w) : Fits r w h k := by
  -- only an optional handle leads back to the same caster, so the induction is on the size
  -- of the handle
  suffices peeled : ∀ m, ∀ {h}, sizeOf h < m → Agree h k → Fits r w h k from
    peeled _ (Nat.lt_succ_self _) agree
  clear agree
  intro m
  induction m with
  | zero => intro h small; exact absurd small (Nat.not_lt_zero _)
  | succ m inner => ?_
  intro h small agree
  cases agree with
  | any =>
    simp only [castWith] at yields
    rw [Yields.pure_inv yields]
    exact .conforms (by simp [conforms])
  | plain _ => exact .plain
  | native t =>
    simp only [castWith] at yields
    split at yields
    · next cast =>
      rw [Yields.pure_inv yields]
      exact .conforms (by simpa [conforms] using NativeType.admits_of_cast cast)
    · exact (Yields.throw_inv yields).elim
  | @list _ _ agree =>
    cases v
    case list xs =>
      simp only [castWith] at yields
      obtain ⟨items, casting, made⟩ := Yields.bind_inv yields
      rw [Yields.pure_inv made]
      refine .list fun y member => ?_
      obtain ⟨⟨x, ix⟩, -, cast⟩ :=
        Compiler.forall₂_mem_right (Yields.mapM_inv casting) member
      exact ih.castWith agree (Yields.adapt_inv cast)
    all_goals simp only [castWith] at yields; exact (Yields.throw_inv yields).elim
  | @optional inside _ agree =>
    have smaller : sizeOf inside < m := by
      simp only [TypeHandle.optional.sizeOf_spec] at small
      omega
    exact .optional (inner smaller agree)
  | enum name =>
    simp only [castWith] at yields
    split at yields
    · exact (Yields.throw_inv yields).elim
    · next et found =>
      split at yields
      · next m lookedUp =>
        rw [Yields.pure_inv yields]
        obtain ⟨present, named⟩ := enumType_ok found
        have belongs := sound.enumMembers et present m (EnumType.mem_of_lookup lookedUp)
        exact .conforms (by simp [conforms, belongs, named])
      · exact (Yields.throw_inv yields).elim
  | composite name =>
    -- an instance of a subtype is kept; anything else is loaded as the class of the name
    cases v
    case object t fs =>
      simp only [castWith] at yields
      split at yields
      · next subtype =>
        rw [Yields.pure_inv yields]
        exact .conforms (by simpa [conforms] using subtype)
      · obtain ⟨c, finding, loading⟩ := Yields.bind_inv (Yields.adapt_inv yields)
        obtain ⟨raw, -, building⟩ := Yields.bind_inv loading
        exact sound.loaded_fits (Yields.ofExcept_inv finding) building
    case map es =>
      simp only [castWith] at yields
      obtain ⟨c, finding, building⟩ := Yields.bind_inv (Yields.adapt_inv yields)
      exact sound.loaded_fits (Yields.ofExcept_inv finding) building
    all_goals simp only [castWith] at yields; exact (Yields.throw_inv yields).elim
  | @polymorph _ _ polymorph branches =>
    cases k
    case keyed property mapping =>
      simp only [castWith] at yields
      exact ih.castPolymorph polymorph branches yields
    case conditional branches' =>
      simp only [castWith] at yields
      exact ih.castPolymorph polymorph branches yields
    all_goals simp [Caster.isPolymorph] at polymorph

end Succ

/-- In a sound registry every value a cast function gives fits the handle that agrees with its
caster, at every bound. -/
theorem Sound.faithful (sound : r.Sound) : ∀ n, Faithful r n
  | 0 => faithful_zero
  | n + 1 =>
    have ih := sound.faithful n
    { castWith := castWith_faithful ih sound
      castPolymorph := castPolymorph_faithful ih
      discriminate := discriminate_faithful ih }

/-- A cast gives a value that fits every handle agreeing with the caster. -/
theorem Sound.cast_fits {h : TypeHandle} {k : Caster} {v w : Value} (sound : r.Sound)
    (agree : Agree h k) (yields : Yields (r.cast k v) w) : Fits r w h k :=
  (sound.faithful _).castWith agree (Yields.adapt_inv yields)

/-- Coercion keeps `null` and values that conform, and casts the others: what it gives is
`null` or fits the constraint. -/
theorem Sound.coerce_fits {n : Nat} {name : String} {h : TypeHandle} {k : Caster} {v w : Value}
    (sound : r.Sound) (agree : Agree h k) (yields : Yields (r.coerce n name h k v) w) :
    w = .null ∨ Fits r w h k := by
  cases n with
  | zero => rw [coerce] at yields; exact (Yields.throw_inv yields).elim
  | succ n =>
    simp only [coerce] at yields
    split at yields
    · next kept =>
      rw [Yields.pure_inv yields]
      rcases Bool.or_eq_true _ _ |>.mp kept with null | conforming
      · exact .inl (Value.eq_null_of_isNull null)
      · exact .inr (.conforms conforming)
    · exact .inr ((sound.faithful n).castWith agree (Yields.adapt_inv yields))

end Registry

/-- What a constructor may store under a name: `null`, a value that fits the parameter of that
name, or a value that fits the catch-all. -/
def Constructor.Accepts (r : Registry) (ctor : Constructor) (x : String) (v : Value) : Prop :=
  v = .null ∨ (∃ p ∈ ctor.params, p.name = x ∧ Fits r v p.constraint p.caster) ∨
    ∃ ca, ctor.catchAll = some ca ∧ Fits r v ca.constraint ca.caster

/-- The parameters and the catch-all of a constructor agree with their casters. -/
def Constructor.Agrees (ctor : Constructor) : Prop :=
  (∀ p ∈ ctor.params, Agree p.constraint p.caster) ∧
    ∀ ca, ctor.catchAll = some ca → Agree ca.constraint ca.caster

/-- The direct constructor of a composite type that agrees with its casters agrees with
them. -/
theorem Composite.Agrees.direct {c : Composite} {ctor : Constructor} (agrees : c.Agrees)
    (direct : c.initializer = .direct ctor) : ctor.Agrees := by
  obtain ⟨-, -, params, catchAll⟩ := agrees
  rw [direct] at params catchAll
  exact ⟨params, catchAll⟩

namespace Registry

/-- The constructors an initializer runs: its own, or those the initializers of its parents
run. -/
inductive Runs (r : Registry) : Initializer → Constructor → Prop
  | direct (ctor : Constructor) : Runs r (.direct ctor) ctor
  | parent {signature : Constructor} {parents : List String} {name : String} {pc : Composite}
      {ctor : Constructor} : name ∈ parents → r.composite name = .ok pc →
      Runs r pc.initializer ctor → Runs r (.combined signature parents) ctor

/-- The fields `fs` keep the fields `fields` and add only values that one of the constructors
`ran` accepts under their names. -/
def Extends (r : Registry) (ran : Constructor → Prop) (fields fs : List (String × Value)) :
    Prop :=
  ∀ x v, (x, v) ∈ fs → (x, v) ∈ fields ∨ ∃ ctor, ran ctor ∧ ctor.Accepts r x v

variable {r : Registry} {ran : Constructor → Prop} {fields fs : List (String × Value)}

theorem Extends.refl : r.Extends ran fields fields :=
  fun _ _ member => .inl member

theorem Extends.trans {gs : List (String × Value)} (first : r.Extends ran fields fs)
    (second : r.Extends ran fs gs) : r.Extends ran fields gs := by
  intro x v member
  rcases second x v member with old | accepted
  · exact first x v old
  · exact .inr accepted

theorem Extends.mono {ran' : Constructor → Prop} (sub : ∀ ctor, ran ctor → ran' ctor)
    (extended : r.Extends ran fields fs) : r.Extends ran' fields fs := by
  intro x v member
  rcases extended x v member with old | ⟨ctor, ranIt, accepts⟩
  · exact .inl old
  · exact .inr ⟨ctor, sub ctor ranIt, accepts⟩

theorem Extends.setEntry {ctor : Constructor} {x : String} {v : Value}
    (extended : r.Extends ran fields fs) (ranIt : ran ctor) (accepts : ctor.Accepts r x v) :
    r.Extends ran fields (Value.setEntry fs x v) := by
  intro y u member
  rcases Value.mem_setEntry member with ⟨rfl, rfl⟩ | old
  · exact .inr ⟨ctor, ranIt, accepts⟩
  · exact extended y u old

/-- A constructor whose parameters agree with their casters stores under each parameter
`null` or a value that fits it, and under every other name a value that fits its catch-all. -/
theorem Sound.invoke_extends {n : Nat} {ctor : Constructor} {args : Arguments}
    {fields fs : List (String × Value)} {owner : String} (sound : r.Sound) (agrees : ctor.Agrees)
    (yields : Yields (r.invoke n ctor args fields owner) fs) : r.Extends (· = ctor) fields fs := by
  cases n with
  | zero => rw [invoke] at yields; exact (Yields.throw_inv yields).elim
  | succ n =>
    simp only [invoke] at yields
    obtain ⟨bound, -, binding⟩ := Yields.bind_inv yields
    obtain ⟨declared, params, extras⟩ := Yields.bind_inv binding
    -- first every bound parameter, then every extra argument through the catch-all
    have paramsStored : r.Extends (· = ctor) fields declared := by
      refine Yields.foldlM_inv (r.Extends (· = ctor) fields) ?_ fields declared .refl params
      intro acc p member acc' extended step
      split at step
      · rw [Yields.pure_inv step]; exact extended
      · obtain ⟨v', coerced, stored⟩ := Yields.bind_inv step
        rw [Yields.pure_inv stored]
        refine extended.setEntry rfl ?_
        rcases sound.coerce_fits (agrees.1 p member) (Yields.adapt_inv coerced) with null | fits
        · exact .inl null
        · exact .inr (.inl ⟨p, member, rfl, fits⟩)
    split at extras
    · rw [Yields.pure_inv extras]; exact paramsStored
    · next ca given =>
      refine Yields.foldlM_inv (r.Extends (· = ctor) fields) ?_ declared fs paramsStored extras
      intro acc extra member acc' extended step
      obtain ⟨name, v⟩ := extra
      obtain ⟨vocab, -, keyed⟩ := Yields.bind_inv step
      obtain ⟨v', coerced, stored⟩ := Yields.bind_inv keyed
      rw [Yields.pure_inv stored]
      refine extended.setEntry rfl ?_
      rcases sound.coerce_fits (agrees.2 ca given) (Yields.adapt_inv coerced) with null | fits
      · exact .inl null
      · exact .inr (.inr ⟨ca, given, fits⟩)

/-- Every constructor an initializer runs agrees with its casters when its own constructor
does, since the others belong to composite types of the registry. -/
theorem Sound.runs_agrees {init : Initializer} {ctor : Constructor} (sound : r.Sound)
    (own : ∀ c, init = .direct c → c.Agrees) (runs : Runs r init ctor) : ctor.Agrees := by
  induction runs with
  | direct ctor => exact own ctor rfl
  | parent _ found _ inductionHypothesis =>
    exact inductionHypothesis fun c direct =>
      (sound.compositesAgree _ (composite_ok found).1).direct direct

/-- What an initializer stores is accepted by one of the constructors it runs. -/
theorem Sound.runInitializer_extends (sound : r.Sound) :
    ∀ {n : Nat} {init : Initializer} {args : Arguments} {fields fs : List (String × Value)}
      {owner : String}, (∀ ctor, Runs r init ctor → ctor.Agrees) →
      Yields (r.runInitializer n init args fields owner) fs → r.Extends (Runs r init) fields fs
  | 0, _, _, _, _, _, _, yields => by
    rw [runInitializer] at yields
    exact (Yields.throw_inv yields).elim
  | n + 1, .direct ctor, _, _, _, _, agrees, yields => by
    simp only [runInitializer] at yields
    refine (sound.invoke_extends (agrees ctor (.direct ctor)) yields).mono ?_
    rintro _ rfl
    exact .direct _
  | n + 1, .combined signature parents, _, fields, fs, _, agrees, yields => by
    simp only [runInitializer] at yields
    obtain ⟨bound, -, running⟩ := Yields.bind_inv yields
    -- each parent's initializer runs after the others, adding fields it accepts
    refine Yields.foldlM_inv (r.Extends (Runs r (.combined signature parents)) fields) ?_ fields fs
      .refl running
    intro acc parent member acc' extended step
    obtain ⟨pc, finding, parentRun⟩ := Yields.bind_inv step
    have found := Yields.ofExcept_inv finding
    have ranByParent : ∀ ctor, Runs r pc.initializer ctor →
        Runs r (.combined signature parents) ctor :=
      fun ctor runs => .parent member found runs
    exact extended.trans ((sound.runInitializer_extends
      (fun ctor runs => agrees ctor (ranByParent ctor runs)) parentRun).mono ranByParent)

/-- The initializer of a composite type of a sound registry agrees with its casters in every
constructor it runs. -/
theorem Sound.initializer_agrees {c : Composite} (sound : r.Sound) (present : c ∈ r.composites)
    {ctor : Constructor} (runs : Runs r c.initializer ctor) : ctor.Agrees :=
  sound.runs_agrees (fun _ direct => (sound.compositesAgree c present).direct direct) runs

/-- Building an instance of a composite type stores under every name a value that one of the
constructors of its initializer accepts. -/
theorem Sound.construct_accepts {n : Nat} {c : Composite} {args : Arguments}
    {fs : List (String × Value)} (sound : r.Sound) (present : c ∈ r.composites)
    (yields : Yields (r.construct n c args) fs) :
    ∀ x v, (x, v) ∈ fs → ∃ ctor, Runs r c.initializer ctor ∧ ctor.Accepts r x v := by
  cases n with
  | zero => rw [construct] at yields; exact (Yields.throw_inv yields).elim
  | succ n =>
    simp only [construct] at yields
    intro x v member
    rcases sound.runInitializer_extends (fun _ => sound.initializer_agrees present)
      (Yields.adapt_inv yields) x v member with none | accepted
    · cases none
    · exact accepted

/-- Casting with `k`, and coercing to `h` with `k`, give values that fit `h`. -/
def CastsInto (r : Registry) (h : TypeHandle) (k : Caster) : Prop :=
  (∀ v w vocab vocab', (r.cast k v).run' vocab = (.ok w, vocab') → Fits r w h k) ∧
    ∀ n name v w vocab vocab', (r.coerce n name h k v).run' vocab = (.ok w, vocab') →
      w ≠ .null → Fits r w h k

theorem Sound.castsInto {h : TypeHandle} {k : Caster} (sound : r.Sound) (agree : Agree h k) :
    r.CastsInto h k := by
  constructor
  · intro v w vocab vocab' ran
    exact sound.cast_fits agree ⟨vocab, vocab', ran⟩
  · intro n name v w vocab vocab' ran present
    exact (sound.coerce_fits agree ⟨vocab, vocab', ran⟩).resolve_left present

end Registry

/-- Casting through a registry respects the declared types: the casters of its entries, of
the properties and of the catch-alls of its composite types give values that fit their
handles, and building an instance stores only values its constructors accept. -/
structure CastsFit (R : Registry) : Prop where
  entries : ∀ e ∈ R.entries, R.CastsInto e.handle e.caster
  properties : ∀ c ∈ R.composites, ∀ p ∈ c.properties, R.CastsInto p.constraint p.caster
  catchAll : ∀ c ∈ R.composites, ∀ ca, c.catchAll = some ca →
    R.CastsInto ca.constraint ca.caster
  stored : ∀ c ∈ R.composites, ∀ n args fs vocab vocab',
    (R.construct n c args).run' vocab = (.ok fs, vocab') →
    ∀ x v, (x, v) ∈ fs → ∃ ctor, R.Runs c.initializer ctor ∧ ctor.Accepts R x v

theorem Registry.Sound.castsFit {R : Registry} (sound : R.Sound) : CastsFit R where
  entries e present := sound.castsInto (sound.entriesAgree e present)
  properties c present p member := sound.castsInto ((sound.compositesAgree c present).1 p member)
  catchAll c present ca given := sound.castsInto ((sound.compositesAgree c present).2.1 ca given)
  stored _ present _ _ _ vocab vocab' ran :=
    sound.construct_accepts present ⟨vocab, vocab', ran⟩

/-- Every cast through a compiled registry gives a value of the declared type. -/
theorem compiled_casts_fit {D : Document} {R : Registry}
    (distinct : (D.definitions.map (·.1)).Nodup) (compiled : D.compile = .ok R) : CastsFit R :=
  (compile_compiled distinct compiled).sound.castsFit

theorem kennel_casts_fit : CastsFit kennelRegistry :=
  compiled_casts_fit (by decide) kennel_compiles

/-- A conditional polymorph whose branch name is taken by an object definition. -/
def shadowedBranch : Document :=
  { title := none, root := none,
    definitions := [
      ("P", ⟨[("allOf", .arr [.obj [
        ("if", .obj [("properties", .obj [("K", .obj [("const", .str "a")])])]),
        ("then", .obj [("type", .str "integer")])]])]⟩),
      ("P_Option0", ⟨[("type", .str "object"),
        ("properties", .obj [("K", .obj [("type", .str "string")])])]⟩)] }

/-- The registry compiled from `shadowedBranch`. -/
def shadowedBranchRegistry : Registry := shadowedBranch.compile.toOption.getD {}

theorem shadowedBranch_compiles : shadowedBranch.compile = .ok shadowedBranchRegistry :=
  Document.compile_of_toBool (by decide +kernel)

/-- The instance `P_Option0(k="b")`, as loading `{"K": "b"}` builds it. -/
def shadowingInstance : Value := .object "P_Option0" [("k", .str "b")]

/-- A polymorph keeps an instance of its branch target as it is, and that instance need not
conform to the union of branch handles: here in the registry compiled from `shadowedBranch`. -/
theorem kept_instance_outside_union :
    shadowedBranch.compile = .ok shadowedBranchRegistry ∧
    ∃ e w vocab', shadowedBranchRegistry.entry "P" = .ok e ∧
      (shadowedBranchRegistry.cast e.caster shadowingInstance).run'
        shadowedBranchRegistry.vocabulary = (.ok w, vocab') ∧
      w.label = "P_Option0" ∧ shadowedBranchRegistry.conforms w e.handle = false := by
  refine ⟨shadowedBranch_compiles, ?_⟩
  have checked : (match shadowedBranchRegistry.entry "P" with
      | .ok e =>
        match ((shadowedBranchRegistry.cast e.caster shadowingInstance).run'
          shadowedBranchRegistry.vocabulary).1 with
        | .ok w => w.label == "P_Option0" && !shadowedBranchRegistry.conforms w e.handle
        | .error _ => false
      | .error _ => false) = true := by
    decide +kernel
  cases found : shadowedBranchRegistry.entry "P" with
  | error _ => rw [found] at checked; cases checked
  | ok e =>
    rw [found] at checked
    dsimp only at checked
    cases ran : (shadowedBranchRegistry.cast e.caster shadowingInstance).run'
      shadowedBranchRegistry.vocabulary with
    | mk result vocab' =>
      rw [ran] at checked
      cases result with
      | error _ => cases checked
      | ok w =>
        simp only [Bool.and_eq_true, beq_iff_eq, Bool.not_eq_true'] at checked
        exact ⟨e, w, vocab', rfl, ran, checked⟩

end SchemaTypes
