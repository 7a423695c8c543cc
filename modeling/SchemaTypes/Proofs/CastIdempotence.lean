import SchemaTypes.Proofs.Scalars
import SchemaTypes.Proofs.LoadHistory

/-! # Casting twice

A cast is meant to be idempotent: casting again what a cast gave gives it back. Two facts
make it so. A cast returns a *settled* value (`Registry.Settled`) as it is, from any special
names and without adding to them; and, in a sound registry, whatever a cast gives is settled.
The first is an induction on the settled value, the second an induction on the caster.

The polymorph is where this can fail. On a second cast it keeps an instance whose type
inherits from one of its branch targets, discriminates a map again, and refuses anything
else; so what a branch gave must be such an instance or a map. A branch whose caster is the
identity or loads its own target (`Caster.branchesNamed`) gives one of the two. A branch of
another shape (an enumeration, a list, a native kind, a nested polymorph) gives a value the
polymorph refuses when it sees it again: `recast_member_refused` casts a map to an
enumeration member through a conditional polymorph, and the member back through it fails.
-/

namespace SchemaTypes

variable {ε α β γ : Type}

/-- Every run of the step, from any special names, succeeds with `a` and leaves the special
names as they are. -/
def Stays (x : ExceptT ε (StateM Vocabulary) α) (a : α) : Prop :=
  ∀ vocab, (ExceptT.run x).run vocab = (.ok a, vocab)

namespace Stays

theorem pure (a : α) : Stays (Pure.pure a : ExceptT ε (StateM Vocabulary) α) a :=
  fun _ => rfl

theorem bind {x : ExceptT ε (StateM Vocabulary) α} {f : α → ExceptT ε (StateM Vocabulary) β}
    {a : α} {b : β} (first : Stays x a) (rest : Stays (f a) b) : Stays (x >>= f) b := by
  intro vocab
  have step : (ExceptT.run (x >>= f)).run vocab = (ExceptT.run (f a)).run vocab := by
    simp only [ExceptT.run_bind, StateT.run_bind, first vocab]
    rfl
  rw [step, rest vocab]

theorem adapt {ε' : Type} {x : ExceptT ε (StateM Vocabulary) α} {f : ε → ε'} {a : α}
    (first : Stays x a) : Stays (x.adapt f) a := by
  intro vocab
  rw [Avoids.run_adapt, first vocab]
  rfl

theorem ofExcept {x : Except ε α} {a : α} (ok : x = .ok a) :
    Stays (liftExcept x : ExceptT ε (StateM Vocabulary) α) a := by
  subst ok
  exact pure a

theorem mapM {xs : List γ} {f : γ → ExceptT ε (StateM Vocabulary) β} {g : γ → β}
    (step : ∀ x ∈ xs, Stays (f x) (g x)) : Stays (xs.mapM f) (xs.map g) := by
  induction xs with
  | nil => exact pure []
  | cons x xs inductionHypothesis =>
    rw [List.mapM_cons, List.map_cons]
    exact bind (step x List.mem_cons_self) <|
      bind (inductionHypothesis fun y member => step y (List.mem_cons_of_mem _ member)) <|
        pure _

/-- A loop over the items of a list with their positions, each step returning its item. -/
theorem mapM_zipIdx {xs : List β} {f : β × Nat → ExceptT ε (StateM Vocabulary) β}
    (step : ∀ x ∈ xs, ∀ ix, Stays (f (x, ix)) x) : Stays (xs.zipIdx.mapM f) xs := by
  have looped : Stays (xs.zipIdx.mapM f) (xs.zipIdx.map Prod.fst) :=
    mapM fun p member => step p.1 (List.fst_mem_of_mem_zipIdx member) p.2
  rwa [List.zipIdx_map_fst] at looped

end Stays

namespace Caster

/-- The caster gives, from data, what a polymorph keeps as its branch `target`: the data
itself, or an instance of `target`. -/
def keepsTarget (target : String) : Caster → Bool
  | .identity => true
  | .composite name => name == target
  | _ => false

/-- The branches of a polymorph, each target with its caster; none for other casters. -/
def branches : Caster → List (String × Caster)
  | .keyed _ mapping => mapping.map (·.2)
  | .conditional branches => branches.map (·.2)
  | _ => []

/-- Every branch of the polymorph, or of the polymorph that casts the items of a list, keeps
its target. -/
def branchesNamed : Caster → Bool
  | .list item => item.branchesNamed
  | c@(.keyed ..) | c@(.conditional ..) => c.branches.all fun b => b.2.keepsTarget b.1
  | _ => true

theorem mem_targets_of_mem_branches {c k : Caster} {target : String}
    (member : (target, k) ∈ c.branches) : target ∈ c.targets := by
  cases c with
  | keyed property mapping =>
    obtain ⟨⟨key, target', k'⟩, present, same⟩ := List.mem_map.mp member
    cases same
    exact List.mem_map.mpr ⟨_, present, rfl⟩
  | conditional branches =>
    obtain ⟨⟨constants, target', k'⟩, present, same⟩ := List.mem_map.mp member
    cases same
    exact List.mem_map.mpr ⟨_, present, rfl⟩
  | _ => simp [branches] at member

theorem keepsTarget_of_mem_branches {c k : Caster} {target : String}
    (named : c.branchesNamed = true) (member : (target, k) ∈ c.branches) :
    k.keepsTarget target = true := by
  cases c with
  | keyed property mapping =>
    simp only [branchesNamed, List.all_eq_true] at named
    exact named _ member
  | conditional branches =>
    simp only [branchesNamed, List.all_eq_true] at named
    exact named _ member
  | _ => simp [branches] at member

/-- A caster keeping its target is the identity or the composite caster of the target. -/
theorem keepsTarget_cases {k : Caster} {target : String} (keeps : k.keepsTarget target = true) :
    k = .identity ∨ k = .composite target := by
  cases k with
  | identity => exact .inl rfl
  | composite name => exact .inr (by simpa [keepsTarget] using keeps)
  | _ => simp [keepsTarget] at keeps

end Caster

/-- A member of an enumeration with distinct member names is found again from itself. -/
theorem EnumType.lookup_own {et : EnumType} {m : EnumMember}
    (distinct : (et.members.map (·.name)).Nodup) (member : m ∈ et.members)
    (named : m.enumName = et.name) : et.lookup (.enum m) = some m := by
  have found : et.member? m.name = some m := find?_key_of_nodup distinct member
  simp [EnumType.lookup, named, found]

theorem castDepth_enough (r : Registry) (v : Value) : v.depth + 4 ≤ r.castDepth v := by
  have wide : 16 ≤ 4 * r.entries.length + 2 * r.composites.length + 16 := by omega
  calc v.depth + 4 ≤ (v.depth + 2) * 16 := by omega
    _ ≤ r.castDepth v := Nat.mul_le_mul_left _ wide

namespace Registry

/-- The branch a polymorph chooses is one of its branches. -/
theorem selectBranch_branch {c k : Caster} {data : List (String × Value)} {target : String}
    (chosen : selectBranch c data = .ok (target, k)) : (target, k) ∈ c.branches := by
  unfold selectBranch at chosen
  repeat' (first | split at chosen | dsimp only at chosen)
  all_goals
    cases chosen <;>
      exact List.mem_map.mpr ⟨_, List.mem_of_find?_eq_some ‹List.find? _ _ = some _›, rfl⟩

theorem castWith_polymorph {r : Registry} {n : Nat} {c : Caster} (v : Value)
    (polymorph : c.isPolymorph = true) : r.castWith (n + 1) c v = r.castPolymorph n c v := by
  cases c with
  | keyed property mapping => rw [castWith]
  | conditional branches => rw [castWith]
  | _ => simp [Caster.isPolymorph] at polymorph

/-- The values a caster gives back as they are: anything for the identity, a value of the
native kind, a list of settled items, a member of the enumeration that finds itself, an
instance of a subtype of the composite type, and for a polymorph an instance of a subtype of
a branch target or data whose chosen branch is the identity. -/
inductive Settled (r : Registry) : Caster → Value → Prop
  | identity (v : Value) : Settled r .identity v
  | native {t : NativeType} {v : Value} : t.admits v = true → Settled r (.native t) v
  | list {item : Caster} {xs : List Value} :
      (∀ x ∈ xs, Settled r item x) → Settled r (.list item) (.list xs)
  | enum {name : String} {et : EnumType} {m : EnumMember} :
      r.enumType name = .ok et → et.lookup (.enum m) = some m → Settled r (.enum name) (.enum m)
  | composite {name t : String} {fs : List (String × Value)} :
      r.isSubtype t name = true → Settled r (.composite name) (.object t fs)
  | kept {c : Caster} {t : String} {fs : List (String × Value)} :
      c.isPolymorph = true → c.targets.any (r.isSubtype t) = true → Settled r c (.object t fs)
  | reselected {c : Caster} {data : List (String × Value)} {target : String} :
      c.isPolymorph = true → selectBranch c data = .ok (target, .identity) →
      Settled r c (.map data)

variable {r : Registry}

/-- A cast returns a settled value as it is and leaves the special names alone, given a bound
four above the value's depth: a polymorph that discriminates again needs three calls before
its identity branch returns the data. -/
theorem Settled.castWith_stays {k : Caster} {w : Value} (settled : r.Settled k w) :
    ∀ {n : Nat}, w.depth + 4 ≤ n → Stays (r.castWith n k w) w := by
  induction settled with
  | identity v =>
    intro n enough
    obtain ⟨m, rfl⟩ : ∃ m, n = m + 1 := ⟨n - 1, by omega⟩
    rw [castWith]
    exact Stays.pure v
  | @native t v admits =>
    intro n enough
    obtain ⟨m, rfl⟩ : ∃ m, n = m + 1 := ⟨n - 1, by omega⟩
    simp only [castWith, NativeType.cast, admits, if_true]
    exact Stays.pure v
  | @list item xs _ items =>
    intro n enough
    obtain ⟨m, rfl⟩ : ∃ m, n = m + 1 := ⟨n - 1, by omega⟩
    rw [castWith]
    -- every item is settled and shallower than the list, so each cast returns it
    refine Stays.bind (Stays.mapM_zipIdx fun x inside ix => ?_) (Stays.pure _)
    have shallower : x.depth ≤ Value.depthItems xs := Value.depth_le_of_mem_items inside
    simp only [Value.depth] at enough
    exact (items x inside (by omega)).adapt
  | @enum name et m found own =>
    intro n enough
    obtain ⟨m', rfl⟩ : ∃ m', n = m' + 1 := ⟨n - 1, by omega⟩
    simp only [castWith, found, own]
    exact Stays.pure _
  | @composite name t fs subtype =>
    intro n enough
    obtain ⟨m, rfl⟩ : ∃ m, n = m + 1 := ⟨n - 1, by omega⟩
    simp only [castWith, subtype, if_true]
    exact Stays.pure _
  | @kept c t fs polymorph kept =>
    intro n enough
    obtain ⟨m, rfl⟩ : ∃ m, n = m + 2 := ⟨n - 2, by omega⟩
    rw [castWith_polymorph _ polymorph, castPolymorph]
    simp only [kept, if_true]
    exact Stays.pure _
  | @reselected c data target polymorph chosen =>
    intro n enough
    obtain ⟨m, rfl⟩ : ∃ m, n = m + 4 := ⟨n - 4, by omega⟩
    rw [castWith_polymorph _ polymorph, castPolymorph, discriminate]
    refine Stays.adapt (Stays.bind (Stays.ofExcept chosen) ?_)
    dsimp only
    rw [castWith]
    exact Stays.adapt (Stays.pure _)

section Sound

variable (sound : r.Sound)
include sound

/-- Loading data as the class of a name gives an instance of that name. -/
theorem Sound.loaded_named {n : Nat} {name : String} {c : Composite}
    {raw : List (String × Value)} {w : Value} (found : r.classOf name = .ok c)
    (yields : Yields (r.fromMap n c raw) w) : ∃ fields, w = .object name fields := by
  obtain ⟨fields, rfl⟩ := fromMap_yields yields
  exact ⟨fields, by rw [sound.classOf_name found]⟩

/-- What a polymorph whose branches keep their targets gives from data is settled: the data,
when the chosen branch is the identity, or an instance of the chosen target. -/
theorem Sound.discriminate_settled {n : Nat} {c : Caster} {data : List (String × Value)}
    {w : Value} (polymorph : c.isPolymorph = true) (named : c.branchesNamed = true)
    (yields : Yields (r.discriminate n c data) w) : r.Settled c w := by
  cases n with
  | zero => rw [discriminate] at yields; exact (Yields.throw_inv yields).elim
  | succ n =>
    rw [discriminate] at yields
    obtain ⟨⟨target, k⟩, choosing, casting⟩ := Yields.bind_inv yields
    have chosen := Yields.ofExcept_inv choosing
    have branch := selectBranch_branch chosen
    replace casting := Yields.adapt_inv casting
    cases n with
    | zero => rw [castWith] at casting; exact (Yields.throw_inv casting).elim
    | succ n =>
      rcases Caster.keepsTarget_cases (Caster.keepsTarget_of_mem_branches named branch) with
        rfl | rfl
      · -- the identity gives the data back, and the data chooses the same branch again
        rw [castWith] at casting
        rw [Yields.pure_inv casting]
        exact .reselected polymorph chosen
      · -- the composite caster loads an instance of the class of the target
        rw [castWith] at casting
        obtain ⟨c', finding, building⟩ := Yields.bind_inv (Yields.adapt_inv casting)
        obtain ⟨fields, rfl⟩ := sound.loaded_named (Yields.ofExcept_inv finding) building
        refine .kept polymorph (List.any_eq_true.mpr ⟨target, ?_, isSubtype_self target⟩)
        exact Caster.mem_targets_of_mem_branches branch

theorem Sound.castPolymorph_settled {n : Nat} {c : Caster} {v w : Value}
    (polymorph : c.isPolymorph = true) (named : c.branchesNamed = true)
    (yields : Yields (r.castPolymorph n c v) w) : r.Settled c w := by
  cases n with
  | zero => rw [castPolymorph] at yields; exact (Yields.throw_inv yields).elim
  | succ n =>
    cases v
    case object t fs =>
      rw [castPolymorph] at yields
      split at yields
      · next kept => rw [Yields.pure_inv yields]; exact .kept polymorph kept
      · exact (Yields.throw_inv yields).elim
    case map es =>
      rw [castPolymorph] at yields
      exact sound.discriminate_settled polymorph named (Yields.adapt_inv yields)
    all_goals simp only [castPolymorph] at yields; exact (Yields.throw_inv yields).elim

/-- In a sound registry a cast whose polymorph branches keep their targets gives a settled
value: by induction on the bound, a list cast settling each item one bound lower. -/
theorem Sound.castWith_settled {n : Nat} {k : Caster} {v w : Value}
    (named : k.branchesNamed = true) (yields : Yields (r.castWith n k v) w) : r.Settled k w := by
  induction n generalizing k v w with
  | zero => rw [castWith] at yields; exact (Yields.throw_inv yields).elim
  | succ n inductionHypothesis => ?_
  cases k with
  | identity => rw [castWith] at yields; rw [Yields.pure_inv yields]; exact .identity _
  | native t =>
    rw [castWith] at yields
    split at yields
    · next cast => rw [Yields.pure_inv yields]; exact .native (NativeType.admits_of_cast cast)
    · exact (Yields.throw_inv yields).elim
  | list item =>
    have itemNamed : item.branchesNamed = true := by rwa [Caster.branchesNamed] at named
    cases v
    case list xs =>
      rw [castWith] at yields
      obtain ⟨items, casting, made⟩ := Yields.bind_inv yields
      rw [Yields.pure_inv made]
      refine .list fun y member => ?_
      obtain ⟨⟨x, ix⟩, -, cast⟩ := Compiler.forall₂_mem_right (Yields.mapM_inv casting) member
      exact inductionHypothesis itemNamed (Yields.adapt_inv cast)
    all_goals simp only [castWith] at yields; exact (Yields.throw_inv yields).elim
  | enum name =>
    rw [castWith] at yields
    split at yields
    · exact (Yields.throw_inv yields).elim
    · next et found =>
      split at yields
      · next m lookedUp =>
        rw [Yields.pure_inv yields]
        -- the member found is one of the enumeration's, and member names are distinct
        obtain ⟨present, -⟩ := enumType_ok found
        have member := EnumType.mem_of_lookup lookedUp
        exact .enum found (EnumType.lookup_own (sound.enumsDistinct et present) member
          (sound.enumMembers et present m member))
      · exact (Yields.throw_inv yields).elim
  | composite name =>
    cases v
    case object t fs =>
      rw [castWith] at yields
      split at yields
      · next subtype => rw [Yields.pure_inv yields]; exact .composite subtype
      · obtain ⟨c, finding, loading⟩ := Yields.bind_inv (Yields.adapt_inv yields)
        obtain ⟨raw, -, building⟩ := Yields.bind_inv loading
        obtain ⟨fields, rfl⟩ := sound.loaded_named (Yields.ofExcept_inv finding) building
        exact .composite (isSubtype_self name)
    case map es =>
      rw [castWith] at yields
      obtain ⟨c, finding, building⟩ := Yields.bind_inv (Yields.adapt_inv yields)
      obtain ⟨fields, rfl⟩ := sound.loaded_named (Yields.ofExcept_inv finding) building
      exact .composite (isSubtype_self name)
    all_goals simp only [castWith] at yields; exact (Yields.throw_inv yields).elim
  | keyed property mapping =>
    rw [castWith] at yields
    exact sound.castPolymorph_settled rfl named yields
  | conditional branches =>
    rw [castWith] at yields
    exact sound.castPolymorph_settled rfl named yields

/-- In a sound registry, casting again what a cast gave returns it and leaves the special
names alone, for every caster whose polymorph branches keep their targets. -/
theorem Sound.recast_stays {k : Caster} {v w : Value} (named : k.branchesNamed = true)
    (yields : Yields (r.cast k v) w) : Stays (r.cast k w) w :=
  ((sound.castWith_settled named (Yields.adapt_inv yields)).castWith_stays
    (castDepth_enough r w)).adapt

/-- Instantiating a name again with what instantiating it gave returns it and leaves the
special names alone, when the caster registered under the name has branches keeping their
targets. -/
theorem Sound.reinstantiate_stays {name : String} {e : Entry} {raw w : Value}
    (found : r.entry name = .ok e) (named : e.caster.branchesNamed = true)
    (yields : Yields (r.instantiate name raw) w) : Stays (r.instantiate name w) w := by
  obtain ⟨e', finding, casting⟩ := Yields.bind_inv yields
  rw [found] at finding
  cases Yields.ofExcept_inv finding
  exact Stays.bind (Stays.ofExcept found) (sound.recast_stays named casting)

end Sound

/-- Casting with `k` what a cast with `k` gave returns it, from any special names, and leaves
them as they are. -/
def RecastsStay (r : Registry) (k : Caster) : Prop :=
  ∀ v w vocab vocab', (r.cast k v).run' vocab = (.ok w, vocab') →
    ∀ vocab'', (r.cast k w).run' vocab'' = (.ok w, vocab'')

theorem Sound.recastsStay (sound : r.Sound) {k : Caster} (named : k.branchesNamed = true) :
    r.RecastsStay k :=
  fun _ _ vocab vocab' ran => sound.recast_stays named ⟨vocab, vocab', ran⟩

end Registry

/-- Casting through a registry compiled from a document is idempotent for every caster whose
polymorph branches are the identity or load their own target, and so is instantiating a
registered name with such a caster: the second run returns what the first gave and leaves
the special names as they are. -/
theorem compiled_casts_idempotent {D : Document} {R : Registry}
    (distinct : (D.definitions.map (·.1)).Nodup) (compiled : D.compile = .ok R) :
    (∀ k : Caster, k.branchesNamed = true → R.RecastsStay k) ∧
    ∀ name e, R.entry name = .ok e → e.caster.branchesNamed = true →
      ∀ raw w vocab vocab', (R.instantiate name raw).run' vocab = (.ok w, vocab') →
        ∀ vocab'', (R.instantiate name w).run' vocab'' = (.ok w, vocab'') := by
  have sound := (compile_compiled distinct compiled).sound
  refine ⟨fun k named => sound.recastsStay named, ?_⟩
  intro name e found named raw w vocab vocab' ran
  exact sound.reinstantiate_stays found named ⟨vocab, vocab', ran⟩

theorem kennel_casts_idempotent :
    (∀ k : Caster, k.branchesNamed = true → kennelRegistry.RecastsStay k) ∧
    ∀ name e, kennelRegistry.entry name = .ok e → e.caster.branchesNamed = true →
      ∀ raw w vocab vocab', (kennelRegistry.instantiate name raw).run' vocab = (.ok w, vocab') →
        ∀ vocab'', (kennelRegistry.instantiate name w).run' vocab'' = (.ok w, vocab'') :=
  compiled_casts_idempotent (by decide) kennel_compiles

/-- An enumeration of one color, and a conditional polymorph whose only branch, taken when
`Id` is `red`, is the enumeration. -/
def palette : Document :=
  { title := none, root := none,
    definitions := [
      ("Color", ⟨[("enum", .arr [.obj [("Id", .str "red"), ("Description", .str "R")]])]⟩),
      ("P", ⟨[("allOf", .arr [.obj [
        ("if", .obj [("properties", .obj [("Id", .obj [("const", .str "red")])])]),
        ("then", .obj [("$ref", .str "#/$defs/Color")])]])]⟩)] }

/-- The registry compiled from `palette`. -/
def paletteRegistry : Registry := palette.compile.toOption.getD {}

theorem palette_compiles : palette.compile = .ok paletteRegistry :=
  Document.compile_of_toBool (by decide +kernel)

/-- Data naming the red color by its id. -/
def redData : Value := .map [("Id", .str "red")]

/-- The polymorph casts `{"Id": "red"}` to the member `Color.RED` of its enumeration branch,
and refuses that member, with a type error, when it casts it again. -/
theorem recast_member_refused :
    palette.compile = .ok paletteRegistry ∧
    ∃ e w vocab' err vocab'', paletteRegistry.entry "P" = .ok e ∧
      (paletteRegistry.cast e.caster redData).run' paletteRegistry.vocabulary =
        (.ok w, vocab') ∧ w.display = "Color.RED" ∧
      (paletteRegistry.cast e.caster w).run' vocab' = (.error err, vocab'') ∧
      err.kind = "Type" := by
  refine ⟨palette_compiles, ?_⟩
  have checked : (match paletteRegistry.entry "P" with
      | .ok e =>
        match (paletteRegistry.cast e.caster redData).run' paletteRegistry.vocabulary with
        | (.ok w, vocab') =>
          w.display == "Color.RED" &&
            match ((paletteRegistry.cast e.caster w).run' vocab').1 with
            | .error err => err.kind == "Type"
            | .ok _ => false
        | (.error _, _) => false
      | .error _ => false) = true := by
    decide +kernel
  cases found : paletteRegistry.entry "P" with
  | error _ => rw [found] at checked; cases checked
  | ok e =>
    rw [found] at checked
    dsimp only at checked
    cases first : (paletteRegistry.cast e.caster redData).run' paletteRegistry.vocabulary with
    | mk result vocab' =>
      rw [first] at checked
      cases result with
      | error _ => cases checked
      | ok w =>
        dsimp only at checked
        cases second : (paletteRegistry.cast e.caster w).run' vocab' with
        | mk again vocab'' =>
          rw [second] at checked
          cases again with
          | ok _ => simp at checked
          | error err =>
            simp only [Bool.and_eq_true, beq_iff_eq] at checked
            exact ⟨e, w, vocab', err, vocab'', rfl, first, checked.1, second, checked.2⟩

end SchemaTypes
