import SchemaTypes.Proofs.ArgumentBinding
import SchemaTypes.Proofs.LoadHistory

/-! # Loads of plain data do not depend on what came before

A value is *plain* when it holds no instance at any depth, as data read from JSON does. A cast
of plain data reads the special names of composite types only to turn keys into attribute
names, and special names that grow by names that convert to themselves turn every key into the
same attribute (`Registry.internalName_of_extends`). Everything else a cast reads is fixed: the
registry, the bindings and the conformance checks. A larger bound on the depth of the calls
only lets more runs finish. So when the defaults of a registry's constructors are plain, a cast
of plain data that succeeds once, from special names grown from some `base`, succeeds with the
same value at every larger bound and from all special names grown from `base`
(`Registry.steady`).

An instance is different: a cast to a type it does not belong to reads the instance back
through its map, whose keys are the external names of its attributes at the time, and those
change as the special names grow.

The runs are compared with `Reproduces base x y`: every value that `x` yields from special
names above `base`, `y` returns from all special names above `base`. It is kept by the ways the
cast functions combine steps, when the steps only widen the special names.
-/

namespace SchemaTypes

/-- A value that holds no instance, at any depth: data as JSON gives it. -/
inductive Value.Plain : Value → Prop
  | null : Plain .null
  | bool (b : Bool) : Plain (.bool b)
  | int (n : Int) : Plain (.int n)
  | number (x : Float) : Plain (.number x)
  | str (s : String) : Plain (.str s)
  | dateTime (t : Timestamp) : Plain (.dateTime t)
  | uuid (u : Uuid) : Plain (.uuid u)
  | list {items : List Value} (each : ∀ x ∈ items, Plain x) : Plain (.list items)
  | map {entries : List (String × Value)} (each : ∀ e ∈ entries, Plain e.2) :
      Plain (.map entries)
  | enum (m : EnumMember) : Plain (.enum m)

/-- Entries whose values are plain. -/
def Value.PlainEntries (entries : List (String × Value)) : Prop := ∀ e ∈ entries, e.2.Plain

theorem Value.Plain.items {items : List Value} (plain : (Value.list items).Plain) :
    ∀ x ∈ items, x.Plain := by
  cases plain with
  | list each => exact each

theorem Value.Plain.entries {entries : List (String × Value)} (plain : (Value.map entries).Plain) :
    Value.PlainEntries entries := by
  cases plain with
  | map each => exact each

/-- Arguments whose values are plain. -/
def Arguments.Plain (args : Arguments) : Prop :=
  (∀ v ∈ args.positional, v.Plain) ∧ Value.PlainEntries args.keyword

/-- A constructor whose defaults are plain. -/
def Constructor.PlainDefaults (c : Constructor) : Prop :=
  ∀ p ∈ c.params, ∀ d, p.default = .value d → d.Plain

/-- A registry whose composite types bind against constructors with plain defaults. -/
def Registry.PlainDefaults (r : Registry) : Prop :=
  ∀ c ∈ r.composites, c.initializer.signature.PlainDefaults

namespace Constructor

/-- The extra keywords sorted out come from the extras before or are keywords that name no
parameter. -/
theorem sortKeywords_extra {c : Constructor} :
    ∀ {given extra keywords given' extra' : List (String × Value)},
      c.sortKeywords given extra keywords = .ok (given', extra') →
      ∀ e ∈ extra', e ∈ extra ∨ (e ∈ keywords ∧ c.declares e.1 = false)
  | _, _, [], _, _, sorted => by cases sorted; exact fun e member => .inl member
  | given, extra, (name, v) :: rest, given', extra', sorted => by
    unfold sortKeywords at sorted
    intro e member
    split at sorted
    · split at sorted
      · cases sorted
      · rcases sortKeywords_extra sorted e member with old | ⟨later, undeclared⟩
        · exact .inl old
        · exact .inr ⟨List.mem_cons_of_mem _ later, undeclared⟩
    · next notParam =>
      split at sorted
      · obtain ⟨x, u⟩ := e
        rcases sortKeywords_extra sorted (x, u) member with old | ⟨later, undeclared⟩
        · rcases Value.mem_setEntry old with ⟨rfl, rfl⟩ | older
          · exact .inr ⟨List.mem_cons_self, Bool.eq_false_iff.mpr notParam⟩
          · exact .inl older
        · exact .inr ⟨List.mem_cons_of_mem _ later, undeclared⟩
      · cases sorted

/-- Binding plain arguments to a constructor with plain defaults binds plain values. -/
theorem bind_plain {c : Constructor} {args : Arguments} {bound : Bound}
    (defaults : c.PlainDefaults) (plain : args.Plain) (bound_ok : c.bind args = .ok bound) :
    Value.PlainEntries bound.declared ∧ Value.PlainEntries bound.extra := by
  unfold bind at bound_ok
  split at bound_ok
  · cases bound_ok
  obtain ⟨⟨given, extra⟩, sorted, rest⟩ := Compiling.except_bind_ok bound_ok
  dsimp only at rest
  -- what is given comes from the positional values, paired with names, or the keywords
  have givenPlain : Value.PlainEntries given := by
    intro e member
    rcases sortKeywords_given sorted e member with positional | keyword
    · obtain ⟨⟨p, v⟩, pair, rfl⟩ := List.mem_map.mp positional
      exact plain.1 v (List.of_mem_zip pair).2
    · exact plain.2 e keyword
  split at rest
  · cases rest
    refine ⟨fun e member => ?_, fun e member => ?_⟩
    · obtain ⟨p, param, mapped⟩ := List.mem_filterMap.mp member
      split at mapped
      · next v found => cases mapped; exact givenPlain _ (Value.mem_of_lookup found)
      · next d _ isDefault => cases mapped; exact defaults p param d isDefault
      · cases mapped
    · rcases sortKeywords_extra sorted e member with none | ⟨keyword, -⟩
      · cases none
      · exact plain.2 e keyword
  · cases rest

end Constructor

/-! ## Comparing runs from special names above a base -/

section Reproducing

variable {ε ε' α β γ : Type} {base : Vocabulary}

/-- Some run of the step, from special names that extend `base`, succeeds with `a`. -/
def YieldsAbove (base : Vocabulary) (x : ExceptT ε (StateM Vocabulary) α) (a : α) : Prop :=
  ∃ vocab vocab', base.Extends vocab ∧ (ExceptT.run x).run vocab = (.ok a, vocab')

/-- Every run of the step, from special names that extend `base`, succeeds with `a`. -/
def ReturnsAbove (base : Vocabulary) (x : ExceptT ε (StateM Vocabulary) α) (a : α) : Prop :=
  ∀ vocab, base.Extends vocab → ∃ vocab', (ExceptT.run x).run vocab = (.ok a, vocab')

/-- Every value that `x` yields from special names above `base`, `y` returns from all special
names above `base`. -/
def Reproduces (base : Vocabulary) (x y : ExceptT ε (StateM Vocabulary) α) : Prop :=
  ∀ a, YieldsAbove base x a → ReturnsAbove base y a

/-- A successful run of a sequence is a successful run of its first step and then of the
rest. -/
theorem run_bind_ok {x : ExceptT ε (StateM Vocabulary) α} {f : α → ExceptT ε (StateM Vocabulary) β}
    {vocab vocab'' : Vocabulary} {b : β}
    (run : (ExceptT.run (x >>= f)).run vocab = (.ok b, vocab'')) :
    ∃ a vocab', (ExceptT.run x).run vocab = (.ok a, vocab') ∧
      (ExceptT.run (f a)).run vocab' = (.ok b, vocab'') := by
  cases ran : (ExceptT.run x).run vocab with
  | mk result vocab' =>
    cases result with
    | error e =>
      have failed : ((ExceptT.run (x >>= f)).run vocab).1 = .error e := by
        simp only [ExceptT.run_bind, StateT.run_bind, ran]
        rfl
      rw [run] at failed
      cases failed
    | ok a =>
      have continued : (ExceptT.run (x >>= f)).run vocab = (ExceptT.run (f a)).run vocab' := by
        simp only [ExceptT.run_bind, StateT.run_bind, ran]
        rfl
      exact ⟨a, vocab', rfl, continued ▸ run⟩

theorem YieldsAbove.yields {x : ExceptT ε (StateM Vocabulary) α} {a : α}
    (yields : YieldsAbove base x a) : Yields x a := by
  obtain ⟨vocab, vocab', -, run⟩ := yields
  exact ⟨vocab, vocab', run⟩

theorem YieldsAbove.bind_inv {x : ExceptT ε (StateM Vocabulary) α}
    {f : α → ExceptT ε (StateM Vocabulary) β} {b : β} (grows : Widens x)
    (yields : YieldsAbove base (x >>= f) b) :
    ∃ a, YieldsAbove base x a ∧ YieldsAbove base (f a) b := by
  obtain ⟨vocab, vocab'', above, run⟩ := yields
  obtain ⟨a, vocab', ran, continued⟩ := run_bind_ok run
  have grown := grows vocab
  rw [ran] at grown
  exact ⟨a, ⟨vocab, vocab', above, ran⟩, vocab', vocab'', above.trans grown, continued⟩

theorem YieldsAbove.adapt_inv {x : ExceptT ε (StateM Vocabulary) α} {f : ε → ε'} {a : α}
    (yields : YieldsAbove base (x.adapt f) a) : YieldsAbove base x a := by
  obtain ⟨vocab, vocab', above, run⟩ := yields
  rw [Avoids.run_adapt] at run
  refine ⟨vocab, vocab', above, ?_⟩
  cases ran : (ExceptT.run x).run vocab with
  | mk result after =>
    rw [ran] at run
    cases result with
    | error e => cases run
    | ok b => cases run; rfl

theorem Returns.above {x : ExceptT ε (StateM Vocabulary) α} {a : α} (returns : Returns x a) :
    ReturnsAbove base x a :=
  fun vocab _ => returns vocab

theorem ReturnsAbove.bind {x : ExceptT ε (StateM Vocabulary) α}
    {f : α → ExceptT ε (StateM Vocabulary) β} {a : α} {b : β} (grows : Widens x)
    (first : ReturnsAbove base x a) (rest : ReturnsAbove base (f a) b) :
    ReturnsAbove base (x >>= f) b := by
  intro vocab above
  obtain ⟨vocab', ran⟩ := first vocab above
  have grown := grows vocab
  rw [ran] at grown
  obtain ⟨vocab'', continued⟩ := rest vocab' (above.trans grown)
  refine ⟨vocab'', ?_⟩
  have step : (ExceptT.run (x >>= f)).run vocab = (ExceptT.run (f a)).run vocab' := by
    simp only [ExceptT.run_bind, StateT.run_bind, ran]
    rfl
  rw [step, continued]

theorem ReturnsAbove.adapt {x : ExceptT ε (StateM Vocabulary) α} {f : ε → ε'} {a : α}
    (first : ReturnsAbove base x a) : ReturnsAbove base (x.adapt f) a := by
  intro vocab above
  obtain ⟨vocab', ran⟩ := first vocab above
  exact ⟨vocab', by rw [Avoids.run_adapt, ran]; rfl⟩

/-- A step of the state alone, and then the rest from what it gave. -/
theorem run_lift_bind {x : StateM Vocabulary α} {f : α → ExceptT ε (StateM Vocabulary) β}
    (vocab : Vocabulary) :
    (ExceptT.run ((x : ExceptT ε (StateM Vocabulary) α) >>= f)).run vocab =
      (ExceptT.run (f (x.run vocab).1)).run (x.run vocab).2 := by
  simp only [ExceptT.run_bind, StateT.run_bind]
  rfl

/-- A step that reads the special names without changing them, followed by a step that
returns the same value whatever it read. -/
theorem ReturnsAbove.read {x : StateM Vocabulary α} {f : α → ExceptT ε (StateM Vocabulary) β}
    {b : β} (keeps : ∀ vocab, (x.run vocab).2 = vocab) (rest : ∀ a, ReturnsAbove base (f a) b) :
    ReturnsAbove base ((x : ExceptT ε (StateM Vocabulary) α) >>= f) b := by
  intro vocab above
  obtain ⟨vocab', continued⟩ := rest (x.run vocab).1 vocab above
  exact ⟨vocab', by rw [run_lift_bind, keeps vocab, continued]⟩

/-- A loop whose every step returns a known accumulator returns the accumulator of the pure
loop. -/
theorem ReturnsAbove.foldlM {xs : List γ} {f : β → γ → ExceptT ε (StateM Vocabulary) β}
    {g : β → γ → β} (grows : ∀ acc x, Widens (f acc x))
    (step : ∀ acc, ∀ x ∈ xs, ReturnsAbove base (f acc x) (g acc x)) :
    ∀ init, ReturnsAbove base (xs.foldlM f init) (xs.foldl g init) := by
  induction xs with
  | nil => exact fun init => (Returns.pure init).above
  | cons x xs inductionHypothesis =>
    intro init
    rw [List.foldlM_cons, List.foldl_cons]
    exact bind (grows init x) (step init x List.mem_cons_self)
      (inductionHypothesis (fun acc y member => step acc y (List.mem_cons_of_mem _ member)) _)

namespace Reproduces

theorem pure (a : α) :
    Reproduces base (Pure.pure a : ExceptT ε (StateM Vocabulary) α) (Pure.pure a) := by
  intro b yields
  rw [Yields.pure_inv yields.yields]
  exact (Returns.pure a).above

theorem throw (e : ε) (y : ExceptT ε (StateM Vocabulary) α) :
    Reproduces base (MonadExcept.throw e) y :=
  fun _ yields => (Yields.throw_inv yields.yields).elim

theorem bind {x y : ExceptT ε (StateM Vocabulary) α} {f g : α → ExceptT ε (StateM Vocabulary) β}
    (growsX : Widens x) (growsY : Widens y) (first : Reproduces base x y)
    (rest : ∀ a, YieldsAbove base x a → Reproduces base (f a) (g a)) :
    Reproduces base (x >>= f) (y >>= g) := by
  intro b yields
  obtain ⟨a, yieldsA, yieldsB⟩ := YieldsAbove.bind_inv growsX yields
  exact ReturnsAbove.bind growsY (first a yieldsA) (rest a yieldsA b yieldsB)

theorem adapt {x y : ExceptT ε (StateM Vocabulary) α} {f f' : ε → ε'}
    (first : Reproduces base x y) : Reproduces base (x.adapt f) (y.adapt f') :=
  fun a yields => (first a yields.adapt_inv).adapt

theorem ofExcept (x : Except ε α) :
    Reproduces base (liftExcept x : ExceptT ε (StateM Vocabulary) α) (liftExcept x) := by
  cases x with
  | error e => exact throw e _
  | ok a => exact pure a

/-- A step of the state alone that gives the same value from all special names above
`base`. -/
theorem lift {x : StateM Vocabulary α}
    (same : ∀ vocab vocab', base.Extends vocab → base.Extends vocab' →
      (x.run vocab).1 = (x.run vocab').1) :
    Reproduces base (x : ExceptT ε (StateM Vocabulary) α) x := by
  intro a yields vocab above
  obtain ⟨vocab₀, vocab₁, above₀, run⟩ := yields
  have lifted : ∀ vocab, (ExceptT.run (x : ExceptT ε (StateM Vocabulary) α)).run vocab =
      (.ok (x.run vocab).1, (x.run vocab).2) := fun _ => rfl
  rw [lifted] at run
  cases run
  exact ⟨(x.run vocab).2, by rw [lifted, same vocab vocab₀ above above₀]⟩

/-- A step that reads the special names without changing them, followed by steps whose results
do not depend on what it read. -/
theorem read {x : StateM Vocabulary α} {f g : α → ExceptT ε (StateM Vocabulary) β}
    (keeps : ∀ vocab, (x.run vocab).2 = vocab) (rest : ∀ a a', Reproduces base (f a) (g a')) :
    Reproduces base ((x : ExceptT ε (StateM Vocabulary) α) >>= f)
      ((x : ExceptT ε (StateM Vocabulary) α) >>= g) := by
  have grows : Widens (x : ExceptT ε (StateM Vocabulary) α) :=
    Widens.lift fun vocab => by rw [keeps vocab]; exact Vocabulary.Extends.refl vocab
  intro b yields
  obtain ⟨a, -, yieldsB⟩ := YieldsAbove.bind_inv grows yields
  exact ReturnsAbove.read keeps fun a' => rest a a' b yieldsB

theorem foldlM {xs : List γ} {f g : β → γ → ExceptT ε (StateM Vocabulary) β}
    (growsF : ∀ acc x, Widens (f acc x)) (growsG : ∀ acc x, Widens (g acc x))
    (step : ∀ acc, ∀ x ∈ xs, Reproduces base (f acc x) (g acc x)) :
    ∀ init, Reproduces base (xs.foldlM f init) (xs.foldlM g init) := by
  induction xs with
  | nil => exact fun init => pure init
  | cons x xs inductionHypothesis =>
    intro init
    rw [List.foldlM_cons, List.foldlM_cons]
    exact bind (growsF init x) (growsG init x) (step init x List.mem_cons_self) fun acc _ =>
      inductionHypothesis (fun acc y member => step acc y (List.mem_cons_of_mem _ member)) acc

theorem mapM {xs : List γ} {f g : γ → ExceptT ε (StateM Vocabulary) β}
    (growsF : ∀ x, Widens (f x)) (growsG : ∀ x, Widens (g x))
    (step : ∀ x ∈ xs, Reproduces base (f x) (g x)) : Reproduces base (xs.mapM f) (xs.mapM g) := by
  induction xs with
  | nil => exact pure []
  | cons x xs inductionHypothesis =>
    rw [List.mapM_cons, List.mapM_cons]
    exact bind (growsF x) (growsG x) (step x List.mem_cons_self) fun y _ =>
      bind (Widens.mapM growsF) (Widens.mapM growsG)
        (inductionHypothesis fun z member => step z (List.mem_cons_of_mem _ member))
        fun ys _ => pure (y :: ys)

end Reproduces

end Reproducing

/-! ## Reading keys -/

namespace Registry

variable {r : Registry} {base : Vocabulary}

/-- A loop that reads keys with `internalName`, from special names above `base`, gives each key
the attribute it has under `base`. -/
theorem mapM_keys_above {t : String} {f : String × Value → StateM Vocabulary (String × Value)}
    (step : ∀ e vocab, (f e).run vocab =
      (((r.internalName vocab t e.1).1, e.2), (r.internalName vocab t e.1).2)) :
    ∀ (raw : List (String × Value)) (vocab : Vocabulary), base.Extends vocab →
      ((raw.mapM f).run vocab).1 = raw.map fun e => ((r.internalName base t e.1).1, e.2)
  | [], _, _ => rfl
  | e :: raw, vocab, above => by
    have grown : base.Extends ((f e).run vocab).2 := by
      rw [step]
      exact above.trans (r.internalName_extends vocab t e.1)
    have rest := mapM_keys_above step raw _ grown
    rw [List.mapM_cons]
    show ((f e).run vocab).1 :: ((raw.mapM f).run ((f e).run vocab).2).1 = _
    rw [rest, step, List.map_cons, internalName_of_extends above]

/-- Reading keys from special names above `base` gives each key its attribute under
`base`. -/
theorem internalKeys_above (t : String) (raw : List (String × Value)) {vocab : Vocabulary}
    (above : base.Extends vocab) :
    ((r.internalKeys t raw).run vocab).1 =
      Value.collect (raw.map fun e => ((r.internalName base t e.1).1, e.2)) := by
  unfold internalKeys
  show Value.collect ((List.mapM _ raw : StateM Vocabulary (List (String × Value))).run vocab).1 = _
  rw [mapM_keys_above ?step raw vocab above]
  case step => exact fun _ _ => rfl

/-- Reading the keys of plain entries gives plain entries. -/
theorem internalKeys_plain {t : String} {raw : List (String × Value)}
    (plain : Value.PlainEntries raw) (vocab : Vocabulary) :
    Value.PlainEntries ((r.internalKeys t raw).run vocab).1 := by
  obtain ⟨keyed, collected, related⟩ := internalKeys_eq (r := r) t raw vocab
  rw [collected]
  intro ⟨x, v⟩ member
  obtain ⟨e, member', same, -⟩ := Compiler.forall₂_mem_right related (Value.mem_collect member)
  rw [same]
  exact plain e member'

theorem internalKeys_reproduces (t : String) (raw : List (String × Value)) :
    Reproduces (ε := Error) base (r.internalKeys t raw : StateM Vocabulary _)
      (r.internalKeys t raw : StateM Vocabulary _) :=
  Reproduces.lift fun _ _ above above' => by
    rw [internalKeys_above t raw above, internalKeys_above t raw above']

theorem classOf_mem {name : String} {c : Composite} (found : r.classOf name = .ok c) :
    c ∈ r.composites := by
  unfold classOf at found
  split at found
  · exact (composite_ok found).1
  · exact (composite_ok found).1

/-- Keywords collected from some of the bound values and some of the extra keywords are
plain when those are. -/
theorem collect_plain {declared extra xs ys : List (String × Value)}
    (declaredPlain : Value.PlainEntries declared) (extraPlain : Value.PlainEntries extra)
    (fromDeclared : xs ⊆ declared) (fromExtra : ys ⊆ extra) :
    Arguments.Plain { keyword := Value.collect (xs ++ ys) } := by
  refine ⟨by simp, fun ⟨x, v⟩ member => ?_⟩
  rcases List.mem_append.mp (Value.mem_collect member) with old | new
  · exact declaredPlain _ (fromDeclared old)
  · exact extraPlain _ (fromExtra new)

/-! ## Casts of plain data -/

/-- Every cast function at the bound `n`, on plain data and constructors with plain defaults:
what a run yields from special names above a base, every run at a bound no smaller returns
from all special names above it. -/
structure Steady (r : Registry) (n : Nat) : Prop where
  castWith : ∀ m, n ≤ m → ∀ base k v, v.Plain →
    Reproduces base (r.castWith n k v) (r.castWith m k v)
  castPolymorph : ∀ m, n ≤ m → ∀ base c v, v.Plain →
    Reproduces base (r.castPolymorph n c v) (r.castPolymorph m c v)
  discriminate : ∀ m, n ≤ m → ∀ base c data, Value.PlainEntries data →
    Reproduces base (r.discriminate n c data) (r.discriminate m c data)
  fromMap : ∀ m, n ≤ m → ∀ base (c : Composite) raw, c.initializer.signature.PlainDefaults →
    Value.PlainEntries raw → Reproduces base (r.fromMap n c raw) (r.fromMap m c raw)
  construct : ∀ m, n ≤ m → ∀ base (c : Composite) args, c.initializer.signature.PlainDefaults →
    args.Plain → Reproduces base (r.construct n c args) (r.construct m c args)
  runInitializer : ∀ m, n ≤ m → ∀ base (i : Initializer) args fields owner,
    i.signature.PlainDefaults → args.Plain →
    Reproduces base (r.runInitializer n i args fields owner) (r.runInitializer m i args fields owner)
  invoke : ∀ m, n ≤ m → ∀ base (ctor : Constructor) args fields owner, ctor.PlainDefaults →
    args.Plain → Reproduces base (r.invoke n ctor args fields owner) (r.invoke m ctor args fields owner)
  coerce : ∀ m, n ≤ m → ∀ base name h k v, v.Plain →
    Reproduces base (r.coerce n name h k v) (r.coerce m name h k v)

theorem steady_zero : Steady r 0 where
  castWith _ _ _ _ _ _ := by rw [castWith]; exact Reproduces.throw _ _
  castPolymorph _ _ _ _ _ _ := by rw [castPolymorph]; exact Reproduces.throw _ _
  discriminate _ _ _ _ _ _ := by rw [discriminate]; exact Reproduces.throw _ _
  fromMap _ _ _ _ _ _ _ := by rw [fromMap]; exact Reproduces.throw _ _
  construct _ _ _ _ _ _ _ := by rw [construct]; exact Reproduces.throw _ _
  runInitializer _ _ _ _ _ _ _ _ _ := by rw [runInitializer]; exact Reproduces.throw _ _
  invoke _ _ _ _ _ _ _ _ _ := by rw [invoke]; exact Reproduces.throw _ _
  coerce _ _ _ _ _ _ _ _ := by rw [coerce]; exact Reproduces.throw _ _

section Succ

variable {n : Nat} (ih : Steady r n) (defaults : r.PlainDefaults)
include ih defaults

theorem castWith_steady (m : Nat) (more : n + 1 ≤ m) (base : Vocabulary) (k : Caster)
    (v : Value) (plain : v.Plain) : Reproduces base (r.castWith (n + 1) k v) (r.castWith m k v) := by
  obtain ⟨m, rfl⟩ : ∃ m', m = m' + 1 := ⟨m - 1, by omega⟩
  have more : n ≤ m := by omega
  cases k with
  | identity => simp only [castWith]; exact Reproduces.pure v
  | native t =>
    simp only [castWith]
    split
    · exact Reproduces.pure _
    · exact Reproduces.throw _ _
  | list item =>
    cases v
    case list xs =>
      simp only [castWith]
      refine Reproduces.bind (Widens.mapM fun _ => Widens.adapt ((r.widening n).castWith item _))
        (Widens.mapM fun _ => Widens.adapt ((r.widening m).castWith item _))
        (Reproduces.mapM (fun _ => Widens.adapt ((r.widening n).castWith item _))
          (fun _ => Widens.adapt ((r.widening m).castWith item _)) fun entry member => ?_)
        fun _ _ => Reproduces.pure _
      obtain ⟨x, ix⟩ := entry
      exact Reproduces.adapt
        (ih.castWith m more base item x (plain.items x (List.fst_mem_of_mem_zipIdx member)))
    all_goals simp only [castWith]; exact Reproduces.throw _ _
  | enum name =>
    simp only [castWith]
    split
    · exact Reproduces.throw _ _
    · split
      · exact Reproduces.pure _
      · exact Reproduces.throw _ _
  | composite name =>
    cases v
    case object t fs => cases plain
    case map es =>
      simp only [castWith]
      refine Reproduces.adapt (Reproduces.bind (Widens.ofExcept _) (Widens.ofExcept _)
        (Reproduces.ofExcept _) fun c found => ?_)
      exact ih.fromMap m more base c es
        (defaults c (classOf_mem (Yields.ofExcept_inv found.yields))) plain.entries
    all_goals simp only [castWith]; exact Reproduces.throw _ _
  | keyed property mapping => simp only [castWith]; exact ih.castPolymorph m more base _ v plain
  | conditional branches => simp only [castWith]; exact ih.castPolymorph m more base _ v plain

omit defaults in
theorem castPolymorph_steady (m : Nat) (more : n + 1 ≤ m) (base : Vocabulary) (c : Caster)
    (v : Value) (plain : v.Plain) :
    Reproduces base (r.castPolymorph (n + 1) c v) (r.castPolymorph m c v) := by
  obtain ⟨m, rfl⟩ : ∃ m', m = m' + 1 := ⟨m - 1, by omega⟩
  have more : n ≤ m := by omega
  cases v
  case object t fs => cases plain
  case map es =>
    simp only [castPolymorph]
    exact Reproduces.adapt (ih.discriminate m more base c es plain.entries)
  all_goals simp only [castPolymorph]; exact Reproduces.throw _ _

omit defaults in
theorem discriminate_steady (m : Nat) (more : n + 1 ≤ m) (base : Vocabulary) (c : Caster)
    (data : List (String × Value)) (plain : Value.PlainEntries data) :
    Reproduces base (r.discriminate (n + 1) c data) (r.discriminate m c data) := by
  obtain ⟨m, rfl⟩ : ∃ m', m = m' + 1 := ⟨m - 1, by omega⟩
  have more : n ≤ m := by omega
  simp only [discriminate]
  exact Reproduces.bind (Widens.ofExcept _) (Widens.ofExcept _) (Reproduces.ofExcept _)
    fun chosen _ => Reproduces.adapt (ih.castWith m more base chosen.2 _ (.map plain))

omit defaults in
theorem fromMap_steady (m : Nat) (more : n + 1 ≤ m) (base : Vocabulary) (c : Composite)
    (raw : List (String × Value)) (own : c.initializer.signature.PlainDefaults)
    (plain : Value.PlainEntries raw) :
    Reproduces base (r.fromMap (n + 1) c raw) (r.fromMap m c raw) := by
  obtain ⟨m, rfl⟩ : ∃ m', m = m' + 1 := ⟨m - 1, by omega⟩
  have more : n ≤ m := by omega
  simp only [fromMap]
  -- the keys read are the same in both runs, and their values are those of the data
  refine Reproduces.bind (Widens.lift (r.internalKeys_extends c.name raw))
    (Widens.lift (r.internalKeys_extends c.name raw)) (internalKeys_reproduces c.name raw)
    fun keyword read => ?_
  obtain ⟨vocab, readAs⟩ := Yields.lift_inv read.yields
  have keywordPlain : Arguments.Plain { keyword } :=
    ⟨by simp, readAs ▸ internalKeys_plain plain vocab⟩
  exact Reproduces.bind ((r.widening n).construct c _) ((r.widening m).construct c _)
    (ih.construct m more base c _ own keywordPlain) fun _ _ => Reproduces.pure _

omit defaults in
theorem construct_steady (m : Nat) (more : n + 1 ≤ m) (base : Vocabulary) (c : Composite)
    (args : Arguments) (own : c.initializer.signature.PlainDefaults) (plain : args.Plain) :
    Reproduces base (r.construct (n + 1) c args) (r.construct m c args) := by
  obtain ⟨m, rfl⟩ : ∃ m', m = m' + 1 := ⟨m - 1, by omega⟩
  have more : n ≤ m := by omega
  simp only [construct]
  exact Reproduces.adapt (ih.runInitializer m more base _ _ _ _ own plain)

theorem runInitializer_steady (m : Nat) (more : n + 1 ≤ m) (base : Vocabulary) (i : Initializer)
    (args : Arguments) (fields : List (String × Value)) (owner : String)
    (own : i.signature.PlainDefaults) (plain : args.Plain) :
    Reproduces base (r.runInitializer (n + 1) i args fields owner)
      (r.runInitializer m i args fields owner) := by
  obtain ⟨m, rfl⟩ : ∃ m', m = m' + 1 := ⟨m - 1, by omega⟩
  have more : n ≤ m := by omega
  cases i with
  | direct ctor =>
    simp only [runInitializer]
    exact ih.invoke m more base ctor args fields owner own plain
  | combined signature parents =>
    simp only [runInitializer]
    refine Reproduces.bind (Widens.ofExcept _) (Widens.ofExcept _) (Reproduces.ofExcept _)
      fun bound binding => ?_
    have boundPlain := Constructor.bind_plain own plain (Yields.ofExcept_inv binding.yields)
    refine Reproduces.foldlM (fun _ _ => ?growsN) (fun _ _ => ?growsM) (fun acc parent _ => ?_)
      fields
    case growsN => exact Widens.bind (Widens.ofExcept _) fun _ => (r.widening n).runInitializer _ _ _ _
    case growsM => exact Widens.bind (Widens.ofExcept _) fun _ => (r.widening m).runInitializer _ _ _ _
    refine Reproduces.bind (Widens.ofExcept _) (Widens.ofExcept _) (Reproduces.ofExcept _)
      fun pc found => ?_
    -- each parent runs on keywords taken from the bound values and the extra keywords
    refine ih.runInitializer m more base _ _ _ _
      (defaults pc (composite_ok (Yields.ofExcept_inv found.yields)).1) ?_
    exact collect_plain boundPlain.1 boundPlain.2 List.filter_sublist.subset (by split <;> simp)

omit defaults in
theorem invoke_steady (m : Nat) (more : n + 1 ≤ m) (base : Vocabulary) (ctor : Constructor)
    (args : Arguments) (fields : List (String × Value)) (owner : String)
    (own : ctor.PlainDefaults) (plain : args.Plain) :
    Reproduces base (r.invoke (n + 1) ctor args fields owner) (r.invoke m ctor args fields owner) := by
  obtain ⟨m, rfl⟩ : ∃ m', m = m' + 1 := ⟨m - 1, by omega⟩
  have more : n ≤ m := by omega
  simp only [invoke]
  refine Reproduces.bind (Widens.ofExcept _) (Widens.ofExcept _) (Reproduces.ofExcept _)
    fun bound binding => ?_
  have boundPlain := Constructor.bind_plain own plain (Yields.ofExcept_inv binding.yields)
  refine Reproduces.bind (Widens.foldlM (fun _ _ => ?growsN) _) (Widens.foldlM (fun _ _ => ?growsM) _)
    (Reproduces.foldlM (fun _ _ => ?growsN') (fun _ _ => ?growsM') (fun acc p _ => ?param) fields)
    fun fields' _ => ?extras
  case growsN | growsM | growsN' | growsM' =>
    split
    · exact Widens.pure _
    · exact Widens.bind (Widens.adapt ((r.widening _).coerce _ _ _ _)) fun _ => Widens.pure _
  case param =>
    -- a parameter's bound value is coerced in both runs
    split
    · exact Reproduces.pure _
    · next v found =>
      exact Reproduces.bind (Widens.adapt ((r.widening n).coerce _ _ _ _))
        (Widens.adapt ((r.widening m).coerce _ _ _ _))
        (Reproduces.adapt (ih.coerce m more base _ _ _ v
          (boundPlain.1 _ (Value.mem_of_lookup found)))) fun _ _ => Reproduces.pure _
  case extras =>
    split
    · exact Reproduces.pure _
    · refine Reproduces.foldlM (fun _ _ => ?_) (fun _ _ => ?_) (fun acc extra member => ?_) fields'
      · exact Widens.bind (Widens.lift fun vocab => Vocabulary.Extends.refl vocab) fun _ =>
          Widens.bind (Widens.adapt ((r.widening n).coerce _ _ _ _)) fun _ => Widens.pure _
      · exact Widens.bind (Widens.lift fun vocab => Vocabulary.Extends.refl vocab) fun _ =>
          Widens.bind (Widens.adapt ((r.widening m).coerce _ _ _ _)) fun _ => Widens.pure _
      -- the special names are read only to word a failure
      obtain ⟨name, v⟩ := extra
      exact Reproduces.read (fun _ => rfl) fun _ _ =>
        Reproduces.bind (Widens.adapt ((r.widening n).coerce _ _ _ _))
          (Widens.adapt ((r.widening m).coerce _ _ _ _))
          (Reproduces.adapt (ih.coerce m more base _ _ _ v (boundPlain.2 _ member)))
          fun _ _ => Reproduces.pure _

omit defaults in
theorem coerce_steady (m : Nat) (more : n + 1 ≤ m) (base : Vocabulary) (name : String)
    (h : TypeHandle) (k : Caster) (v : Value) (plain : v.Plain) :
    Reproduces base (r.coerce (n + 1) name h k v) (r.coerce m name h k v) := by
  obtain ⟨m, rfl⟩ : ∃ m', m = m' + 1 := ⟨m - 1, by omega⟩
  have more : n ≤ m := by omega
  simp only [coerce]
  split
  · exact Reproduces.pure v
  · exact Reproduces.adapt (ih.castWith m more base k v plain)

end Succ

/-- Casting plain data through a registry whose constructors have plain defaults does not
depend on the loads before it or on the bound on its calls: what one run yields from special
names grown from a base, every run at a larger bound returns from all special names grown from
that base. -/
theorem steady (defaults : r.PlainDefaults) : ∀ n, Steady r n
  | 0 => steady_zero
  | n + 1 =>
    have ih := steady defaults n
    { castWith := castWith_steady ih defaults
      castPolymorph := castPolymorph_steady ih
      discriminate := discriminate_steady ih
      fromMap := fromMap_steady ih
      construct := construct_steady ih
      runInitializer := runInitializer_steady ih defaults
      invoke := invoke_steady ih
      coerce := coerce_steady ih }

/-- More room for a cast keeps what it finds: a cast of plain data at the bound `castDepth`
that succeeds gives the same value at every larger bound, from the same special names. -/
theorem castWith_above_castDepth (defaults : r.PlainDefaults) {k : Caster} {v w : Value}
    (plain : v.Plain) {vocab vocab' : Vocabulary}
    (cast : (ExceptT.run (r.castWith (r.castDepth v) k v)).run vocab = (.ok w, vocab'))
    {m : Nat} (larger : r.castDepth v ≤ m) :
    ∃ vocab'', (ExceptT.run (r.castWith m k v)).run vocab = (.ok w, vocab'') :=
  (steady defaults _).castWith m larger vocab k v plain w
    ⟨vocab, vocab', Vocabulary.Extends.refl vocab, cast⟩ vocab (Vocabulary.Extends.refl vocab)

end Registry

end SchemaTypes
