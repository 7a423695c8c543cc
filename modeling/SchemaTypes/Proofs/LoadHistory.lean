import Mathlib.Logic.Relation
import SchemaTypes.Proofs.Passes
import SchemaTypes.Proofs.Loading

/-! # What loading changes in the names of a type

A composite type translates between the keys of data and the names of its attributes with its
special names, and every load through the type may add to them: a key that does not convert back
to itself is recorded so that it passes unchanged from then on. This module works out what such
additions change.

A name is only ever added when it converts to itself, so the special names grow without changing
how any key is read (`Naming.pascalToSnake_fst`): the attribute a load gives each key is the same
whatever loads came before. The other direction is not kept. An attribute that no property
declares is written back in PascalCase until its own spelling is added to the special names; after
that it is written as it is. So an instance loaded earlier is written differently once a later
load meets one of its undeclared attribute names as a key. That is the only change: an instance
none of whose attributes joined the special names of its type in between is written as before.

`Widens` says that a step only lets the special names grow, by names that convert to themselves;
every cast function does (`Registry.widening`, by induction on the bound of the calls), and so
does every sequence of calls through a registry (`calls_keep_translation`).
-/

namespace SchemaTypes

namespace Naming

theorem mem_insertSorted_of_mem {name x : String} :
    ∀ {names : List String}, x ∈ names → x ∈ SpecialNames.insertSorted name names
  | [], member => by cases member
  | n :: rest, member => by
    unfold SpecialNames.insertSorted
    split
    · exact List.mem_cons_of_mem _ member
    · split
      · exact member
      · rcases List.mem_cons.mp member with rfl | later
        · exact List.mem_cons_self
        · exact List.mem_cons_of_mem _ (mem_insertSorted_of_mem later)

/-- How a key converts depends on the special names only through whether the key is one. -/
theorem pascalToSnake_fst (name : String) (special : SpecialNames) :
    (pascalToSnake name special).1 =
      if special.contains name then name else (pascalToSnake name {}).1 := by
  split
  · next known =>
    have leaves : splitWords name special true = (none, special) := by
      simp [splitWords, known]
    rw [pascalToSnake_eq, leaves]
    rfl
  · next unknown =>
    obtain ⟨words, -⟩ := splitWords_unknown true (Bool.eq_false_iff.mpr unknown)
    rw [pascalToSnake_eq, pascalToSnake_eq, words]

/-- Converting a key adds at most that key to the special names, and only a key that converts
to itself. -/
theorem pascalToSnake_adds (name : String) (special : SpecialNames) :
    (pascalToSnake name special).2 = special ∨
      ((pascalToSnake name special).2 = special.insert name ∧
        (pascalToSnake name {}).1 = name) := by
  by_cases known : special.contains name = true
  · have leaves : splitWords name special true = (none, special) := by
      simp [splitWords, known]
    rw [pascalToSnake_eq, leaves]
    exact .inl rfl
  · obtain ⟨-, added⟩ := splitWords_unknown true (Bool.eq_false_iff.mpr known)
    rw [pascalToSnake_eq]
    rcases added with same | ⟨inserted, unsplit⟩
    · exact .inl same
    · exact .inr ⟨inserted, by rw [pascalToSnake_eq, unsplit]; rfl⟩

end Naming

namespace Vocabulary

variable {v v' v'' : Vocabulary} {name other : String} {s : SpecialNames}

/-- Where a type's special names are kept: setting replaces every entry of the type in place,
or adds one at the end. -/
theorem find?_set (v : Vocabulary) (name : String) (s : SpecialNames) (key : String) :
    (v.set name s).sets.find? (·.1 == key) =
      if key = name then some (name, s) else v.sets.find? (·.1 == key) := by
  by_cases present : v.sets.any (·.1 == name) = true
  · simp only [set, present, if_true, List.find?_map]
    have same : ((fun e : String × SpecialNames => e.1 == key) ∘
        fun e => if e.1 == name then (name, s) else e) =
          fun e => e.1 == key := by
      funext e
      by_cases hit : e.1 = name <;> simp [hit]
    rw [same]
    split
    · next named =>
      subst named
      obtain ⟨e, found⟩ :=
        Option.isSome_iff_exists.mp (List.find?_isSome.mpr (List.any_eq_true.mp present))
      have hit : e.1 = key := by simpa using List.find?_some found
      simp [found, hit]
    · next differs =>
      cases found : v.sets.find? (·.1 == key) with
      | none => rfl
      | some e =>
        have hit : e.1 = key := by simpa using List.find?_some found
        simp [hit, differs]
  · simp only [set, present, Bool.false_eq_true, if_false, List.find?_append]
    have absent : v.sets.find? (·.1 == name) = none :=
      List.find?_eq_none.mpr fun e member hit => present (List.any_eq_true.mpr ⟨e, member, hit⟩)
    split
    · next named => subst named; simp [absent]
    · next differs =>
      cases v.sets.find? (·.1 == key) with
      | none => simp [Ne.symm differs]
      | some e => rfl

theorem get_set_self (v : Vocabulary) (name : String) (s : SpecialNames) :
    (v.set name s).get name = s := by
  unfold get
  rw [find?_set, if_pos rfl]

theorem get_set_other (s : SpecialNames) (differs : other ≠ name) :
    (v.set name s).get other = v.get other := by
  unfold get
  rw [find?_set, if_neg differs]

/-- `v'` keeps every special name of `v`, and every special name it adds converts to itself. -/
structure Extends (v v' : Vocabulary) : Prop where
  keeps : ∀ t x, x ∈ (v.get t).names → x ∈ (v'.get t).names
  adds : ∀ t x, x ∈ (v'.get t).names →
    x ∈ (v.get t).names ∨ (Naming.pascalToSnake x {}).1 = x

theorem Extends.refl (v : Vocabulary) : v.Extends v :=
  ⟨fun _ _ member => member, fun _ _ member => .inl member⟩

theorem Extends.trans (first : v.Extends v') (second : v'.Extends v'') : v.Extends v'' where
  keeps t x member := second.keeps t x (first.keeps t x member)
  adds t x member := by
    rcases second.adds t x member with earlier | stays
    · exact first.adds t x earlier
    · exact .inr stays

/-- Replacing the special names of one type by more of them, the added ones converting to
themselves. -/
theorem extends_set (v : Vocabulary) (name : String) {s : SpecialNames}
    (keeps : ∀ x ∈ (v.get name).names, x ∈ s.names)
    (adds : ∀ x ∈ s.names, x ∈ (v.get name).names ∨ (Naming.pascalToSnake x {}).1 = x) :
    v.Extends (v.set name s) where
  keeps t x member := by
    by_cases same : t = name
    · subst same
      rw [get_set_self]
      exact keeps x member
    · rwa [get_set_other s same]
  adds t x member := by
    by_cases same : t = name
    · subst same
      rw [get_set_self] at member
      exact adds x member
    · rw [get_set_other s same] at member
      exact .inl member

end Vocabulary

namespace Naming

theorem contains_eq_true {special : SpecialNames} {x : String} :
    special.contains x = true ↔ x ∈ special.names := by
  simp [SpecialNames.contains]

/-- A key converts in the same way under special names that extend others by names that convert
to themselves. -/
theorem pascalToSnake_fst_of_extends {special special' : SpecialNames} (external : String)
    (keeps : ∀ x ∈ special.names, x ∈ special'.names)
    (adds : ∀ x ∈ special'.names, x ∈ special.names ∨ (pascalToSnake x {}).1 = x) :
    (pascalToSnake external special').1 = (pascalToSnake external special).1 := by
  rw [pascalToSnake_fst external special', pascalToSnake_fst external special]
  by_cases later : external ∈ special'.names
  · rw [if_pos (contains_eq_true.mpr later)]
    rcases adds external later with earlier | stays
    · rw [if_pos (contains_eq_true.mpr earlier)]
    · -- a key added in between converts to itself anyway
      split
      · rfl
      · exact stays.symm
  · have earlier : external ∉ special.names := fun known => later (keeps external known)
    rw [if_neg (mt contains_eq_true.mp later), if_neg (mt contains_eq_true.mp earlier)]

end Naming

namespace Composite

/-- Reading a key leaves the special names as they are, or adds the key when it converts to
itself. -/
theorem internalName_adds (c : Composite) (special : SpecialNames) (external : String) :
    (c.internalName special external).2 = special ∨
      ((c.internalName special external).2 = special.insert external ∧
        (Naming.pascalToSnake external {}).1 = external) := by
  unfold internalName
  split
  · exact .inl rfl
  · exact Naming.pascalToSnake_adds external special

theorem internalName_fst (c : Composite) (special : SpecialNames) (external : String) :
    (c.internalName special external).1 =
      match c.properties.find? (·.externalName == external) with
      | some p => p.name
      | none => (Naming.pascalToSnake external special).1 := by
  unfold internalName
  cases c.properties.find? (·.externalName == external) <;> rfl

end Composite

namespace Registry

variable {r : Registry} {vocab vocab' : Vocabulary} {typeName : String}

theorem internalName_fst (r : Registry) (vocab : Vocabulary) (typeName external : String) :
    (r.internalName vocab typeName external).1 =
      match r.composite typeName with
      | .ok c => (c.internalName (vocab.get typeName) external).1
      | .error _ => external := by
  unfold internalName
  cases r.composite typeName <;> rfl

theorem internalName_snd (r : Registry) (vocab : Vocabulary) (typeName external : String) :
    (r.internalName vocab typeName external).2 =
      match r.composite typeName with
      | .ok c => vocab.set typeName (c.internalName (vocab.get typeName) external).2
      | .error _ => vocab := by
  unfold internalName
  cases r.composite typeName <;> rfl

/-- Reading a key adds at most that key to the special names of the type, and only when it
converts to itself. -/
theorem internalName_extends (r : Registry) (vocab : Vocabulary) (typeName external : String) :
    vocab.Extends (r.internalName vocab typeName external).2 := by
  rw [internalName_snd]
  split
  · next c _ =>
    rcases c.internalName_adds (vocab.get typeName) external with same | ⟨inserted, stays⟩
    · rw [same]
      exact Vocabulary.extends_set vocab typeName (fun _ member => member)
        fun _ member => .inl member
    · rw [inserted]
      refine Vocabulary.extends_set vocab typeName
        (fun _ member => Naming.mem_insertSorted_of_mem member) fun x member => ?_
      rcases Naming.mem_insertSorted member with rfl | old
      · exact .inr stays
      · exact .inl old
  · exact Vocabulary.Extends.refl vocab

/-- The attribute of a key is the same under special names that extend others. -/
theorem internalName_of_extends (grown : vocab.Extends vocab') (typeName external : String) :
    (r.internalName vocab' typeName external).1 = (r.internalName vocab typeName external).1 := by
  rw [internalName_fst, internalName_fst]
  split
  · next c _ =>
    rw [Composite.internalName_fst, Composite.internalName_fst]
    split
    · rfl
    · exact Naming.pascalToSnake_fst_of_extends external (grown.keeps typeName)
        (grown.adds typeName)
  · rfl

/-- The name in data of an attribute depends on the special names only through whether the
attribute is one of its type's. -/
theorem externalName_congr {vocab vocab' : Vocabulary} {typeName internal : String}
    (same : (vocab.get typeName).contains internal = (vocab'.get typeName).contains internal) :
    r.externalName vocab typeName internal = r.externalName vocab' typeName internal := by
  unfold externalName Composite.externalName Naming.snakeToPascal
  split
  · split
    · rfl
    · rw [same]
  · rw [same]

/-- An attribute that is one of its type's special names and that no property declares is
written as it is. -/
theorem externalName_special {vocab : Vocabulary} {typeName internal : String}
    (special : (vocab.get typeName).contains internal = true)
    (undeclared : ∀ c, r.composite typeName = .ok c → c.property? internal = none) :
    r.externalName vocab typeName internal = internal := by
  unfold externalName Composite.externalName Naming.snakeToPascal
  split
  · next c found =>
    rw [undeclared c found]
    simp [special]
  · simp [special]

end Registry

/-! ## Steps that only widen the special names -/

section Widening

variable {ε ε' α β γ : Type}

/-- Every run of the step, from any special names, ends with special names that extend them. -/
def Widens (x : ExceptT ε (StateM Vocabulary) α) : Prop :=
  ∀ vocab : Vocabulary, vocab.Extends ((ExceptT.run x).run vocab).2

namespace Widens

theorem pure (a : α) : Widens (Pure.pure a : ExceptT ε (StateM Vocabulary) α) :=
  fun vocab => Vocabulary.Extends.refl vocab

theorem throw (e : ε) : Widens (MonadExcept.throw e : ExceptT ε (StateM Vocabulary) α) :=
  fun vocab => Vocabulary.Extends.refl vocab

theorem bind {x : ExceptT ε (StateM Vocabulary) α} {f : α → ExceptT ε (StateM Vocabulary) β}
    (first : Widens x) (rest : ∀ a, Widens (f a)) : Widens (x >>= f) := by
  intro vocab
  have grown := first vocab
  cases ran : (ExceptT.run x).run vocab with
  | mk result vocab' =>
    rw [ran] at grown
    cases result with
    | error e =>
      have stopped : (ExceptT.run (x >>= f)).run vocab = (.error e, vocab') := by
        simp only [ExceptT.run_bind, StateT.run_bind, ran]
        rfl
      rw [stopped]
      exact grown
    | ok a =>
      have continued : (ExceptT.run (x >>= f)).run vocab = (ExceptT.run (f a)).run vocab' := by
        simp only [ExceptT.run_bind, StateT.run_bind, ran]
        rfl
      rw [continued]
      exact grown.trans (rest a vocab')

theorem ofExcept (x : Except ε α) :
    Widens (liftExcept x : ExceptT ε (StateM Vocabulary) α) := by
  cases x with
  | error e => exact throw e
  | ok a => exact pure a

theorem lift {x : StateM Vocabulary α}
    (grows : ∀ vocab : Vocabulary, vocab.Extends (x.run vocab).2) :
    Widens (x : ExceptT ε (StateM Vocabulary) α) :=
  grows

theorem adapt {x : ExceptT ε (StateM Vocabulary) α} {f : ε → ε'} (first : Widens x) :
    Widens (x.adapt f) := by
  intro vocab
  rw [Avoids.run_adapt]
  exact first vocab

theorem foldlM {xs : List γ} {f : β → γ → ExceptT ε (StateM Vocabulary) β}
    (step : ∀ acc x, Widens (f acc x)) : ∀ init, Widens (xs.foldlM f init) := by
  induction xs with
  | nil => exact fun init => pure init
  | cons x xs inductionHypothesis =>
    intro init
    rw [List.foldlM_cons]
    exact bind (step init x) inductionHypothesis

theorem mapM {xs : List γ} {f : γ → ExceptT ε (StateM Vocabulary) β}
    (step : ∀ x, Widens (f x)) : Widens (xs.mapM f) := by
  induction xs with
  | nil => exact pure []
  | cons x xs inductionHypothesis =>
    rw [List.mapM_cons]
    exact bind (step x) fun y => bind inductionHypothesis fun ys => pure (y :: ys)

end Widens

/-- A `mapM` loop of state steps that each widen the special names widens them. -/
theorem stateM_mapM_extends {f : γ → StateM Vocabulary β}
    (step : ∀ (x : γ) (vocab : Vocabulary), vocab.Extends ((f x).run vocab).2) :
    ∀ (xs : List γ) (vocab : Vocabulary), vocab.Extends ((xs.mapM f).run vocab).2
  | [], vocab => Vocabulary.Extends.refl vocab
  | x :: xs, vocab => by
    rw [List.mapM_cons]
    simp only [StateT.run_bind]
    exact (step x vocab).trans (stateM_mapM_extends step xs _)

end Widening

namespace Registry

variable {r : Registry}

/-- Reading the keys of data adds to the type's special names only keys that convert to
themselves. -/
theorem internalKeys_extends (r : Registry) (typeName : String) (raw : List (String × Value))
    (vocab : Vocabulary) : vocab.Extends ((r.internalKeys typeName raw).run vocab).2 := by
  unfold internalKeys
  simp only [StateT.run_bind]
  refine stateM_mapM_extends (fun entry vocab => ?_) raw vocab
  exact r.internalName_extends vocab typeName entry.1

theorem instanceMap_extends (r : Registry) (typeName : String) (fields : List (String × Value))
    (vocab : Vocabulary) : vocab.Extends ((r.instanceMap typeName fields).run vocab).2 :=
  Vocabulary.Extends.refl vocab

/-- Every cast function at one bound only widens the special names. -/
structure Widening (r : Registry) (n : Nat) : Prop where
  castWith : ∀ k v, Widens (r.castWith n k v)
  castPolymorph : ∀ c v, Widens (r.castPolymorph n c v)
  discriminate : ∀ c data, Widens (r.discriminate n c data)
  fromMap : ∀ c raw, Widens (r.fromMap n c raw)
  construct : ∀ c args, Widens (r.construct n c args)
  runInitializer : ∀ i args fields owner, Widens (r.runInitializer n i args fields owner)
  invoke : ∀ ctor args fields owner, Widens (r.invoke n ctor args fields owner)
  coerce : ∀ name h k v, Widens (r.coerce n name h k v)

theorem widening_zero : Widening r 0 where
  castWith _ _ := by rw [castWith]; exact Widens.throw _
  castPolymorph _ _ := by rw [castPolymorph]; exact Widens.throw _
  discriminate _ _ := by rw [discriminate]; exact Widens.throw _
  fromMap _ _ := by rw [fromMap]; exact Widens.throw _
  construct _ _ := by rw [construct]; exact Widens.throw _
  runInitializer _ _ _ _ := by rw [runInitializer]; exact Widens.throw _
  invoke _ _ _ _ := by rw [invoke]; exact Widens.throw _
  coerce _ _ _ _ := by rw [coerce]; exact Widens.throw _

section Succ

variable {n : Nat} (ih : Widening r n)
include ih

theorem castWith_widens (k : Caster) (v : Value) : Widens (r.castWith (n + 1) k v) := by
  cases k with
  | identity => simp only [castWith]; exact Widens.pure v
  | native t =>
    simp only [castWith]
    split
    · exact Widens.pure _
    · exact Widens.throw _
  | list item =>
    cases v
    case list xs =>
      simp only [castWith]
      exact Widens.bind (Widens.mapM fun _ => Widens.adapt (ih.castWith item _)) fun _ =>
        Widens.pure _
    all_goals simp only [castWith]; exact Widens.throw _
  | enum name =>
    simp only [castWith]
    split
    · exact Widens.throw _
    · split
      · exact Widens.pure _
      · exact Widens.throw _
  | composite name =>
    cases v
    case object t fs =>
      simp only [castWith]
      split
      · exact Widens.pure _
      · -- a foreign instance is read back through its map, which only reads the special names
        exact Widens.adapt (Widens.bind (Widens.ofExcept _) fun c =>
          Widens.bind (Widens.lift (r.instanceMap_extends t fs)) fun raw => ih.fromMap c raw)
    case map es =>
      simp only [castWith]
      exact Widens.adapt (Widens.bind (Widens.ofExcept _) fun c => ih.fromMap c es)
    all_goals simp only [castWith]; exact Widens.throw _
  | keyed property mapping => simp only [castWith]; exact ih.castPolymorph _ v
  | conditional branches => simp only [castWith]; exact ih.castPolymorph _ v

theorem castPolymorph_widens (c : Caster) (v : Value) :
    Widens (r.castPolymorph (n + 1) c v) := by
  cases v
  case object t fs =>
    simp only [castPolymorph]
    split
    · exact Widens.pure _
    · exact Widens.throw _
  case map es =>
    simp only [castPolymorph]
    exact Widens.adapt (ih.discriminate c es)
  all_goals simp only [castPolymorph]; exact Widens.throw _

theorem discriminate_widens (c : Caster) (data : List (String × Value)) :
    Widens (r.discriminate (n + 1) c data) := by
  simp only [discriminate]
  exact Widens.bind (Widens.ofExcept _) fun chosen => Widens.adapt (ih.castWith chosen.2 _)

theorem fromMap_widens (c : Composite) (raw : List (String × Value)) :
    Widens (r.fromMap (n + 1) c raw) := by
  simp only [fromMap]
  -- the keys are read first: the one place where special names are added
  exact Widens.bind (Widens.lift (r.internalKeys_extends c.name raw)) fun keyword =>
    Widens.bind (ih.construct c _) fun _ => Widens.pure _

theorem construct_widens (c : Composite) (args : Arguments) :
    Widens (r.construct (n + 1) c args) := by
  simp only [construct]
  exact Widens.adapt (ih.runInitializer _ _ _ _)

theorem runInitializer_widens (i : Initializer) (args : Arguments) (fields : List (String × Value))
    (owner : String) : Widens (r.runInitializer (n + 1) i args fields owner) := by
  cases i with
  | direct ctor =>
    simp only [runInitializer]
    exact ih.invoke ctor args fields owner
  | combined signature parents =>
    simp only [runInitializer]
    exact Widens.bind (Widens.ofExcept _) fun bound =>
      Widens.foldlM (fun acc parent => Widens.bind (Widens.ofExcept _) fun pc =>
        ih.runInitializer _ _ _ _) fields

theorem invoke_widens (ctor : Constructor) (args : Arguments) (fields : List (String × Value))
    (owner : String) : Widens (r.invoke (n + 1) ctor args fields owner) := by
  simp only [invoke]
  refine Widens.bind (Widens.ofExcept _) fun bound => ?_
  refine Widens.bind (Widens.foldlM (fun acc p => ?_) fields) fun fields => ?_
  · split
    · exact Widens.pure _
    · exact Widens.bind (Widens.adapt (ih.coerce _ _ _ _)) fun _ => Widens.pure _
  · split
    · exact Widens.pure _
    · refine Widens.foldlM (fun acc extra => ?_) fields
      exact Widens.bind (Widens.lift fun vocab => Vocabulary.Extends.refl vocab) fun vocab =>
        Widens.bind (Widens.adapt (ih.coerce _ _ _ _)) fun _ => Widens.pure _

theorem coerce_widens (name : String) (h : TypeHandle) (k : Caster) (v : Value) :
    Widens (r.coerce (n + 1) name h k v) := by
  simp only [coerce]
  split
  · exact Widens.pure v
  · exact Widens.adapt (ih.castWith k v)

end Succ

/-- No cast function, at any bound, does more to the special names than widen them. -/
theorem widening (r : Registry) : ∀ n, Widening r n
  | 0 => widening_zero
  | n + 1 =>
    have ih := widening r n
    { castWith := castWith_widens ih
      castPolymorph := castPolymorph_widens ih
      discriminate := discriminate_widens ih
      fromMap := fromMap_widens ih
      construct := construct_widens ih
      runInitializer := runInitializer_widens ih
      invoke := invoke_widens ih
      coerce := coerce_widens ih }

/-! ## Calls through a registry -/

/-- One call through a registry, from the special names before it to those after it, whatever
its outcome: loading an instance from data or from JSON text, constructing one, or casting,
instantiating or discriminating a value. -/
inductive Call (r : Registry) : Vocabulary → Vocabulary → Prop
  | fromDict (c : Composite) (raw : Value) (vocab : Vocabulary) :
      r.Call vocab ((r.fromDict c raw).run' vocab).2
  | fromJsonText (c : Composite) (text : String) (vocab : Vocabulary) :
      r.Call vocab ((r.fromJsonText c text).run' vocab).2
  | fromJsonStream (c : Composite) (text : String) (vocab : Vocabulary) :
      r.Call vocab ((r.fromJsonStream c text).run' vocab).2
  | constructInstance (c : Composite) (args : Arguments) (vocab : Vocabulary) :
      r.Call vocab ((r.constructInstance c args).run' vocab).2
  | cast (k : Caster) (v : Value) (vocab : Vocabulary) :
      r.Call vocab ((r.cast k v).run' vocab).2
  | instantiate (name : String) (v : Value) (vocab : Vocabulary) :
      r.Call vocab ((r.instantiate name v).run' vocab).2
  | discriminateAs (name : String) (data : Value) (vocab : Vocabulary) :
      r.Call vocab ((r.discriminateAs name data).run' vocab).2

theorem cast_widens (k : Caster) (v : Value) : Widens (r.cast k v) :=
  Widens.adapt ((r.widening _).castWith k v)

theorem fromDict_widens (c : Composite) (raw : Value) : Widens (r.fromDict c raw) := by
  unfold fromDict
  split
  · exact (r.widening _).fromMap c _
  · split
    · exact Widens.pure _
    · exact Widens.bind (Widens.lift (r.instanceMap_extends _ _)) fun es =>
        (r.widening _).fromMap c es
  · exact Widens.throw _

theorem fromJsonText_widens (c : Composite) (text : String) : Widens (r.fromJsonText c text) := by
  unfold fromJsonText
  split
  · exact Widens.throw _
  · exact r.fromDict_widens c _

theorem fromJsonStream_widens (c : Composite) (text : String) :
    Widens (r.fromJsonStream c text) := by
  unfold fromJsonStream
  split
  · exact Widens.throw _
  · exact r.fromDict_widens c _

theorem constructInstance_widens (c : Composite) (args : Arguments) :
    Widens (r.constructInstance c args) := by
  unfold constructInstance
  exact Widens.bind ((r.widening _).construct c args) fun _ => Widens.pure _

theorem instantiate_widens (name : String) (v : Value) : Widens (r.instantiate name v) := by
  unfold instantiate
  exact Widens.bind (Widens.ofExcept _) fun e => r.cast_widens e.caster v

theorem discriminateAs_widens (name : String) (data : Value) :
    Widens (r.discriminateAs name data) := by
  unfold discriminateAs
  refine Widens.bind (Widens.ofExcept _) fun e => ?_
  dsimp only
  split
  · refine Widens.bind (Widens.throw _) fun _ => ?_
    split
    · exact (r.widening _).discriminate _ _
    · exact Widens.throw _
  · split
    · exact (r.widening _).discriminate _ _
    · exact Widens.throw _

/-- One call only widens the special names. -/
theorem Call.extends {vocab vocab' : Vocabulary} (call : r.Call vocab vocab') :
    vocab.Extends vocab' := by
  cases call with
  | fromDict c raw => exact r.fromDict_widens c raw vocab
  | fromJsonText c text => exact r.fromJsonText_widens c text vocab
  | fromJsonStream c text => exact r.fromJsonStream_widens c text vocab
  | constructInstance c args => exact r.constructInstance_widens c args vocab
  | cast k v => exact r.cast_widens k v vocab
  | instantiate name v => exact r.instantiate_widens name v vocab
  | discriminateAs name data => exact r.discriminateAs_widens name data vocab

/-- Any sequence of calls only widens the special names. -/
theorem calls_extend {vocab vocab' : Vocabulary}
    (calls : Relation.ReflTransGen r.Call vocab vocab') :
    vocab.Extends vocab' := by
  induction calls with
  | refl => exact Vocabulary.Extends.refl vocab
  | tail _ call earlier => exact earlier.trans call.extends

end Registry

/-! ## Writing values -/

namespace Value

/-- `v` holds, at some depth, an instance of the type `t` with a field under the attribute `a`. -/
inductive HasAttribute : Value → String → String → Prop
  | field {t a : String} {fs : List (String × Value)} {w : Value} :
      (a, w) ∈ fs → HasAttribute (.object t fs) t a
  | inField {t a u b : String} {fs : List (String × Value)} {w : Value} :
      (a, w) ∈ fs → HasAttribute w u b → HasAttribute (.object t fs) u b
  | item {xs : List Value} {x : Value} {u b : String} :
      x ∈ xs → HasAttribute x u b → HasAttribute (.list xs) u b
  | entry {es : List (String × Value)} {k u b : String} {x : Value} :
      (k, x) ∈ es → HasAttribute x u b → HasAttribute (.map es) u b

theorem depth_le_of_mem_items {x : Value} :
    ∀ {xs : List Value}, x ∈ xs → x.depth ≤ depthItems xs
  | y :: ys, member => by
    rw [depthItems]
    rcases List.mem_cons.mp member with rfl | later
    · exact Nat.le_max_left _ _
    · exact Nat.le_trans (depth_le_of_mem_items later) (Nat.le_max_right _ _)

theorem depth_le_of_mem_entries {k : String} {x : Value} :
    ∀ {es : List (String × Value)}, (k, x) ∈ es → x.depth ≤ depthEntries es
  | (k', y) :: es, member => by
    rw [depthEntries]
    rcases List.mem_cons.mp member with same | later
    · cases same
      exact Nat.le_max_left _ _
    · exact Nat.le_trans (depth_le_of_mem_entries later) (Nat.le_max_right _ _)

variable {f g : String → String → String}

theorem plainItems_agree :
    ∀ {xs : List Value}, (∀ x ∈ xs, toPlain f x = toPlain g x) →
      plainItems f xs = plainItems g xs
  | [], _ => rfl
  | x :: xs, same => by
    rw [plainItems, plainItems, same x List.mem_cons_self,
      plainItems_agree fun y member => same y (List.mem_cons_of_mem _ member)]

theorem plainEntries_agree : ∀ {es : List (String × Value)},
    (∀ e ∈ es, toPlain f e.2 = toPlain g e.2) → plainEntries f es = plainEntries g es
  | [], _ => rfl
  | (k, x) :: es, same => by
    rw [plainEntries, plainEntries, same (k, x) List.mem_cons_self,
      plainEntries_agree fun e member => same e (List.mem_cons_of_mem _ member)]

theorem plainFields_agree {name : String} : ∀ {fs : List (String × Value)},
    (∀ e ∈ fs, f name e.1 = g name e.1 ∧ toPlain f e.2 = toPlain g e.2) →
      plainFields f name fs = plainFields g name fs
  | [], _ => rfl
  | (k, x) :: fs, same => by
    obtain ⟨key, value⟩ := same (k, x) List.mem_cons_self
    rw [plainFields, plainFields, key, value,
      plainFields_agree fun e member => same e (List.mem_cons_of_mem _ member)]

theorem jsonItems_agree : ∀ {xs : List Value} (ix : Nat),
    (∀ x ∈ xs, toJson f x = toJson g x) → jsonItems f ix xs = jsonItems g ix xs
  | [], _, _ => rfl
  | x :: xs, ix, same => by
    rw [jsonItems, jsonItems, same x List.mem_cons_self,
      jsonItems_agree (ix + 1) fun y member => same y (List.mem_cons_of_mem _ member)]

theorem jsonEntries_agree : ∀ {es : List (String × Value)} (acc : List (String × Json)),
    (∀ e ∈ es, toJson f e.2 = toJson g e.2) → jsonEntries f acc es = jsonEntries g acc es
  | [], _, _ => rfl
  | (k, x) :: es, acc, same => by
    rw [jsonEntries, jsonEntries, same (k, x) List.mem_cons_self]
    congr 1
    funext j
    exact jsonEntries_agree _ fun e member => same e (List.mem_cons_of_mem _ member)

theorem jsonFields_agree {name : String} :
    ∀ {fs : List (String × Value)} (acc : List (String × Json)),
      (∀ e ∈ fs, f name e.1 = g name e.1 ∧ toJson f e.2 = toJson g e.2) →
        jsonFields f name acc fs = jsonFields g name acc fs
  | [], _, _ => rfl
  | (k, x) :: fs, acc, same => by
    obtain ⟨key, value⟩ := same (k, x) List.mem_cons_self
    rw [jsonFields, jsonFields, key, value]
    congr 1
    funext j
    exact jsonFields_agree _ fun e member => same e (List.mem_cons_of_mem _ member)

/-- Writing a value, as plain data or as JSON, uses the external names only of the attributes
it holds. By induction on a bound on the depth of the value. -/
theorem written_agree : ∀ (n : Nat) (v : Value), v.depth < n →
    (∀ t a, v.HasAttribute t a → f t a = g t a) →
      toPlain f v = toPlain g v ∧ toJson f v = toJson g v
  | 0, _, shallow, _ => absurd shallow (Nat.not_lt_zero _)
  | n + 1, v, shallow, agree => by
    cases v
    case list xs =>
      have items : ∀ x ∈ xs, toPlain f x = toPlain g x ∧ toJson f x = toJson g x :=
        fun x member => written_agree n x
          (by have := depth_le_of_mem_items member; simp only [depth] at shallow; omega)
          fun t a held => agree t a (.item member held)
      simp only [toPlain, toJson]
      rw [plainItems_agree fun x member => (items x member).1,
        jsonItems_agree 0 fun x member => (items x member).2]
      exact ⟨rfl, rfl⟩
    case map es =>
      have entries : ∀ e ∈ es, toPlain f e.2 = toPlain g e.2 ∧ toJson f e.2 = toJson g e.2 :=
        fun e member => written_agree n e.2
          (by have := depth_le_of_mem_entries member; simp only [depth] at shallow; omega)
          fun t a held => agree t a (.entry member held)
      simp only [toPlain, toJson]
      rw [plainEntries_agree fun e member => (entries e member).1,
        jsonEntries_agree [] fun e member => (entries e member).2]
      exact ⟨rfl, rfl⟩
    case object name fs =>
      have fields : ∀ e ∈ fs, f name e.1 = g name e.1 ∧
          toPlain f e.2 = toPlain g e.2 ∧ toJson f e.2 = toJson g e.2 := by
        intro e member
        refine ⟨agree name e.1 (.field member), written_agree n e.2 ?_
          fun t a held => agree t a (.inField member held)⟩
        have := depth_le_of_mem_entries member
        simp only [depth] at shallow
        omega
      simp only [toPlain, toJson]
      rw [plainFields_agree fun e member => ⟨(fields e member).1, (fields e member).2.1⟩,
        jsonFields_agree [] fun e member => ⟨(fields e member).1, (fields e member).2.2⟩]
      exact ⟨rfl, rfl⟩
    all_goals exact ⟨rfl, rfl⟩

end Value

namespace Registry

variable {r : Registry}

theorem externalName_declared {vocab : Vocabulary} {typeName internal : String} {c : Composite}
    {p : Property} (found : r.composite typeName = .ok c)
    (declared : c.property? internal = some p) :
    r.externalName vocab typeName internal = p.externalName := by
  unfold externalName Composite.externalName
  rw [found]
  simp only [declared]

/-- Under special names that extend others, an attribute is written under another name only
when it has joined its type's special names, and then as it is. -/
theorem externalName_of_extends {before after : Vocabulary} (grown : before.Extends after)
    {typeName a : String}
    (differs : r.externalName after typeName a ≠ r.externalName before typeName a) :
    a ∈ (after.get typeName).names ∧ a ∉ (before.get typeName).names ∧
      r.externalName after typeName a = a := by
  -- the name depends on the special names only through whether `a` is one of them
  have later : a ∈ (after.get typeName).names := by
    by_contra absent
    have earlier : a ∉ (before.get typeName).names := fun known =>
      absent (grown.keeps typeName a known)
    refine differs (externalName_congr ?_)
    rw [Bool.eq_false_iff.mpr (mt Naming.contains_eq_true.mp absent),
      Bool.eq_false_iff.mpr (mt Naming.contains_eq_true.mp earlier)]
  have earlier : a ∉ (before.get typeName).names := by
    intro known
    refine differs (externalName_congr ?_)
    rw [Naming.contains_eq_true.mpr later, Naming.contains_eq_true.mpr known]
  -- a declared attribute keeps its property's external name
  have undeclared : ∀ c, r.composite typeName = .ok c → c.property? a = none := by
    intro c found
    cases declared : c.property? a with
    | none => rfl
    | some p =>
      exact absurd ((externalName_declared found declared).trans
        (externalName_declared found declared).symm) differs
  exact ⟨later, earlier, externalName_special (Naming.contains_eq_true.mpr later) undeclared⟩

/-- An instance is written in the same way under two sets of special names that agree on
whether each of its attributes, at any depth, is special. -/
theorem instance_written_agree {before after : Vocabulary} {typeName : String}
    {fields : List (String × Value)}
    (same : ∀ u a, (Value.object typeName fields).HasAttribute u a →
      (after.get u).contains a = (before.get u).contains a) :
    r.instanceDict after typeName fields = r.instanceDict before typeName fields ∧
      r.valueJson after (.object typeName fields) =
        r.valueJson before (.object typeName fields) := by
  have agree := Value.written_agree (f := r.externalNames after) (g := r.externalNames before) _
    (.object typeName fields) (Nat.lt_succ_self _)
    fun u a held => externalName_congr (same u a held)
  refine ⟨?_, agree.2⟩
  have plain := agree.1
  simp only [Value.toPlain] at plain
  exact Value.map.inj plain

/-! ## The translation after any calls -/

/-- What calls through a registry change in how its types translate names, from the special
names `before` the calls to those `after` them. -/
structure NamesAfter (r : Registry) (before after : Vocabulary) : Prop where
  /-- every key of data is read as the same attribute -/
  internal : ∀ typeName key,
    (r.internalName after typeName key).1 = (r.internalName before typeName key).1
  /-- no special name is lost -/
  kept : ∀ typeName x, x ∈ (before.get typeName).names → x ∈ (after.get typeName).names
  /-- a special name that was added converts to itself -/
  added : ∀ typeName x, x ∈ (after.get typeName).names → x ∉ (before.get typeName).names →
    (Naming.pascalToSnake x {}).1 = x
  /-- an attribute is written under another name only once it has become special, and then
  as it is -/
  renamed : ∀ typeName a, r.externalName after typeName a ≠ r.externalName before typeName a →
    a ∈ (after.get typeName).names ∧ a ∉ (before.get typeName).names ∧
      r.externalName after typeName a = a
  /-- an instance none of whose attributes, at any depth, has become special is written as
  before, as plain data and as JSON -/
  written : ∀ typeName fields,
    (∀ u a, (Value.object typeName fields).HasAttribute u a →
      (after.get u).contains a = (before.get u).contains a) →
    r.instanceDict after typeName fields = r.instanceDict before typeName fields ∧
      r.valueJson after (.object typeName fields) = r.valueJson before (.object typeName fields)

/-- Whatever calls go through a registry, in whatever order and with whatever outcome, a key of
data is read as the same attribute as before them; the special names only gain names that
convert to themselves; and an attribute is written under another name only when it has joined
its type's special names, so an instance none of whose attributes joined them is written as
before. -/
theorem calls_keep_translation {R : Registry} {before after : Vocabulary}
    (calls : Relation.ReflTransGen R.Call before after) : R.NamesAfter before after := by
  have grown := calls_extend calls
  exact ⟨fun typeName key => internalName_of_extends grown typeName key, grown.keeps,
    fun typeName x member fresh => (grown.adds typeName x member).resolve_left fresh,
    fun _ _ differs => externalName_of_extends grown differs,
    fun _ _ same => instance_written_agree same⟩

end Registry

/-- A document with one type of notes: a text, and any other fields. -/
def notes : Document :=
  { title := none, root := some "Note",
    definitions := [
      ("Note", ⟨[("type", .str "object"),
        ("properties", .obj [("Text", .obj [("type", .str "string")])]),
        ("additionalProperties", .bool true)]⟩)] }

/-- The registry compiled from `notes`. -/
def notesRegistry : Registry := notes.compile.toOption.getD {}

/-- The type of notes. -/
def noteType : Composite :=
  (notesRegistry.composite "Note").toOption.getD (Composite.empty "Note" .custom)

/-- Data of a note with a field under the key `sample_mass`. -/
def massBySnakeKey : Value := .map [("sample_mass", .int 2)]

theorem notes_names_after_load :
    notesRegistry.NamesAfter notesRegistry.vocabulary
      ((notesRegistry.fromDict noteType massBySnakeKey).run' notesRegistry.vocabulary).2 :=
  Registry.calls_keep_translation (.single (.fromDict noteType massBySnakeKey _))

/-- A note loaded from `{"SampleMass": 1}` is written with the key `SampleMass`; once a later
load has met the key `sample_mass`, the same note is written with the key `sample_mass`. -/
theorem later_load_renames_field :
    ∃ o vocab₁ result vocab₂,
      (notesRegistry.fromDict noteType (.map [("SampleMass", .int 1)])).run'
        notesRegistry.vocabulary = (.ok o, vocab₁) ∧
      (notesRegistry.fromDict noteType massBySnakeKey).run' vocab₁ = (result, vocab₂) ∧
      ((notesRegistry.valueJson vocab₁ o).map Json.compact).toOption =
        some "\x7b\"Text\":null,\"SampleMass\":1\x7d" ∧
      ((notesRegistry.valueJson vocab₂ o).map Json.compact).toOption =
        some "\x7b\"Text\":null,\"sample_mass\":1\x7d" := by
  have checked : (match (notesRegistry.fromDict noteType (.map [("SampleMass", .int 1)])).run'
      notesRegistry.vocabulary with
    | (.ok o, vocab₁) =>
      ((notesRegistry.valueJson vocab₁ o).map Json.compact).toOption ==
          some "\x7b\"Text\":null,\"SampleMass\":1\x7d" &&
        ((notesRegistry.valueJson
          ((notesRegistry.fromDict noteType massBySnakeKey).run' vocab₁).2 o).map
            Json.compact).toOption == some "\x7b\"Text\":null,\"sample_mass\":1\x7d"
    | (.error _, _) => false) = true := by
    decide +kernel
  cases first : (notesRegistry.fromDict noteType (.map [("SampleMass", .int 1)])).run'
      notesRegistry.vocabulary with
  | mk result₁ vocab₁ =>
    rw [first] at checked
    cases result₁ with
    | error _ => cases checked
    | ok o =>
      simp only [Bool.and_eq_true, beq_iff_eq] at checked
      exact ⟨o, vocab₁, _, _, rfl, rfl, checked.1, checked.2⟩

end SchemaTypes
