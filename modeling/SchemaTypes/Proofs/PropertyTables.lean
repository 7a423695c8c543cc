import SchemaTypes.Proofs.Binding
import SchemaTypes.Proofs.CompiledRegistry

/-! # The property tables of a compiled registry

Every composite type of a compiled registry has the table its kind gives it
(`Registry.Tabled`). A custom type has the table of its definition, which the binding pass
builds. The last pass finalizes the other types from their parents, each parent first: a
passthrough type takes its target's properties, catch-all and initializer; a type with several
parents takes the union of its parents' tables, set in order by attribute name, the catch-all of
the last parent that has one, and an initializer that binds the merged parameters and then each
parent.

Finalizing is a depth-first walk with a list of finished types and a stack of types being
finished. Its invariant (`Compiler.Finishing`) is that every finished type has its parents
finished and its table in place; a step changes only the type it finishes, which is neither
finished nor on the stack, so it is none of the parents of a finished type and every table in
place stays so.
-/

namespace SchemaTypes

/-- The property table each kind of composite type ends with in the registry `r`: a custom
type has the table of its definition; a passthrough type its target's properties and catch-all,
and the target's initializer under its own name; a type with several parents the union of its
parents' tables set in order by attribute name, the catch-all of the last parent that has one,
and an initializer that binds the merged parameters and then initializes each parent. -/
def Registry.Tabled (r : Registry) (c : Composite) : Prop :=
  match c.kind with
  | .custom => ∃ e, r.entry c.name = .ok e ∧ c.BoundBy e.definition
  | .passthrough parent => ∃ p, r.composite parent = .ok p ∧ c.properties = p.properties ∧
      c.catchAll = p.catchAll ∧ c.initializer = p.initializer.renamed c.name
  | .multiInheritance parents =>
    ∃ ps, List.Forall₂ (fun q p => r.composite q = .ok p) parents ps ∧
      c.properties = (ps.flatMap (·.properties)).foldl Composite.setProperty [] ∧
      c.catchAll = (ps.filterMap (·.catchAll)).getLast? ∧
      c.initializer = .combined ⟨c.name, c.properties, c.catchAll⟩ parents

namespace Registry

variable {r r' : Registry}

theorem forall₂_composite_congr {qs : List String} {ps : List Composite}
    (same : ∀ q ∈ qs, r'.composite q = r.composite q)
    (related : List.Forall₂ (fun q p => r.composite q = .ok p) qs ps) :
    List.Forall₂ (fun q p => r'.composite q = .ok p) qs ps := by
  induction related with
  | nil => exact .nil
  | cons found _ ih =>
    exact .cons ((same _ List.mem_cons_self).trans found)
      (ih fun q member => same q (List.mem_cons_of_mem _ member))

/-- A table stays in place in a registry with the same entries and the same composite types
under the names of its parents. -/
theorem Tabled.of_same {c : Composite} (tabled : r.Tabled c) (entries : r'.entries = r.entries)
    (parents : ∀ p ∈ c.parents, r'.composite p = r.composite p) : r'.Tabled c := by
  unfold Tabled at tabled ⊢
  split at tabled
  · obtain ⟨e, found, bound⟩ := tabled
    exact ⟨e, by rw [entry, entries]; exact found, bound⟩
  · next parent passthrough =>
    obtain ⟨p, found, table⟩ := tabled
    have same := parents parent (by simp [Composite.parents, passthrough])
    exact ⟨p, same.trans found, table⟩
  · next qs inheritance =>
    obtain ⟨ps, related, table⟩ := tabled
    refine ⟨ps, forall₂_composite_congr (fun q member => ?_) related, table⟩
    exact parents q (by simpa [Composite.parents, inheritance] using member)

theorem insertComposite_entries (c : Composite) : (r.insertComposite c).entries = r.entries := by
  unfold insertComposite
  split <;> rfl

/-- Replacing a composite type leaves the composite types of other names as they are. -/
theorem composite_insertComposite_ne {c : Composite} {x : String}
    (present : c.name ∈ r.compositeNames) (other : x ≠ c.name) :
    (r.insertComposite c).composite x = r.composite x := by
  rw [insertComposite_of_present present]
  unfold composite
  have keepsName : ∀ y : Composite, (if y.name == c.name then c else y).name = y.name := by
    intro y
    split
    · next same => exact (beq_iff_eq.mp same).symm
    · rfl
  simp only [List.find?_map, Function.comp_def, keepsName]
  cases found : r.composites.find? (·.name == x) with
  | none => rfl
  | some y =>
    have named : y.name = x := (@find?_named _ _ Composite.name _ _ found).2
    simp [named, other]

theorem composite_insertComposite_self {c : Composite} (present : c.name ∈ r.compositeNames) :
    (r.insertComposite c).composite c.name = .ok c := by
  rw [insertComposite_of_present present]
  unfold composite
  obtain ⟨y, found⟩ := find?_named_isSome present
  have named : y.name = c.name := (@find?_named _ _ Composite.name _ _ found).2
  have keepsName : ∀ y : Composite, (if y.name == c.name then c else y).name = y.name := by
    intro y
    split
    · next same => exact (beq_iff_eq.mp same).symm
    · rfl
  simp only [List.find?_map, Function.comp_def, keepsName, found, Option.map_some, named,
    beq_self_eq_true, if_true]

end Registry

namespace Compiler

variable {D : Document}

/-- What finalizing keeps: every custom type has its table, and every finished type has its
parents finished and its table in place. -/
structure Finishing (done : List String) (r : Registry) : Prop where
  bound : ∀ x c, r.composite x = .ok c → c.kind = .custom → r.Tabled c
  finished : ∀ x ∈ done, ∀ c, r.composite x = .ok c → (∀ p ∈ c.parents, p ∈ done) ∧ r.Tabled c

/-- Finishing a type that is not finished yet, with its parents finished, keeps every table in
place: the type is none of the parents of a finished type. -/
theorem Finishing.insert {done : List String} {r : Registry} {c : Composite}
    (finishing : Finishing done r) (present : c.name ∈ r.compositeNames) (fresh : c.name ∉ done)
    (notCustom : c.kind ≠ .custom) (parents : ∀ p ∈ c.parents, p ∈ done)
    (tabled : (r.insertComposite c).Tabled c) : Finishing (done ++ [c.name]) (r.insertComposite c) := by
  have kept : ∀ x ∈ done, (r.insertComposite c).composite x = r.composite x := fun x member =>
    Registry.composite_insertComposite_ne present fun same => fresh (same ▸ member)
  have entries := @Registry.insertComposite_entries r c
  constructor
  · intro x c' found custom
    by_cases same : x = c.name
    · rw [same, Registry.composite_insertComposite_self present] at found
      cases found
      exact absurd custom notCustom
    · rw [Registry.composite_insertComposite_ne present same] at found
      refine (finishing.bound x c' found custom).of_same entries fun p parent => ?_
      simp [Composite.parents, custom] at parent
  · intro x member c' found
    rcases List.mem_append.mp member with old | new
    · rw [kept x old] at found
      obtain ⟨parentsDone, table⟩ := finishing.finished x old c' found
      exact ⟨fun p parent => List.mem_append_left _ (parentsDone p parent),
        table.of_same entries fun p parent => kept p (parentsDone p parent)⟩
    · rw [List.mem_singleton.mp new, Registry.composite_insertComposite_self present] at found
      cases found
      exact ⟨fun p parent => List.mem_append_left _ (parents p parent), tabled⟩

/-- A custom type is finished as soon as it is met: it has no parents, and its table is the
one binding gave it. -/
theorem Finishing.custom {done : List String} {r : Registry} {name : String} {c : Composite}
    (finishing : Finishing done r) (found : r.composite name = .ok c) (custom : c.kind = .custom) :
    Finishing (done ++ [name]) r := by
  refine ⟨finishing.bound, fun x member c' found' => ?_⟩
  rcases List.mem_append.mp member with old | new
  · obtain ⟨parentsDone, table⟩ := finishing.finished x old c' found'
    exact ⟨fun p parent => List.mem_append_left _ (parentsDone p parent), table⟩
  · rw [List.mem_singleton.mp new, found] at found'
    cases found'
    refine ⟨fun p parent => ?_, finishing.bound name c found custom⟩
    simp [Composite.parents, custom] at parent

/-- What finalizing from the finished names `done` to `done'` does while the names of `stack`
are being finished: every finished type has its table in place, finished names stay finished,
every name it finishes is off the stack, and it changes no entry, no composite type name and
no composite type but those it finishes. -/
structure Finalized (stack done : List String) (r : Registry) (done' : List String)
    (r' : Registry) : Prop where
  finishing : Finishing done' r'
  kept : done ⊆ done'
  offStack : ∀ x ∈ done', x ∈ done ∨ x ∉ stack
  entries : r'.entries = r.entries
  compositeNames : r'.compositeNames = r.compositeNames
  unchanged : ∀ x, x ∈ done ∨ x ∉ done' → r'.composite x = r.composite x

namespace Finalized

variable {stack : List String}

theorem refl {done : List String} {r : Registry} (finishing : Finishing done r) :
    Finalized stack done r done r :=
  ⟨finishing, fun _ member => member, fun _ member => .inl member, rfl, rfl, fun _ _ => rfl⟩

theorem trans {a b c : List String} {r r' r'' : Registry} (first : Finalized stack a r b r')
    (second : Finalized stack b r' c r'') : Finalized stack a r c r'' where
  finishing := second.finishing
  kept := List.Subset.trans first.kept second.kept
  offStack x member := (second.offStack x member).elim (first.offStack x) .inr
  entries := second.entries.trans first.entries
  compositeNames := second.compositeNames.trans first.compositeNames
  unchanged x outside := by
    rcases outside with old | notAfter
    · exact (second.unchanged x (.inl (first.kept old))).trans (first.unchanged x (.inl old))
    · exact (second.unchanged x (.inr notAfter)).trans
        (first.unchanged x (.inr fun member => notAfter (second.kept member)))

/-- What is finalized with a name pushed on the stack is finalized with the stack below it. -/
theorem pop {done done' : List String} {name : String} {r r' : Registry}
    (finalized : Finalized (stack ++ [name]) done r done' r') : Finalized stack done r done' r' :=
  { finalized with
    offStack := fun x member => (finalized.offStack x member).imp_right
      fun offStack onStack => offStack (List.mem_append_left _ onStack) }

/-- Finishing one name off the stack, changing no composite type but its own. -/
theorem single {done : List String} {name : String} {r r' : Registry}
    (finishing : Finishing (done ++ [name]) r') (fresh : name ∉ done) (offStack : name ∉ stack)
    (entries : r'.entries = r.entries) (compositeNames : r'.compositeNames = r.compositeNames)
    (unchanged : ∀ x, x ≠ name → r'.composite x = r.composite x) :
    Finalized stack done r (done ++ [name]) r' where
  finishing := finishing
  kept _ member := List.mem_append_left _ member
  offStack x member := by
    rcases List.mem_append.mp member with old | new
    · exact .inl old
    · exact .inr (List.mem_singleton.mp new ▸ offStack)
  entries := entries
  compositeNames := compositeNames
  unchanged x outside := by
    refine unchanged x ?_
    rintro rfl
    rcases outside with old | notAfter
    · exact fresh old
    · exact notAfter (List.mem_append_right _ List.mem_cons_self)

/-- Finishing a type off the stack by putting its table in place. -/
theorem insert {done : List String} {r : Registry} {c : Composite} (finishing : Finishing done r)
    (present : c.name ∈ r.compositeNames) (fresh : c.name ∉ done) (offStack : c.name ∉ stack)
    (notCustom : c.kind ≠ .custom) (parents : ∀ p ∈ c.parents, p ∈ done)
    (tabled : (r.insertComposite c).Tabled c) :
    Finalized stack done r (done ++ [c.name]) (r.insertComposite c) := by
  refine .single (finishing.insert present fresh notCustom parents tabled) fresh offStack
    (Registry.insertComposite_entries c) ?_
    fun x other => Registry.composite_insertComposite_ne present other
  simp only [Registry.insertComposite_of_present present, Registry.compositeNames,
    Registry.names_replaced]

end Finalized


/-- Merging the parents' tables, each step looking a parent up and setting its properties on
the table and its catch-all when it has one, gives the union of their tables in order and the
catch-all of the last parent that has one. -/
theorem merge_tables {r : Registry}
    {f : List Property × Option CatchAll × SpecialNames → String →
      Compiling (List Property × Option CatchAll × SpecialNames)}
    (step : ∀ acc parent v acc' v', (f acc parent).run v = .ok (acc', v') →
      v' = v ∧ ∃ p, r.composite parent = .ok p ∧
        acc'.1 = p.properties.foldl Composite.setProperty acc.1 ∧
        acc'.2.1 = if p.catchAll.isSome then p.catchAll else acc.2.1)
    {parents : List String} {s u : Compiler} {merged : List Property × Option CatchAll × SpecialNames}
    (run : (parents.foldlM f ([], none, {})).run s = .ok (merged, u)) :
    u = s ∧ ∃ ps, List.Forall₂ (fun q p => r.composite q = .ok p) parents ps ∧
      merged.1 = (ps.flatMap (·.properties)).foldl Composite.setProperty [] ∧
      merged.2.1 = (ps.filterMap (·.catchAll)).getLast? := by
  refine Compiling.foldlM_prefix
    (fun looked (acc : List Property × Option CatchAll × SpecialNames) v =>
      v = s ∧ ∃ ps, List.Forall₂ (fun q p => r.composite q = .ok p) looked ps ∧
        acc.1 = (ps.flatMap (·.properties)).foldl Composite.setProperty [] ∧
        acc.2.1 = (ps.filterMap (·.catchAll)).getLast?)
    ?_ ([], none, {}) s merged u ⟨rfl, [], .nil, rfl, rfl⟩ run
  intro looked parent _ acc v acc' v' held stepRun
  obtain ⟨rfl, ps, related, table, extra⟩ := held
  obtain ⟨rfl, p, found, table', extra'⟩ := step acc parent v acc' v' stepRun
  refine ⟨rfl, ps ++ [p], List.rel_append related (.cons found .nil), ?_, ?_⟩
  · simp only [List.flatMap_append, List.flatMap_singleton, List.foldl_append, table', table]
  · rw [extra', List.filterMap_append]
    cases own : p.catchAll with
    | none =>
      rw [List.filterMap_cons_none own, List.filterMap_nil, List.append_nil, ← extra]
      rfl
    | some x =>
      rw [List.filterMap_cons_some own, List.filterMap_nil, List.getLast?_concat]
      rfl

/-- The last step of finishing a type: looking it up again and putting its new table in
place. -/
theorem replace_ok {r : Registry} {name : String} {c : Composite} {g : Composite → Composite}
    {result done' : List String} {s t : Compiler} (found : r.composite name = .ok c)
    (run : (liftExcept (r.composite name) >>= fun c =>
      updateRegistry (·.insertComposite (g c)) >>= fun _ => pure result).run s = .ok (done', t)) :
    done' = result ∧ t = { s with registry := s.registry.insertComposite (g c) } := by
  obtain ⟨c₁, u, lookingSelf, replacing⟩ := Compiling.bind_ok run
  obtain ⟨selfFound, same⟩ := Compiling.liftExcept_ok lookingSelf
  subst u
  rw [found] at selfFound
  cases selfFound
  obtain ⟨⟨⟩, t', replaced, finishing⟩ := Compiling.bind_ok replacing
  obtain ⟨rfl, rfl⟩ := Compiling.pure_ok finishing
  simp only [updateRegistry, Compiling.run_modify, Except.ok.injEq, Prod.mk.injEq,
    true_and] at replaced
  exact ⟨rfl, replaced.symm⟩

/-- Finalizing a type finishes it and keeps every finished table in place. It finishes only
types off the stack, and changes no entry, no composite type name, and no composite type
except those it finishes. -/
theorem finalize_tables : ∀ (n : Nat) (stack : List String) (name : String) (done : List String)
    (s : Compiler) (done' : List String) (t : Compiler),
    (finalize n stack name done).run s = .ok (done', t) → Finishing done s.registry →
    Finalized stack done s.registry done' t.registry ∧ name ∈ done'
  | 0, _, _, _, _, _, _, run, _ => by
    rw [finalize] at run
    exact (Compiling.throw_ok run).elim
  | n + 1, stack, name, done, s, done', t, run, finishing => by
    rw [finalize] at run
    split at run
    · next finishedBefore =>
      obtain ⟨rfl, rfl⟩ := Compiling.pure_ok run
      exact ⟨.refl finishing, by simpa using finishedBefore⟩
    split at run
    · exact (Compiling.throw_ok run).elim
    next notDone notStacked =>
    have offStack : name ∉ stack := by simpa using notStacked
    have run := get_bind_ok run
    obtain ⟨c, looked, lookup, parenting⟩ := Compiling.bind_ok run
    obtain ⟨found, same⟩ := Compiling.liftExcept_ok lookup
    subst looked
    obtain ⟨-, named⟩ := Registry.composite_ok found
    subst named
    -- the parents are finalized first, each off the stack with this type pushed on it
    obtain ⟨done₁, s₁, finalizing, completing⟩ := Compiling.bind_ok parenting
    obtain ⟨parents₁, finalized₁⟩ := Compiling.foldlM_prefix
      (fun looked done' u => (∀ p ∈ looked, p ∈ done') ∧
        Finalized (stack ++ [c.name]) done s.registry done' u.registry)
      (by
        intro looked parent _ done' u done'' u' held step
        obtain ⟨parentsDone, finalized⟩ := held
        obtain ⟨finalized', finishedParent⟩ :=
          finalize_tables n (stack ++ [c.name]) parent done' u done'' u' step finalized.finishing
        refine ⟨fun p member => ?_, finalized.trans finalized'⟩
        rcases List.mem_append.mp member with old | new
        · exact finalized'.kept (parentsDone p old)
        · rw [List.mem_singleton.mp new]; exact finishedParent)
      done s done₁ s₁ ⟨by simp, .refl finishing⟩ finalizing
    -- so this type is still unfinished and unchanged
    have fresh : c.name ∉ done₁ := by
      intro member
      rcases finalized₁.offStack c.name member with old | onStack
      · exact notDone (by simpa using old)
      · exact onStack (List.mem_append_right _ List.mem_cons_self)
    have stillFound : s₁.registry.composite c.name = .ok c :=
      (finalized₁.unchanged c.name (.inr fresh)).trans found
    have present : c.name ∈ s₁.registry.compositeNames := by
      rw [finalized₁.compositeNames]
      exact List.mem_map_of_mem (Registry.composite_ok found).1
    -- what is left is that finishing the type itself keeps the tables in place
    suffices finished : Finalized stack done₁ s₁.registry done' t.registry ∧
        done' = done₁ ++ [c.name] by
      obtain ⟨last, rfl⟩ := finished
      exact ⟨finalized₁.pop.trans last, by simp⟩
    have completing := get_bind_ok completing
    split at completing
    · next custom =>
      obtain ⟨rfl, rfl⟩ := Compiling.pure_ok completing
      exact ⟨.single (finalized₁.finishing.custom stillFound custom) fresh offStack rfl rfl
        fun _ _ => rfl, rfl⟩
    · next parent passthrough =>
      obtain ⟨p, u, lookingParent, rest⟩ := Compiling.bind_ok completing
      obtain ⟨parentFound, same⟩ := Compiling.liftExcept_ok lookingParent
      subst u
      obtain ⟨rfl, rfl⟩ := replace_ok stillFound rest
      -- the target is finished, so it is not this type
      have parentDone : parent ∈ done₁ :=
        parents₁ parent (by simp [Composite.parents, passthrough])
      have other : parent ≠ c.name := fun same => fresh (same ▸ parentDone)
      let c' : Composite := { c with
        properties := p.properties, catchAll := p.catchAll,
        initializer := p.initializer.renamed c.name, special := c.special.union p.special }
      have tabled : (s₁.registry.insertComposite c').Tabled c' := by
        unfold Registry.Tabled
        rw [show c'.kind = .passthrough parent from passthrough]
        refine ⟨p, ?_, rfl, rfl, rfl⟩
        rw [@Registry.composite_insertComposite_ne s₁.registry c' parent present other]
        exact parentFound
      exact ⟨@Finalized.insert stack done₁ s₁.registry c' finalized₁.finishing present fresh
        offStack (by simp [c', passthrough])
        (by simpa [c', Composite.parents, passthrough] using parentDone) tabled, rfl⟩
    · next parents inheritance =>
      obtain ⟨merged, u, merging, rest⟩ := Compiling.bind_ok completing
      obtain ⟨same, ps, related, table, extra⟩ := merge_tables
        (fun acc parent v acc' v' stepRun => by
          obtain ⟨qs, ca, sp⟩ := acc
          dsimp only at stepRun
          obtain ⟨p, w, looking, building⟩ := Compiling.bind_ok stepRun
          obtain ⟨parentFound, rfl⟩ := Compiling.liftExcept_ok looking
          obtain ⟨rfl, rfl⟩ := Compiling.pure_ok building
          exact ⟨rfl, p, parentFound, rfl, rfl⟩) merging
      subst u
      obtain ⟨properties, catchAll, special⟩ := merged
      dsimp only at rest table extra
      obtain ⟨rfl, rfl⟩ := replace_ok stillFound rest
      -- every parent is finished, so none is this type
      have parentsDone : ∀ q ∈ parents, q ∈ done₁ := fun q member =>
        parents₁ q (by simpa [Composite.parents, inheritance] using member)
      let c' : Composite := { c with
        properties, catchAll, initializer := .combined ⟨c.name, properties, catchAll⟩ parents,
        special := c.special.union special }
      have tabled : (s₁.registry.insertComposite c').Tabled c' := by
        unfold Registry.Tabled
        rw [show c'.kind = .multiInheritance parents from inheritance]
        refine ⟨ps, Registry.forall₂_composite_congr (fun q member => ?_) related, table, extra,
          rfl⟩
        exact @Registry.composite_insertComposite_ne s₁.registry c' q present
          fun same => fresh (same ▸ parentsDone q member)
      exact ⟨@Finalized.insert stack done₁ s₁.registry c' finalized₁.finishing present fresh
        offStack (by simp [c', inheritance])
        (by simpa [c', Composite.parents, inheritance] using parentsDone) tabled, rfl⟩

/-- Finalizing every passthrough and multi-inheritance type leaves every composite type with its
table, once every custom type has its own. -/
theorem finalizeAll_tables {s t : Compiler} (run : finalizeAll.run s = .ok ((), t))
    (sound : Sound D s)
    (bound : ∀ x c, s.registry.composite x = .ok c → c.kind = .custom → s.registry.Tabled c) :
    ∀ c ∈ t.registry.composites, t.registry.Tabled c := by
  obtain ⟨keeps, completes, -⟩ := finalizeAll_keeps run sound
  unfold finalizeAll at run
  have run := get_bind_ok run
  obtain ⟨done, u, finalizing, finishing⟩ := Compiling.bind_ok run
  obtain ⟨-, same⟩ := Compiling.pure_ok finishing
  subst same
  -- every composite type among the names finalized so far is finished
  obtain ⟨finished, covered, -⟩ := Compiling.foldlM_prefix
    (fun (looked done : List String) (v : Compiler) =>
      Finishing done v.registry ∧ (∀ x ∈ looked, x ∈ s.registry.compositeNames → x ∈ done) ∧
        v.registry.compositeNames = s.registry.compositeNames)
    (by
      intro looked name _ done v done' v' held step
      obtain ⟨finishing, covered, names⟩ := held
      have step := get_bind_ok step
      split at step
      · obtain ⟨finalized, finishedName⟩ := finalize_tables _ [] name done v done' v' step finishing
        refine ⟨finalized.finishing, fun x member composite => ?_,
          finalized.compositeNames.trans names⟩
        rcases List.mem_append.mp member with old | new
        · exact finalized.kept (covered x old composite)
        · rw [List.mem_singleton.mp new]; exact finishedName
      · next notComposite =>
        obtain ⟨rfl, rfl⟩ := Compiling.pure_ok step
        refine ⟨finishing, fun x member composite => ?_, names⟩
        rcases List.mem_append.mp member with old | new
        · exact covered x old composite
        · rw [List.mem_singleton.mp new, ← names] at composite
          obtain ⟨c, found⟩ := Registry.composite_of_mem composite
          simp [found, Except.toBool] at notComposite)
    [] s done t ⟨⟨bound, by simp⟩, by simp, rfl⟩ finalizing
  intro c present
  have found := keeps.1.registry.composite_eq present
  -- a custom type has its table from binding; the others were finalized
  cases kind : c.kind with
  | custom => exact finished.bound c.name c found kind
  | passthrough parent =>
    obtain ⟨c₀, present₀, named, sameKind⟩ := completes.2 c present
    have grouped := (sound.kinds c₀ present₀).2.1 parent (sameKind.trans kind)
    have done' := covered c₀.name (List.mem_append_left _ grouped) (List.mem_map_of_mem present₀)
    exact (finished.finished c.name (named ▸ done') c found).2
  | multiInheritance parents =>
    obtain ⟨c₀, present₀, named, sameKind⟩ := completes.2 c present
    have grouped := (sound.kinds c₀ present₀).2.2 parents (sameKind.trans kind)
    have done' := covered c₀.name (List.mem_append_right _ grouped) (List.mem_map_of_mem present₀)
    exact (finished.finished c.name (named ▸ done') c found).2

/-- A whole run of the passes on a document whose definitions have distinct names leaves every
composite type with its table. -/
theorem run_tables {root : Option String} {t : Compiler}
    (nodup : (D.definitions.map (·.1)).Nodup) (running : (run root).run (start D) = .ok ((), t)) :
    ∀ c ∈ t.registry.composites, t.registry.Tabled c := by
  unfold run at running
  obtain ⟨⟨⟩, s₀, categorizing, registering⟩ := Compiling.bind_ok running
  obtain ⟨sound₀, definitions₀, registry₀, -⟩ := categorize_sound nodup categorizing
  have registering := get_bind_ok registering
  obtain ⟨⟨⟩, s₁, registered, discovering⟩ := Compiling.bind_ok registering
  obtain ⟨keeps₁, -⟩ := registerCategories_keeps registered sound₀
  have stubbed₁ := registerCategories_stubbed registered sound₀
  have discovering := get_bind_ok discovering
  obtain ⟨⟨⟩, s₂, discovered, binding⟩ := Compiling.bind_ok discovering
  have keeps₂ := discoverNested_keeps _ _ _ _ discovered keeps₁.1
  have stubbed₂ := discoverNested_stubbed _ _ _ _ discovered keeps₁.1
  obtain ⟨⟨⟩, s₃, bound, finalizing⟩ := Compiling.bind_ok binding
  have keeps₃ := bindFrom_keeps _ _ _ _ bound keeps₂.1
  obtain ⟨⟨⟩, u, finalized, rooting⟩ := Compiling.bind_ok finalizing
  -- before binding, every composite type is a stub
  have start : Binding D 0 s₂ := by
    refine ⟨keeps₂.1, by simp, fun c present => ⟨by simp, fun _ => ?_⟩⟩
    obtain ⟨added, grown, stubs⟩ := stubbed₁.trans stubbed₂
    rw [grown, registry₀] at present
    exact stubs c (by simpa using present)
  -- the binding pass has rounds enough: the custom types are among the definitions, which are
  -- no more than the document's size
  have enough : (s₃.group .custom).length ≤ 0 + (s₁.depthBound + 1) := by
    have within : s₃.group .custom ⊆ s₃.definitions.map (·.1) := by
      intro n member
      obtain ⟨d, defined, -⟩ :=
        keeps₃.1.categorized n .custom ((keeps₃.1.grouped n .custom).mp member)
      exact List.mem_map.mpr ⟨_, mem_of_definition? defined, rfl⟩
    have counted := (keeps₃.1.groupsNodup .custom).length_le_of_subset within
    rw [List.length_map] at counted
    have size := keeps₃.1.definitions_length_le
    have bounded := size_le_depthBound (definitions₀ ▸ keeps₁.2.1.definitions)
    omega
  obtain ⟨ix, covers, binding⟩ := bindFrom_binding _ 0 s₂ s₃ bound start enough
  -- after binding, every custom type has the table of the definition its entry holds
  have customTables : ∀ x c, s₃.registry.composite x = .ok c → c.kind = .custom →
      s₃.registry.Tabled c := by
    intro x c found custom
    obtain ⟨present, -⟩ := Registry.composite_ok found
    have grouped := (binding.sound.kinds c present).1 custom
    obtain ⟨d, defined, table⟩ :=
      (binding.tables c present).1 (by rw [List.take_of_length_le covers]; exact grouped)
    obtain ⟨e, entryFound⟩ := Registry.entry_of_contains
      (binding.sound.registry.compositesRegistered _ (List.mem_map.mpr ⟨c, present, rfl⟩))
    obtain ⟨entryPresent, entryNamed⟩ := Registry.entry_ok entryFound
    have own := (binding.sound.entriesDefined e entryPresent).1
    rw [entryNamed, defined] at own
    cases own
    unfold Registry.Tabled
    rw [custom]
    exact ⟨e, entryFound, table⟩
  have finalTables := finalizeAll_tables finalized keeps₃.1 customTables
  simp only [updateRegistry, Compiling.run_modify, Except.ok.injEq, Prod.mk.injEq,
    true_and] at rooting
  subst rooting
  intro c present
  exact (finalTables c present).of_same rfl fun _ _ => rfl

end Compiler

/-- Every composite type of a registry compiled from a document whose definitions have distinct
names has the property table of its kind. -/
theorem compiled_property_tables {D : Document} {R : Registry}
    (distinct : (D.definitions.map (·.1)).Nodup) (compiled : D.compile = .ok R) :
    ∀ c ∈ R.composites, R.Tabled c := by
  unfold Document.compile at compiled
  obtain ⟨⟨⟨⟩, t⟩, running, result⟩ := Compiling.except_bind_ok compiled
  cases result
  exact Compiler.run_tables distinct running

theorem kennel_property_tables :
    ∃ c, kennelRegistry.composite "Hound" = .ok c ∧ kennelRegistry.Tabled c := by
  have present : "Hound" ∈ kennelRegistry.compositeNames := by decide +kernel
  obtain ⟨c, found⟩ := Registry.composite_of_mem present
  exact ⟨c, found, compiled_property_tables (by decide) kennel_compiles c
    (Registry.composite_ok found).1⟩

/-- A document whose one object type has two keys with the same attribute name. -/
def samples : Document :=
  { title := none, root := none,
    definitions := [("Sample", ⟨[("type", .str "object"), ("properties", .obj [
      ("SampleMass", .obj [("type", .str "number")]),
      ("sample_mass", .obj [("type", .str "string")])])]⟩)] }

/-- The registry compiled from `samples`. -/
def samplesRegistry : Registry := samples.compile.toOption.getD {}

theorem samples_compiles : samples.compile = .ok samplesRegistry :=
  Document.compile_of_toBool (by decide +kernel)

/-- The keys `SampleMass` and `sample_mass` both have the attribute name `sample_mass`, so the
table of `Sample` holds one property for the two members of `properties`: the second key's, at
the first one's position. -/
theorem namesake_keys_share_property :
    samples.compile = .ok samplesRegistry ∧
    ((samplesRegistry.entry "Sample").toOption.map fun e => e.definition.declared.length) =
      some 2 ∧
    ((samplesRegistry.composite "Sample").toOption.map fun c =>
      c.properties.map (·.externalName)) = some ["sample_mass"] :=
  ⟨samples_compiles, by decide +kernel, by decide +kernel⟩

end SchemaTypes
