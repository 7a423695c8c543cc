import SchemaTypes.Proofs.Replay

/-! # What finalizing makes of each composite type

Finalizing completes the passthrough types and the types with several parents, each after its
parents. What it makes of a composite type depends only on the registry it starts from
(`Registry.Finished`): a custom type stays as it is, a passthrough type takes its finished
target's properties, catch-all and initializer, and a type with several parents the merge of
its finished parents'. The finished type of a name is unique (`Registry.Finished.unique`), so
the order in which finalization visits the types does not matter.

`finalizeAll_finishes` says that finalization succeeds from every sound state whose composite
types have composite types as parents, and that every composite type it ends with is the
finished one. Parents come before their children among the composite types, so following
parents ends within the bound finalization takes.
-/

namespace SchemaTypes

namespace Compiling

variable {α β γ : Type}

/-- Two steps in a row succeed when the first does and the second does after it. -/
theorem ok_bind {x : Compiling α} {f : α → Compiling β} {s : Compiler}
    {P : α → Compiler → Prop} {R : β → Compiler → Prop}
    (first : ∃ a u, x.run s = .ok (a, u) ∧ P a u)
    (second : ∀ a u, x.run s = .ok (a, u) → P a u → ∃ b t, (f a).run u = .ok (b, t) ∧ R b t) :
    ∃ b t, (x >>= f).run s = .ok (b, t) ∧ R b t := by
  obtain ⟨a, u, run, holds⟩ := first
  obtain ⟨b, t, rest, final⟩ := second a u run holds
  exact ⟨b, t, by rw [run_bind_of run]; exact rest, final⟩

theorem ok_unit {x : Compiling Unit} {s : Compiler} {Q : Compiler → Prop}
    (ran : ∃ b t, x.run s = .ok (b, t) ∧ Q t) : ∃ t, x.run s = .ok ((), t) ∧ Q t := by
  obtain ⟨⟨⟩, t, run, holds⟩ := ran
  exact ⟨t, run, holds⟩

/-- A `foldlM` loop succeeds, with an invariant of the items done so far, the accumulator and
the state, when every step succeeds and carries the invariant on. -/
theorem foldlM_prefix_ok {xs : List γ} {f : β → γ → Compiling β}
    (Acc : List γ → β → Compiler → Prop)
    (step : ∀ done x, done ++ [x] <+: xs → ∀ acc s, Acc done acc s →
      ∃ acc' s', (f acc x).run s = .ok (acc', s') ∧ Acc (done ++ [x]) acc' s') :
    ∀ init s, Acc [] init s → ∃ result s', (xs.foldlM f init).run s = .ok (result, s') ∧
      Acc xs result s' := by
  -- the loop is run from every split of `xs` into the items done and the items left
  suffices left : ∀ rest done, done ++ rest = xs → ∀ acc s, Acc done acc s →
      ∃ result s', (rest.foldlM f acc).run s = .ok (result, s') ∧ Acc xs result s' from
    fun init s holds => left xs [] rfl init s holds
  intro rest
  induction rest with
  | nil =>
    intro done split acc s holds
    exact ⟨acc, s, rfl, by simpa [← split] using holds⟩
  | cons x rest ih =>
    intro done split acc s holds
    obtain ⟨acc', middle, first, carried⟩ := step done x ⟨rest, by simp [← split]⟩ acc s holds
    obtain ⟨result, s', later, final⟩ := ih (done ++ [x]) (by simp [← split]) acc' middle carried
    exact ⟨result, s', by rw [List.foldlM_cons, run_bind_of first]; exact later, final⟩

end Compiling

namespace Composite

/-- One parent's part in a merge: its properties set over those so far, its catch-all if it has
one, and its special names added. -/
def mergeInto (acc : List Property × Option CatchAll × SpecialNames) (p : Composite) :
    List Property × Option CatchAll × SpecialNames :=
  (p.properties.foldl Composite.setProperty acc.1,
    if p.catchAll.isSome then p.catchAll else acc.2.1, acc.2.2.union p.special)

/-- The properties, catch-all and special names of parents merged in order. -/
def merged (ps : List Composite) : List Property × Option CatchAll × SpecialNames :=
  ps.foldl mergeInto ([], none, {})

theorem merged_concat (ps : List Composite) (p : Composite) :
    merged (ps ++ [p]) = mergeInto (merged ps) p := by
  simp only [merged, List.foldl_append, List.foldl_cons, List.foldl_nil]

/-- The passthrough type `c` of name `name` completed from its finished target `p`. -/
def passedFrom (c p : Composite) (name : String) : Composite :=
  { c with
    properties := p.properties, catchAll := p.catchAll,
    initializer := p.initializer.renamed name, special := c.special.union p.special }

/-- The type `c` of name `name` with several parents completed from its finished parents. -/
def combinedFrom (c : Composite) (name : String) (parents : List String) (ps : List Composite) :
    Composite :=
  { c with
    properties := (merged ps).1, catchAll := (merged ps).2.1,
    initializer := .combined ⟨name, (merged ps).1, (merged ps).2.1⟩ parents,
    special := c.special.union (merged ps).2.2 }

end Composite

namespace Registry

/-- What finalizing makes of the composite type `name` of `B`: a custom type stays as it is, a
passthrough type takes its finished target's properties, catch-all and initializer, and a type
with several parents the merge of its finished parents'. -/
inductive Finished (B : Registry) : String → Composite → Prop
  | custom {name : String} {c : Composite} :
      B.composite name = .ok c → c.kind = .custom → Finished B name c
  | passthrough {name parent : String} {c p : Composite} :
      B.composite name = .ok c → c.kind = .passthrough parent → Finished B parent p →
      Finished B name (c.passedFrom p name)
  | multiInheritance {name : String} {parents : List String} {c : Composite}
      {ps : List Composite} :
      B.composite name = .ok c → c.kind = .multiInheritance parents →
      parents.length = ps.length → (∀ {a p}, (a, p) ∈ parents.zip ps → Finished B a p) →
      Finished B name (c.combinedFrom name parents ps)

variable {B : Registry}

theorem mem_zip_getElem {α β : Type} {l₁ : List α} {l₂ : List β} {i : Nat}
    (inside₁ : i < l₁.length) (inside₂ : i < l₂.length) : (l₁[i], l₂[i]) ∈ l₁.zip l₂ :=
  List.mem_iff_getElem.mpr ⟨i, by simp; omega, by simp⟩

/-- A name has one finished type: the derivations agree step by step, the kind of the type
fixing the rule at each. -/
theorem Finished.unique {name : String} {c c' : Composite} (first : B.Finished name c)
    (second : B.Finished name c') : c = c' := by
  induction first generalizing c' with
  | custom found custom =>
    cases second with
    | custom found' _ => rw [found] at found'; cases found'; rfl
    | passthrough found' kind _ =>
      rw [found] at found'; cases found'; rw [custom] at kind; cases kind
    | multiInheritance found' kind _ _ =>
      rw [found] at found'; cases found'; rw [custom] at kind; cases kind
  | passthrough found kind _ ih =>
    cases second with
    | custom found' custom =>
      rw [found] at found'; cases found'; rw [kind] at custom; cases custom
    | passthrough found' kind' target =>
      rw [found] at found'; cases found'; rw [kind] at kind'; cases kind'
      rw [ih target]
    | multiInheritance found' kind' _ _ =>
      rw [found] at found'; cases found'; rw [kind] at kind'; cases kind'
  | multiInheritance found kind length _ ih =>
    cases second with
    | custom found' custom =>
      rw [found] at found'; cases found'; rw [kind] at custom; cases custom
    | passthrough found' kind' _ =>
      rw [found] at found'; cases found'; rw [kind] at kind'; cases kind'
    | multiInheritance found' kind' length' parents' =>
      rw [found] at found'; cases found'; rw [kind] at kind'; cases kind'
      -- the parents' finished types agree one by one
      have same : ∀ i (inside : i < _) (inside' : i < _), _ := fun i inside inside' =>
        ih (mem_zip_getElem (length ▸ inside) inside) (parents' (mem_zip_getElem
          (length'.symm ▸ inside') inside'))
      rw [List.ext_getElem (length.symm.trans length') same]

/-- A finished type stays finished in a registry that finds every composite type where the
first one does. -/
theorem Finished.mono {B' : Registry} {name : String} {c : Composite}
    (sub : ∀ x c₀, B.composite x = .ok c₀ → B'.composite x = .ok c₀)
    (finished : B.Finished name c) : B'.Finished name c := by
  induction finished with
  | custom found custom => exact .custom (sub _ _ found) custom
  | passthrough found kind _ ih => exact .passthrough (sub _ _ found) kind ih
  | multiInheritance found kind length _ ih =>
    exact .multiInheritance (sub _ _ found) kind length ih

/-- `r` is on its way through finalization from `B` with the types of `done` finished: it has
`B`'s entries, enumerations and composite type names, the types of `done` are finished and the
others are as `B` has them. -/
structure Finishing (B r : Registry) (done : List String) : Prop where
  entries : r.entries = B.entries
  enums : r.enums = B.enums
  names : r.compositeNames = B.compositeNames
  finished : ∀ {name c}, r.composite name = .ok c → name ∈ done → B.Finished name c
  unfinished : ∀ {name c}, r.composite name = .ok c → name ∉ done → B.composite name = .ok c

variable {r : Registry} {done : List String}

theorem Finishing.start (B : Registry) : B.Finishing B [] :=
  ⟨rfl, rfl, rfl, fun _ absent => by simp at absent, fun found _ => found⟩

/-- A type that is already finished joins the finished ones. -/
theorem Finishing.add {name : String} (finishing : B.Finishing r done)
    (finished : ∀ c, r.composite name = .ok c → B.Finished name c) :
    B.Finishing r (done ++ [name]) := by
  refine ⟨finishing.entries, finishing.enums, finishing.names, fun {x c} found member => ?_,
    fun found absent => finishing.unfinished found fun old => absent (List.mem_append_left _ old)⟩
  rcases List.mem_append.mp member with old | new
  · exact finishing.finished found old
  · obtain rfl := List.mem_singleton.mp new
    exact finished c found

theorem compositeNames_insertComposite {c : Composite} (present : c.name ∈ r.compositeNames) :
    (r.insertComposite c).compositeNames = r.compositeNames := by
  rw [insertComposite_of_present present]
  exact names_replaced _

/-- Putting the finished type of a name in place finishes the name. -/
theorem Finishing.insert {name : String} {c : Composite} (finishing : B.Finishing r done)
    (named : c.name = name) (present : name ∈ r.compositeNames) (finished : B.Finished name c) :
    B.Finishing (r.insertComposite c) (done ++ [name]) := by
  subst named
  refine ⟨(insertComposite_entries c).trans finishing.entries,
    (insertComposite_enums c).trans finishing.enums,
    (compositeNames_insertComposite present).trans finishing.names, fun {x c'} found member => ?_,
    fun {x c'} found absent => ?_⟩
  · by_cases same : x = c.name
    · subst same
      rw [composite_insertComposite_self present] at found
      cases found
      exact finished
    · rw [composite_insertComposite_ne present same] at found
      exact finishing.finished found (by simpa [same] using member)
  · have other : x ≠ c.name := fun same => absent (by simp [same])
    rw [composite_insertComposite_ne present other] at found
    exact finishing.unfinished found fun old => absent (List.mem_append_left _ old)

end Registry

namespace Compiler

open Registry (Finished Finishing)

/-- Finalizing a composite type of `B`, from a registry on its way through finalization from
`B`, succeeds and finishes the type, when the bound exceeds the type's position among `B`'s
composite types and the types being finalized sit above it. Parents come before their
children, so each call for a parent goes down in position; the induction is on the bound, and
every type the call finishes sits at or below the type's position. -/
theorem finalize_finishes {B : Registry} (sound : B.Sound)
    (closed : ∀ c ∈ B.composites, ∀ p ∈ c.parents, p ∈ B.compositeNames) :
    ∀ (n : Nat) (stack : List String) (name : String) (done : List String) (s : Compiler),
      name ∈ B.compositeNames → B.compositeNames.idxOf name < n →
      (∀ x ∈ stack, B.compositeNames.idxOf name < B.compositeNames.idxOf x) →
      B.Finishing s.registry done →
      ∃ done' t, (finalize n stack name done).run s = .ok (done', t) ∧
        B.Finishing t.registry done' ∧ name ∈ done' ∧ done ⊆ done' ∧
        ∀ x ∈ done', x ∈ done ∨ B.compositeNames.idxOf x ≤ B.compositeNames.idxOf name
  | 0, _, _, _, _, _, bound, _, _ => absurd bound (Nat.not_lt_zero _)
  | n + 1, stack, name, done, s, composite, bound, above, finishing => by
    rw [finalize]
    split
    · next finishedBefore =>
      exact ⟨done, s, rfl, finishing, by simpa using finishedBefore, fun _ member => member,
        fun _ member => .inl member⟩
    next fresh =>
    split
    · next onStack =>
      have below := above name (by simpa using onStack)
      exact absurd below (Nat.lt_irrefl _)
    have notDone : name ∉ done := by simpa using fresh
    obtain ⟨c, found⟩ := Registry.composite_of_mem (finishing.names ▸ composite)
    have own := finishing.unfinished found notDone
    obtain ⟨present, named⟩ := Registry.composite_ok own
    rw [Compiling.run_get_bind]
    refine Compiling.ok_bind (P := fun c' u => c = c' ∧ s = u)
      ⟨c, s, by rw [found]; rfl, rfl, rfl⟩ ?_
    rintro c' u - ⟨rfl, rfl⟩
    have parentsEarlier : ∀ p ∈ c.parents,
        B.compositeNames.idxOf p < B.compositeNames.idxOf name := fun p parent =>
      named ▸ sound.parentsEarlier c present p parent (closed c present p parent)
    -- the parents are finalized first, each below the type
    refine Compiling.ok_bind (Compiling.foldlM_prefix_ok
      (fun looked done₁ u => B.Finishing u.registry done₁ ∧ done ⊆ done₁ ∧
        (∀ x ∈ done₁, x ∈ done ∨ B.compositeNames.idxOf x < B.compositeNames.idxOf name) ∧
        ∀ p ∈ looked, p ∈ done₁) ?_ done s ⟨finishing, fun _ member => member,
          fun _ member => .inl member, by simp⟩) ?_
    · intro looked parent split done₁ u held
      obtain ⟨finishing₁, grows, below, looked₁⟩ := held
      have member : parent ∈ c.parents := split.subset (by simp)
      have earlier := parentsEarlier parent member
      have stacked : ∀ x ∈ stack ++ [name],
          B.compositeNames.idxOf parent < B.compositeNames.idxOf x := by
        intro x onStack
        rcases List.mem_append.mp onStack with old | new
        · exact earlier.trans (above x old)
        · rw [List.mem_singleton.mp new]; exact earlier
      obtain ⟨done₂, t, run, finishing₂, finished, grows₂, below₂⟩ :=
        finalize_finishes sound closed n (stack ++ [name]) parent done₁ u
          (closed c present parent member) (by omega) stacked finishing₁
      refine ⟨done₂, t, run, finishing₂, List.Subset.trans grows grows₂, fun x member => ?_,
        fun p member => ?_⟩
      · rcases below₂ x member with old | low
        · exact below x old
        · exact .inr (by omega)
      · rcases List.mem_append.mp member with old | new
        · exact grows₂ (looked₁ p old)
        · rw [List.mem_singleton.mp new]; exact finished
    rintro done₁ u - ⟨finishing₁, grows, below, finished⟩
    have notDone₁ : name ∉ done₁ := fun member =>
      (below name member).elim notDone (Nat.lt_irrefl _)
    have selfFound : u.registry.composite name = .ok c := by
      obtain ⟨c₁, found₁⟩ := Registry.composite_of_mem (finishing₁.names ▸ composite)
      have same := finishing₁.unfinished found₁ notDone₁
      rw [own] at same
      cases same
      exact found₁
    have after : name ∈ done₁ ++ [name] ∧ done ⊆ done₁ ++ [name] ∧ ∀ x ∈ done₁ ++ [name],
        x ∈ done ∨ B.compositeNames.idxOf x ≤ B.compositeNames.idxOf name := by
      refine ⟨by simp, fun x member => List.mem_append_left _ (grows member), fun x member => ?_⟩
      rcases List.mem_append.mp member with old | new
      · exact (below x old).imp_right Nat.le_of_lt
      · exact .inr (List.mem_singleton.mp new ▸ Nat.le_refl _)
    rw [Compiling.run_get_bind]
    dsimp only
    -- what the type is completed from depends on its kind
    split
    · next custom =>
      refine ⟨done₁ ++ [name], u, rfl, finishing₁.add fun c₁ found₁ => ?_, after⟩
      rw [selfFound] at found₁
      cases found₁
      exact .custom own custom
    · next parent passthrough =>
      have member : parent ∈ c.parents := by simp [Composite.parents, passthrough]
      obtain ⟨p, parentFound⟩ :=
        Registry.composite_of_mem (finishing₁.names ▸ closed c present parent member)
      have target := finishing₁.finished parentFound (finished parent member)
      refine ⟨done₁ ++ [name],
        { u with registry := u.registry.insertComposite (c.passedFrom p name) }, ?_,
        finishing₁.insert named (finishing₁.names ▸ composite)
          (.passthrough own passthrough target),
        after⟩
      rw [parentFound, selfFound]
      rfl
    · next parents inheritance =>
      have members : c.parents = parents := by simp [Composite.parents, inheritance]
      -- merging reads each parent's finished type
      refine Compiling.ok_bind (Compiling.foldlM_prefix_ok
        (fun looked acc v => u = v ∧ ∃ ps, List.Forall₂
          (fun a p => u.registry.composite a = .ok p ∧ B.Finished a p) looked ps ∧
            acc = Composite.merged ps) ?_ _ u ⟨rfl, [], .nil, rfl⟩) ?_
      · intro looked parent split acc v held
        obtain ⟨same, ps, related, merged⟩ := held
        subst same merged
        have member : parent ∈ c.parents := members ▸ split.subset (by simp)
        obtain ⟨p, parentFound⟩ :=
          Registry.composite_of_mem (finishing₁.names ▸ closed c present parent member)
        refine ⟨Composite.mergeInto (Composite.merged ps) p, u, ?_, rfl, ps ++ [p],
          List.rel_append related (.cons ⟨parentFound, finishing₁.finished parentFound
            (finished parent member)⟩ .nil), (Composite.merged_concat ps p).symm⟩
        rw [parentFound]
        rfl
      rintro acc v - ⟨rfl, ps, related, rfl⟩
      have complete : B.Finished name (c.combinedFrom name parents ps) :=
        .multiInheritance own inheritance related.length_eq
          fun member => (List.forall₂_zip related member).2
      refine ⟨done₁ ++ [name],
        { u with registry := u.registry.insertComposite (c.combinedFrom name parents ps) }, ?_,
        finishing₁.insert named (finishing₁.names ▸ composite) complete, after⟩
      rw [selfFound]
      rfl

/-- Finalizing all types succeeds from every sound state whose composite types have composite
types as parents, so from such a state its bound of one more step than there are composite types
never runs out. It keeps the entries, enumerations and composite type names, and every
composite type it ends with is the finished one: a type that takes its properties from others
is in the groups finalization walks, and custom types stay as they are. -/
theorem finalizeAll_finishes {D : Document} {s : Compiler} (sound : Sound D s)
    (closed : ∀ c ∈ s.registry.composites, ∀ p ∈ c.parents, p ∈ s.registry.compositeNames) :
    ∃ t, finalizeAll.run s = .ok ((), t) ∧ t.registry.entries = s.registry.entries ∧
      t.registry.enums = s.registry.enums ∧
      t.registry.compositeNames = s.registry.compositeNames ∧
      ∀ name c, t.registry.composite name = .ok c → s.registry.Finished name c := by
  unfold finalizeAll
  rw [Compiling.run_get_bind]
  dsimp only
  -- every composite type among the names walked so far is finished
  refine Compiling.ok_unit <| Compiling.ok_bind (Compiling.foldlM_prefix_ok
    (fun looked done v => s.registry.Finishing v.registry done ∧
      ∀ x ∈ looked, x ∈ s.registry.compositeNames → x ∈ done) ?_ [] s
    ⟨.start _, by simp⟩) ?_
  · intro looked name _ done v held
    obtain ⟨finishing, covered⟩ := held
    rw [Compiling.run_get_bind]
    split
    · next isComposite =>
      obtain ⟨c, found⟩ : ∃ c, v.registry.composite name = .ok c := by
        cases lookup : v.registry.composite name with
        | error e => simp [lookup, Except.toBool] at isComposite
        | ok c => exact ⟨c, rfl⟩
      have composite : name ∈ s.registry.compositeNames := by
        rw [← finishing.names, ← (Registry.composite_ok found).2]
        exact List.mem_map_of_mem (Registry.composite_ok found).1
      have bound : s.registry.compositeNames.idxOf name < s.registry.composites.length + 1 := by
        have := List.idxOf_le_length (a := name) (l := s.registry.compositeNames)
        simp only [Registry.compositeNames, List.length_map] at this ⊢
        omega
      obtain ⟨done', t, run, finishing', finished, grows, -⟩ :=
        finalize_finishes sound.registry closed _ [] name done v composite bound (by simp)
          finishing
      refine ⟨done', t, run, finishing', fun x member present => ?_⟩
      rcases List.mem_append.mp member with old | new
      · exact grows (covered x old present)
      · rw [List.mem_singleton.mp new]; exact finished
    · next notComposite =>
      refine ⟨done, v, rfl, finishing, fun x member present => ?_⟩
      rcases List.mem_append.mp member with old | new
      · exact covered x old present
      · rw [List.mem_singleton.mp new, ← finishing.names] at present
        obtain ⟨c, found⟩ := Registry.composite_of_mem present
        simp [found, Except.toBool] at notComposite
  rintro done u - ⟨finishing, covered⟩
  refine ⟨(), u, rfl, finishing.entries, finishing.enums, finishing.names, fun name c found => ?_⟩
  by_cases finalized : name ∈ done
  · exact finishing.finished found finalized
  -- a type left as it was is custom: the others are in the groups finalization walks
  have own := finishing.unfinished found finalized
  obtain ⟨present, named⟩ := Registry.composite_ok own
  have composite : name ∈ s.registry.compositeNames := named ▸ List.mem_map_of_mem present
  obtain ⟨-, passthrough, inheritance⟩ := sound.kinds c present
  cases kind : c.kind with
  | custom => exact .custom own kind
  | passthrough p =>
    have grouped := named ▸ passthrough p kind
    exact absurd (covered name (List.mem_append_left _ grouped) composite) finalized
  | multiInheritance ps =>
    have grouped := named ▸ inheritance ps kind
    exact absurd (covered name (List.mem_append_right _ grouped) composite) finalized

end Compiler

end SchemaTypes
