import SchemaTypes.Proofs.Adoptions

/-! # Registration does not run out of depth

The registration functions call each other with a bound on the depth of calls, and give up
with a circular reference when it runs out, the same failure a real cycle gives. This module
shows that the bound only matters below a threshold: from `openCost s + 1` on, registering a
name from `s` runs the same with every bound, and so does every other registration function
from a threshold of its own (`Saturated`).

The threshold is a potential. Every definition that is neither registered nor being
registered weighs five for each value its JSON holds, and four more (`weight`); `openCost` is
the weight of all of them. Registering a name takes its definition off the potential, so the
calls below it have that much less to spend; every call goes into a strictly smaller part of
the definition it works on, or on to a name that costs part of what is left. The potential
never grows over a successful call: every definition a call adopts it also registers
(`Settles`), so a loop of calls never needs more than its first step.

The proof is one induction on the bound: `Saturated D n` says that each function gives the
same run at bounds `n + 1` and `n` once its threshold is at most `n`, and `saturated` proves it
for every `n` from the one below. The runs compared are compared whole, failures included.
-/

namespace SchemaTypes

namespace Compiling

variable {α β γ : Type}

theorem run_get_bind {f : Compiler → Compiling α} (s : Compiler) :
    (get >>= f).run s = (f s).run s := rfl

/-- Two binds run the same when their first steps do and, after a successful first step,
their rests do. -/
theorem run_bind_congr {x x' : Compiling α} {f f' : α → Compiling β} {s : Compiler}
    (first : x.run s = x'.run s)
    (rest : ∀ a t, x.run s = .ok (a, t) → (f a).run t = (f' a).run t) :
    (x >>= f).run s = (x' >>= f').run s := by
  rw [StateT.run_bind, StateT.run_bind, ← first]
  cases ran : x.run s with
  | error e => rfl
  | ok p => exact rest p.1 p.2 ran

/-- A step then a rest run the same as another step then that rest when the steps do. -/
theorem run_bind_congr_left {x x' : Compiling α} {f : α → Compiling β} {s : Compiler}
    (first : x.run s = x'.run s) : (x >>= f).run s = (x' >>= f).run s :=
  run_bind_congr first fun _ _ _ => rfl

/-! ## Loops that run the same

Two loops over the same items run the same when each step does from every state of an
invariant that the steps keep. -/

section Loops

variable (Inv : Compiler → Prop)

theorem forM_congr {xs : List γ} {f g : γ → Compiling PUnit}
    (step : ∀ x ∈ xs, ∀ s, Inv s → (f x).run s = (g x).run s ∧
      ∀ t, (f x).run s = .ok (⟨⟩, t) → Inv t) :
    ∀ s, Inv s → (forM xs f).run s = (forM xs g).run s ∧
      ∀ t, (forM xs f).run s = .ok (⟨⟩, t) → Inv t := by
  induction xs with
  | nil =>
    intro s holds
    refine ⟨rfl, fun t run => ?_⟩
    obtain ⟨-, rfl⟩ := pure_ok run
    exact holds
  | cons x xs ih =>
    intro s holds
    obtain ⟨same, keeps⟩ := step x (by simp) s holds
    have rest := ih fun y member => step y (by simp [member])
    rw [List.forM_cons, List.forM_cons]
    refine ⟨run_bind_congr same fun _ middle first => (rest middle (keeps middle first)).1, ?_⟩
    intro t run
    obtain ⟨⟨⟩, middle, first, later⟩ := bind_ok run
    exact (rest middle (keeps middle first)).2 t later

theorem mapM_congr {xs : List γ} {f g : γ → Compiling β}
    (step : ∀ x ∈ xs, ∀ s, Inv s → (f x).run s = (g x).run s ∧
      ∀ b t, (f x).run s = .ok (b, t) → Inv t) :
    ∀ s, Inv s → (xs.mapM f).run s = (xs.mapM g).run s ∧
      ∀ ys t, (xs.mapM f).run s = .ok (ys, t) → Inv t := by
  induction xs with
  | nil =>
    intro s holds
    refine ⟨rfl, fun ys t run => ?_⟩
    obtain ⟨-, rfl⟩ := pure_ok run
    exact holds
  | cons x xs ih =>
    intro s holds
    obtain ⟨same, keeps⟩ := step x (by simp) s holds
    have rest := ih fun y member => step y (by simp [member])
    rw [List.mapM_cons, List.mapM_cons]
    refine ⟨run_bind_congr same fun b middle first =>
      run_bind_congr_left (rest middle (keeps b middle first)).1, ?_⟩
    intro ys t run
    obtain ⟨b, middle, first, run⟩ := bind_ok run
    obtain ⟨others, last, later, run⟩ := bind_ok run
    obtain ⟨-, rfl⟩ := pure_ok run
    exact (rest middle (keeps b middle first)).2 others t later

theorem filterMapM_congr {xs : List γ} {f g : γ → Compiling (Option β)}
    (step : ∀ x ∈ xs, ∀ s, Inv s → (f x).run s = (g x).run s ∧
      ∀ b t, (f x).run s = .ok (b, t) → Inv t) :
    ∀ s, Inv s → (xs.filterMapM f).run s = (xs.filterMapM g).run s ∧
      ∀ ys t, (xs.filterMapM f).run s = .ok (ys, t) → Inv t := by
  induction xs with
  | nil =>
    intro s holds
    refine ⟨rfl, fun ys t run => ?_⟩
    obtain ⟨-, rfl⟩ := pure_ok run
    exact holds
  | cons x xs ih =>
    intro s holds
    obtain ⟨same, keeps⟩ := step x (by simp) s holds
    have rest := ih fun y member => step y (by simp [member])
    rw [List.filterMapM_cons, List.filterMapM_cons]
    refine ⟨run_bind_congr same fun b middle first => ?_, ?_⟩
    · cases b with
      | none => exact (rest middle (keeps none middle first)).1
      | some y => exact run_bind_congr_left (rest middle (keeps _ middle first)).1
    · intro ys t run
      obtain ⟨b, middle, first, run⟩ := bind_ok run
      cases b with
      | none => exact (rest middle (keeps none middle first)).2 ys t run
      | some y =>
        obtain ⟨others, last, later, run⟩ := bind_ok run
        obtain ⟨-, rfl⟩ := pure_ok run
        exact (rest middle (keeps _ middle first)).2 others t later

end Loops

theorem foldlM_congr {xs : List γ} {f g : β → γ → Compiling β} (Inv : β → Compiler → Prop)
    (step : ∀ x ∈ xs, ∀ acc s, Inv acc s → (f acc x).run s = (g acc x).run s ∧
      ∀ acc' t, (f acc x).run s = .ok (acc', t) → Inv acc' t) :
    ∀ init s, Inv init s → (xs.foldlM f init).run s = (xs.foldlM g init).run s ∧
      ∀ acc t, (xs.foldlM f init).run s = .ok (acc, t) → Inv acc t := by
  induction xs with
  | nil =>
    intro init s holds
    refine ⟨rfl, fun acc t run => ?_⟩
    obtain ⟨rfl, rfl⟩ := pure_ok run
    exact holds
  | cons x xs ih =>
    intro init s holds
    obtain ⟨same, keeps⟩ := step x (by simp) init s holds
    have rest := ih fun y member => step y (by simp [member])
    rw [List.foldlM_cons, List.foldlM_cons]
    refine ⟨run_bind_congr same fun acc middle first =>
      (rest acc middle (keeps acc middle first)).1, ?_⟩
    intro acc t run
    obtain ⟨acc', middle, first, later⟩ := bind_ok run
    exact (rest acc' middle (keeps acc' middle first)).2 acc t later

/-- A fold whose steps only read leaves the state as it was. -/
theorem foldlM_reads {xs : List γ} {f : β → γ → Compiling β}
    (step : ∀ x ∈ xs, ∀ acc s acc' s', (f acc x).run s = .ok (acc', s') → s' = s) :
    ∀ init s acc s', (xs.foldlM f init).run s = .ok (acc, s') → s' = s := by
  induction xs with
  | nil =>
    intro init s acc s' run
    exact (pure_ok run).2
  | cons x xs ih =>
    intro init s acc s' run
    rw [List.foldlM_cons] at run
    obtain ⟨acc', middle, first, rest⟩ := bind_ok run
    have same := step x (by simp) init s acc' middle first
    subst same
    exact ih (fun y member => step y (by simp [member])) acc' middle acc s' rest

end Compiling

/-- A sequence that stops changing from an index on has one value from there on. -/
theorem eq_of_succ_eq {α : Type} {f : Nat → α} {N : Nat} (step : ∀ n, N ≤ n → f (n + 1) = f n)
    {m m' : Nat} (enough : N ≤ m) (enough' : N ≤ m') : f m = f m' := by
  have settled : ∀ k, N ≤ k → f k = f N := by
    intro k above
    induction k, above using Nat.le_induction with
    | base => rfl
    | succ k above ih => rw [step k above, ih]
  rw [settled m enough, settled m' enough']

/-! ## The parts a category looks at are smaller -/

namespace Definition

variable {d : Definition}

theorem size_toJson (d : Definition) : Json.size d.toJson = Json.sizeMembers d.members + 1 := by
  rw [toJson, Json.size]

theorem size_get?_lt {key : String} {v : Json} (found : d.get? key = some v) :
    Json.size v < Json.size d.toJson :=
  Json.get?_size_lt found

/-- An item of a list under a keyword is smaller than the definition by two values at least:
the list and the object. -/
theorem size_item_le {key : String} {xs : List Json} {x : Json}
    (found : (d.get? key).bind Json.items? = some xs) (member : x ∈ xs) :
    Json.size x + 2 ≤ Json.size d.toJson := by
  have within : Json.sizeItems xs + 1 ≤ Json.sizeMembers d.members := Json.lookup_items_size found
  have item : Json.size x ≤ Json.sizeItems xs := by
    rw [Json.sizeItems_eq_sum]
    exact List.le_sum_of_mem (List.mem_map_of_mem member)
  rw [size_toJson]
  omega

theorem size_alternative_le {x : Json} (member : x ∈ d.oneOf?.getD []) :
    Json.size x + 2 ≤ Json.size d.toJson := by
  cases listed : d.oneOf? with
  | none =>
    rw [listed] at member
    cases member
  | some xs =>
    rw [listed, Option.getD_some] at member
    unfold oneOf? at listed
    split at listed
    · next v found =>
      exact size_item_le
        (by rw [found]; exact listed : (d.get? "oneOf").bind Json.items? = some xs) member
    · exact size_item_le listed member

theorem size_part_le {x : Json} (member : x ∈ d.allOf?.getD []) :
    Json.size x + 2 ≤ Json.size d.toJson := by
  cases listed : d.allOf? with
  | none =>
    rw [listed] at member
    cases member
  | some xs =>
    rw [listed, Option.getD_some] at member
    exact size_item_le listed member

/-- The `then` schema of a condition is smaller than the polymorph by three values at least:
the condition, the list and the object. -/
theorem size_then_le {parts : List Json} {part : Json} {e : Definition}
    (parts? : d.allOf? = some parts) (member : part ∈ parts)
    (read : ofJson ((part.get? "then").getD .null) = .ok e) :
    Json.size e.toJson + 3 ≤ Json.size d.toJson := by
  have whole : Json.size part + 2 ≤ Json.size d.toJson := size_part_le (by rw [parts?]; exact member)
  cases found : part.get? "then" with
  | none =>
    rw [found] at read
    cases read
  | some v =>
    rw [found, Option.getD_some] at read
    have smaller := Json.get?_size_lt found
    rw [toJson_of_ofJson read]
    omega

end Definition

/-! ## The potential -/

/-- What registering a definition may take in depth of calls: five for every value of its
JSON, and four more. -/
def weight (d : Definition) : Nat := 5 * Json.size d.toJson + 4

namespace Compiler

variable {D : Document} {s t u : Compiler}

/-- The weight of the definitions that are neither registered nor being registered. -/
def openCost (s : Compiler) : Nat :=
  (s.definitions.map fun p =>
    if s.registry.contains p.1 || s.resolving.contains p.1 then 0 else weight p.2).sum

theorem openCost_le_weights (s : Compiler) :
    openCost s ≤ (s.definitions.map fun p => weight p.2).sum := by
  apply List.sum_le_sum
  intro p _
  split <;> omega

/-- Marking a name as being registered takes its definition's weight off the potential. -/
theorem openCost_push {name : String} {d : Definition} (defined : s.definition? name = some d)
    (fresh : s.registry.contains name = false) (outside : name ∉ s.resolving) :
    openCost { s with resolving := name :: s.resolving } + weight d ≤ openCost s := by
  -- each definition of the name leaves the potential, the others stay as they were
  have split : openCost s = openCost { s with resolving := name :: s.resolving } +
      (s.definitions.map fun p => if p.1 = name then weight p.2 else 0).sum := by
    unfold openCost
    rw [← List.sum_map_add]
    apply congrArg List.sum
    apply List.map_congr_left
    intro p _
    by_cases same : p.1 = name
    · simp [same, fresh, outside]
    · simp [same]
  have own : weight d ≤ (s.definitions.map fun p => if p.1 = name then weight p.2 else 0).sum := by
    have member : (if name = name then weight d else 0) ∈
        s.definitions.map fun p => if p.1 = name then weight p.2 else 0 :=
      List.mem_map_of_mem (mem_of_definition? defined)
    simpa using List.le_sum_of_mem member
  omega

/-- Adopting a definition adds at most its weight to the potential. -/
theorem openCost_adopt {name : String} {d : Definition}
    (appended : t.definitions = s.definitions ++ [(name, d)]) (registry : t.registry = s.registry)
    (resolving : t.resolving = s.resolving) : openCost t ≤ openCost s + weight d := by
  unfold openCost
  rw [appended, registry, resolving, List.map_append, List.sum_append]
  simp only [List.map_cons, List.map_nil, List.sum_cons, List.sum_nil]
  split <;> omega

/-- A step that grows the state, leaves the names being registered as they were and
registers what it adopts does not add to the potential. -/
theorem openCost_le_of_settling (sound : Sound D t) (settling : Settling s t) :
    openCost t ≤ openCost s := by
  obtain ⟨⟨grows, resolving⟩, settles⟩ := settling
  obtain ⟨extra, appended⟩ := grows.definitions
  have names := sound.definitionsNodup
  rw [← appended, List.map_append] at names
  unfold openCost
  rw [← appended, List.map_append, List.sum_append, resolving]
  -- the definitions adopted are registered, and the others only leave the potential
  have adopted : (extra.map fun p =>
      if t.registry.contains p.1 || s.resolving.contains p.1 then 0 else weight p.2).sum = 0 := by
    apply List.sum_eq_zero
    intro w member
    obtain ⟨p, present, rfl⟩ := List.mem_map.mp member
    have fresh : p.1 ∉ s.definitions.map (·.1) := fun old =>
      List.disjoint_of_nodup_append names old (List.mem_map_of_mem present)
    have registered := settles p (by rw [← appended]; exact List.mem_append_right _ present) fresh
    simp [registered]
  rw [adopted, Nat.add_zero]
  apply List.sum_le_sum
  intro p _
  cases marked : s.resolving.contains p.1
  · cases registered : s.registry.contains p.1
    · simp only [Bool.or_false, Bool.false_eq_true, if_false]
      split <;> omega
    · simp [grows.contains registered]
  · simp

/-- `u` is reached from `s` by registration steps: it is sound, and the steps grew the state,
left the names being registered as they were, and registered what they adopted. -/
def Reaches (D : Document) (s u : Compiler) : Prop := Sound D u ∧ Settling s u

theorem Reaches.refl (sound : Sound D s) : Reaches D s s := ⟨sound, .refl s⟩

theorem Reaches.step (reaches : Reaches D s u) (keeps : Keeps D u t) (settles : Settles u t) :
    Reaches D s t :=
  ⟨keeps.1, reaches.2.trans ⟨keeps.2, settles⟩⟩

theorem Reaches.same (reaches : Reaches D s u) (same : t = u) : Reaches D s t := same ▸ reaches

theorem Reaches.openCost_le (reaches : Reaches D s u) : openCost u ≤ openCost s :=
  openCost_le_of_settling reaches.1 reaches.2

theorem Reaches.registerNamed {m : Nat} {name : String} (reaches : Reaches D s u)
    (run : (registerNamed m name).run u = .ok ((), t)) : Reaches D s t :=
  reaches.step ((specs m).registerNamed run reaches.1).1 ((adoptions m).registerNamed run reaches.1)

theorem Reaches.resolve {m : Nat} {d : Definition} {hint : String} {hk : TypeHandle × Caster}
    (reaches : Reaches D s u) (run : (resolve m d hint).run u = .ok (hk, t))
    (placed : Placed D hint d) : Reaches D s t :=
  reaches.step ((specs m).resolve run reaches.1 placed).1
    ((adoptions m).resolve run reaches.1 placed)

theorem Reaches.reference {m : Nat} {d : Definition} {context : String}
    {hk : TypeHandle × Caster} (reaches : Reaches D s u)
    (run : (reference m d context).run u = .ok (hk, t)) : Reaches D s t :=
  reaches.step ((specs m).reference run reaches.1).1 ((adoptions m).reference run reaches.1)

theorem Reaches.anonymous {m : Nat} {name : String} {d : Definition} {c : Category}
    {hk : TypeHandle × Caster} (reaches : Reaches D s u)
    (run : (anonymous m name d c).run u = .ok (hk, t)) (placed : Placed D name d)
    (category : d.shapeCategory = .ok c) : Reaches D s t :=
  reaches.step ((specs m).anonymous run reaches.1 placed category).1
    ((adoptions m).anonymous run reaches.1 placed category)

/-! ## One bound more changes nothing -/

/-- Every registration function runs the same at bounds `n + 1` and `n` from a state whose
potential leaves it enough: the threshold of each function is the potential plus what its own
definition may take. The hypotheses are those of `Specs`. -/
structure Saturated (D : Document) (n : Nat) : Prop where
  registerNamed : ∀ {name : String} {s : Compiler}, Sound D s → openCost s + 1 ≤ n →
    (registerNamed (n + 1) name).run s = (registerNamed n name).run s
  registerDefinition : ∀ {name : String} {d : Definition} {c : Category} {s : Compiler},
    Sound D s → s.definition? name = some d → (name, c) ∈ s.categories →
    5 * Json.size d.toJson + 4 + openCost s ≤ n →
    (registerDefinition (n + 1) name d c).run s = (registerDefinition n name d c).run s
  inheritanceParents : ∀ {name : String} {d : Definition} {s : Compiler}, Sound D s →
    Placed D name d → d.shapeCategory = .ok .multiInheritance →
    5 * Json.size d.toJson + 3 + openCost s ≤ n →
    (inheritanceParents (n + 1) name d).run s = (inheritanceParents n name d).run s
  resolve : ∀ {d : Definition} {hint : String} {s : Compiler}, Sound D s → Placed D hint d →
    5 * Json.size d.toJson + 7 + openCost s ≤ n →
    (resolve (n + 1) d hint).run s = (resolve n d hint).run s
  reference : ∀ {d : Definition} {context : String} {s : Compiler}, Sound D s →
    openCost s + 2 ≤ n → (reference (n + 1) d context).run s = (reference n d context).run s
  anonymous : ∀ {name : String} {d : Definition} {c : Category} {s : Compiler}, Sound D s →
    Placed D name d → d.shapeCategory = .ok c → 5 * Json.size d.toJson + 6 + openCost s ≤ n →
    (anonymous (n + 1) name d c).run s = (anonymous n name d c).run s
  listOf : ∀ {d : Definition} {name : String} {s : Compiler}, Sound D s → Placed D name d →
    d.shapeCategory = .ok .list → 5 * Json.size d.toJson + 3 + openCost s ≤ n →
    (listOf (n + 1) d name).run s = (listOf n d name).run s
  unionOf : ∀ {d : Definition} {name : String} {s : Compiler}, Sound D s → Placed D name d →
    d.shapeCategory = .ok .union → 5 * Json.size d.toJson + 3 + openCost s ≤ n →
    (unionOf (n + 1) d name).run s = (unionOf n d name).run s
  polymorphOf : ∀ {d : Definition} {name : String} {s : Compiler}, Sound D s → Placed D name d →
    d.shapeCategory = .ok .polymorph → 5 * Json.size d.toJson + 3 + openCost s ≤ n →
    (polymorphOf (n + 1) d name).run s = (polymorphOf n d name).run s
  conditions : ∀ {name : String} {parts : List Json} {d : Definition} {s : Compiler},
    Sound D s → Placed D name d → d.shapeCategory = .ok .polymorph → d.allOf? = some parts →
    5 * Json.size d.toJson + 2 + openCost s ≤ n →
    (conditions (n + 1) name parts).run s = (conditions n name parts).run s
  keyed : ∀ {name : String} {d : Definition} {s : Compiler}, Sound D s → openCost s + 2 ≤ n →
    (keyed (n + 1) name d).run s = (keyed n name d).run s

/-- No threshold is zero, so at bound zero there is nothing to show. -/
theorem saturated_zero : Saturated D 0 where
  registerNamed _ enough := by omega
  registerDefinition _ _ _ enough := by omega
  inheritanceParents _ _ _ enough := by omega
  resolve _ _ enough := by omega
  reference _ enough := by omega
  anonymous _ _ _ enough := by omega
  listOf _ _ _ enough := by omega
  unionOf _ _ _ enough := by omega
  polymorphOf _ _ _ enough := by omega
  conditions _ _ _ _ enough := by omega
  keyed _ enough := by omega

section Succ

variable {n : Nat} (ih : Saturated D n)
include ih

theorem registerNamed_saturated {name : String} {s : Compiler} (sound : Sound D s)
    (enough : openCost s + 1 ≤ n + 1) :
    (registerNamed (n + 2) name).run s = (registerNamed (n + 1) name).run s := by
  rw [registerNamed, registerNamed, Compiling.run_get_bind, Compiling.run_get_bind]
  dsimp only
  by_cases registered : s.registry.contains name = true
  · simp only [registered, if_true]
  simp only [registered, if_false, Bool.false_eq_true]
  by_cases circular : s.resolving.contains name = true
  · simp only [circular, if_true]
    exact Compiling.run_bind_congr rfl fun _ _ thrown => (Compiling.throw_ok thrown).elim
  simp only [circular, if_false, Bool.false_eq_true]
  have outside : name ∉ s.resolving := by simpa using circular
  cases defined : s.definition? name with
  | none => rfl
  | some d =>
    dsimp only
    obtain ⟨c, found, member⟩ := sound.category_found defined
    simp only [found, pure_bind]
    refine Compiling.run_bind_congr rfl fun _ pushed push => ?_
    simp only [Compiling.run_modify, Except.ok.injEq, Prod.mk.injEq, true_and] at push
    subst push
    have fresh : s.registry.contains name = false := by simpa using registered
    have cost := openCost_push defined fresh outside
    unfold weight at cost
    exact Compiling.run_bind_congr_left
      (ih.registerDefinition (sound.push fresh outside) defined member (by omega))

theorem registerDefinition_saturated {name : String} {d : Definition} {c : Category}
    {s : Compiler} (sound : Sound D s) (defined : s.definition? name = some d)
    (categorized : (name, c) ∈ s.categories)
    (enough : 5 * Json.size d.toJson + 4 + openCost s ≤ n + 1) :
    (registerDefinition (n + 2) name d c).run s = (registerDefinition (n + 1) name d c).run s := by
  obtain ⟨d', defined', category⟩ := sound.categorized name c categorized
  rw [defined] at defined'
  cases defined'
  have placed := sound.placed_of_definition? defined
  have positive := Json.size_pos d.toJson
  cases c with
  | native => rw [registerDefinition, registerDefinition]
  | enumeration => rw [registerDefinition, registerDefinition]
  | custom => rw [registerDefinition, registerDefinition]
  | passthrough =>
    rw [registerDefinition, registerDefinition]
    cases target? : d.referenceName? with
    | none => rfl
    | some target =>
      exact Compiling.run_bind_congr_left (ih.registerNamed sound (by omega))
  | multiInheritance =>
    rw [registerDefinition, registerDefinition]
    exact Compiling.run_bind_congr_left (ih.inheritanceParents sound placed category (by omega))
  | list =>
    rw [registerDefinition, registerDefinition]
    exact Compiling.run_bind_congr_left (ih.listOf sound placed category (by omega))
  | union =>
    rw [registerDefinition, registerDefinition]
    exact Compiling.run_bind_congr_left (ih.unionOf sound placed category (by omega))
  | polymorph =>
    rw [registerDefinition, registerDefinition]
    exact Compiling.run_bind_congr_left (ih.polymorphOf sound placed category (by omega))

theorem reference_saturated {d : Definition} {context : String} {s : Compiler}
    (sound : Sound D s) (enough : openCost s + 2 ≤ n + 1) :
    (reference (n + 2) d context).run s = (reference (n + 1) d context).run s := by
  rw [reference, reference]
  cases target? : d.referenceName? with
  | none => rfl
  | some target =>
    exact Compiling.run_bind_congr_left (ih.registerNamed sound (by omega))

theorem anonymous_saturated {name : String} {d : Definition} {c : Category} {s : Compiler}
    (sound : Sound D s) (placed : Placed D name d) (category : d.shapeCategory = .ok c)
    (enough : 5 * Json.size d.toJson + 6 + openCost s ≤ n + 1) :
    (anonymous (n + 2) name d c).run s = (anonymous (n + 1) name d c).run s := by
  rw [anonymous, anonymous, Compiling.run_get_bind, Compiling.run_get_bind]
  dsimp only
  by_cases registered : s.registry.contains name = true
  · simp only [registered, Bool.not_true, Bool.false_eq_true, if_false]
  simp only [registered, Bool.not_false, if_true]
  cases defined : s.definition? name with
  | none =>
    -- the adopted definition adds its weight, which the threshold leaves room for
    simp only [Option.isNone_none, if_true]
    refine Compiling.run_bind_congr rfl fun _ adopted adopting => ?_
    obtain ⟨appended, sameRegistry, sameResolving⟩ := adopt_definitions adopting defined
    obtain ⟨adoptedSound, -, -, -, -⟩ := adopt_keeps adopting sound defined placed category
    have cost := openCost_adopt appended sameRegistry sameResolving
    unfold weight at cost
    exact Compiling.run_bind_congr_left (ih.registerNamed adoptedSound (by omega))
  | some d' =>
    simp only [Option.isNone_some, Bool.false_eq_true, if_false]
    exact Compiling.run_bind_congr_left (ih.registerNamed sound (by omega))

theorem resolve_saturated {d : Definition} {hint : String} {s : Compiler} (sound : Sound D s)
    (placed : Placed D hint d) (enough : 5 * Json.size d.toJson + 7 + openCost s ≤ n + 1) :
    (resolve (n + 2) d hint).run s = (resolve (n + 1) d hint).run s := by
  rw [resolve, resolve]
  by_cases unconstrained : d.isUnconstrained = true
  · simp only [unconstrained, if_true]
  simp only [unconstrained, if_false, Bool.false_eq_true]
  refine Compiling.run_bind_congr rfl fun c u categorizing => ?_
  obtain ⟨rfl, category⟩ := categoryOf_ok categorizing
  cases c with
  | passthrough => exact ih.reference sound (by omega)
  | native => rfl
  | list => exact ih.listOf sound placed category (by omega)
  | union => exact ih.unionOf sound placed category (by omega)
  | polymorph => exact ih.polymorphOf sound placed category (by omega)
  | enumeration => exact ih.anonymous sound placed category (by omega)
  | custom => exact ih.anonymous sound placed category (by omega)
  | multiInheritance => exact ih.anonymous sound placed category (by omega)

theorem listOf_saturated {d : Definition} {name : String} {s : Compiler} (sound : Sound D s)
    (placed : Placed D name d) (category : d.shapeCategory = .ok .list)
    (enough : 5 * Json.size d.toJson + 3 + openCost s ≤ n + 1) :
    (listOf (n + 2) d name).run s = (listOf (n + 1) d name).run s := by
  rw [listOf, listOf]
  split
  · rfl
  · rfl
  · next items notTrue found =>
    dsimp only
    refine Compiling.run_bind_congr rfl fun itemDefinition u defining => ?_
    obtain ⟨rfl, read⟩ := definitionOf_ok defining
    have smaller := Definition.size_get?_lt found
    rw [← Definition.toJson_of_ofJson read] at smaller
    exact Compiling.run_bind_congr_left
      (ih.resolve sound (.item placed category found notTrue read) (by omega))

theorem unionOf_saturated {d : Definition} {name : String} {s : Compiler} (sound : Sound D s)
    (placed : Placed D name d) (category : d.shapeCategory = .ok .union)
    (enough : 5 * Json.size d.toJson + 3 + openCost s ≤ n + 1) :
    (unionOf (n + 2) d name).run s = (unionOf (n + 1) d name).run s := by
  rw [unionOf, unionOf]
  refine Compiling.run_bind_congr_left ?_
  refine (Compiling.filterMapM_congr (Reaches D s) ?_ s (Reaches.refl sound)).1
  rintro ⟨alternative, ix⟩ member u reaches
  have cheaper := reaches.openCost_le
  have smaller : Json.size alternative + 2 ≤ Json.size d.toJson :=
    Definition.size_alternative_le (List.fst_mem_of_mem_zipIdx member)
  dsimp only
  by_cases null : ((alternative.get? "type").bind Json.str? == some "null") = true
  · simp only [null, if_true, true_and]
    intro b t run
    obtain ⟨-, rfl⟩ := Compiling.pure_ok run
    exact reaches
  simp only [null, Bool.false_eq_true, if_false]
  have placedOption : ∀ {e : Definition}, Definition.ofJson alternative = .ok e →
      Placed D (name ++ "_Option" ++ toString ix) e :=
    fun read => .option placed category member (by simpa using null) read
  refine ⟨Compiling.run_bind_congr rfl fun option u1 defining => ?_, fun b t run => ?_⟩
  · obtain ⟨rfl, read⟩ := definitionOf_ok defining
    rw [← Definition.toJson_of_ofJson read] at smaller
    exact Compiling.run_bind_congr_left (ih.resolve reaches.1 (placedOption read) (by omega))
  · obtain ⟨option, u1, defining, resolvingOption⟩ := Compiling.bind_ok run
    obtain ⟨rfl, read⟩ := definitionOf_ok defining
    obtain ⟨m, u2, resolving, wrapping⟩ := Compiling.bind_ok resolvingOption
    obtain ⟨-, rfl⟩ := Compiling.pure_ok wrapping
    exact reaches.resolve resolving (placedOption read)

theorem conditions_saturated {name : String} {parts : List Json} {d : Definition} {s : Compiler}
    (sound : Sound D s) (placed : Placed D name d) (category : d.shapeCategory = .ok .polymorph)
    (parts? : d.allOf? = some parts) (enough : 5 * Json.size d.toJson + 2 + openCost s ≤ n + 1) :
    (conditions (n + 2) name parts).run s = (conditions (n + 1) name parts).run s := by
  rw [conditions, conditions]
  refine (Compiling.mapM_congr (Reaches D s) ?_ s (Reaches.refl sound)).1
  rintro ⟨part, ix⟩ member u reaches
  have cheaper := reaches.openCost_le
  dsimp only
  cases found : ((part.get? "if").bind (·.get? "properties")).bind Json.members? with
  | none => exact ⟨rfl, fun _ _ run => (Compiling.throw_ok run).elim⟩
  | some fields =>
    dsimp only
    -- reading the constants only reads the schema
    refine ⟨Compiling.run_bind_congr rfl fun constants u1 folding => ?_, fun b t run => ?_⟩
    · obtain rfl := Compiling.foldlM_reads (by
        rintro ⟨field, schema⟩ - acc u5 acc' u6 stepping
        dsimp only at stepping
        split at stepping
        · exact (Compiling.pure_ok stepping).2
        · exact (Compiling.throw_ok stepping).elim) _ _ _ _ folding
      refine Compiling.run_bind_congr rfl fun thenPart u2 defining => ?_
      obtain ⟨rfl, read⟩ := definitionOf_ok defining
      have smaller := Definition.size_then_le parts? (List.fst_mem_of_mem_zipIdx member) read
      exact Compiling.run_bind_congr_left
        (ih.resolve reaches.1 (.branch placed category parts? member read) (by omega))
    · obtain ⟨constants, u1, folding, reading⟩ := Compiling.bind_ok run
      obtain rfl := Compiling.foldlM_reads (by
        rintro ⟨field, schema⟩ - acc u5 acc' u6 stepping
        dsimp only at stepping
        split at stepping
        · exact (Compiling.pure_ok stepping).2
        · exact (Compiling.throw_ok stepping).elim) _ _ _ _ folding
      obtain ⟨thenPart, u2, defining, resolvingThen⟩ := Compiling.bind_ok reading
      obtain ⟨rfl, read⟩ := definitionOf_ok defining
      obtain ⟨hk, u3, resolving, wrapping⟩ := Compiling.bind_ok resolvingThen
      obtain ⟨-, rfl⟩ := Compiling.pure_ok wrapping
      exact reaches.resolve resolving (.branch placed category parts? member read)

theorem keyed_saturated {name : String} {d : Definition} {s : Compiler} (sound : Sound D s)
    (enough : openCost s + 2 ≤ n + 1) :
    (keyed (n + 2) name d).run s = (keyed (n + 1) name d).run s := by
  rw [keyed, keyed]
  refine Compiling.run_bind_congr rfl fun disc? u reading => ?_
  obtain ⟨-, rfl⟩ := Compiling.liftExcept_ok reading
  cases disc? with
  | none => rfl
  | some disc =>
    dsimp only
    refine Compiling.run_bind_congr_left ?_
    refine (Compiling.foldlM_congr (fun _ => Reaches D u) ?_ _ u (Reaches.refl sound)).1
    rintro ⟨key, target⟩ - ⟨mapping, handles⟩ u1 reaches
    have cheaper := reaches.openCost_le
    refine ⟨Compiling.run_bind_congr_left (ih.registerNamed reaches.1 (by omega)),
      fun acc t run => ?_⟩
    obtain ⟨⟨⟩, u2, registering, run⟩ := Compiling.bind_ok run
    obtain ⟨hk, u3, lookup, wrapping⟩ := Compiling.bind_ok run
    obtain ⟨rfl, -⟩ := registered_ok lookup
    obtain ⟨-, rfl⟩ := Compiling.pure_ok wrapping
    exact reaches.registerNamed registering

theorem polymorphOf_saturated {d : Definition} {name : String} {s : Compiler}
    (sound : Sound D s) (placed : Placed D name d) (category : d.shapeCategory = .ok .polymorph)
    (enough : 5 * Json.size d.toJson + 3 + openCost s ≤ n + 1) :
    (polymorphOf (n + 2) d name).run s = (polymorphOf (n + 1) d name).run s := by
  have positive := Json.size_pos d.toJson
  rw [polymorphOf, polymorphOf]
  cases parts? : d.allOf? with
  | none => exact ih.keyed sound (by omega)
  | some parts =>
    exact Compiling.run_bind_congr_left (ih.conditions sound placed category parts? (by omega))

theorem inheritanceParents_saturated {name : String} {d : Definition} {s : Compiler}
    (sound : Sound D s) (placed : Placed D name d)
    (category : d.shapeCategory = .ok .multiInheritance)
    (enough : 5 * Json.size d.toJson + 3 + openCost s ≤ n + 1) :
    (inheritanceParents (n + 2) name d).run s = (inheritanceParents (n + 1) name d).run s := by
  rw [inheritanceParents, inheritanceParents]
  refine (Compiling.mapM_congr (Reaches D s) ?_ s (Reaches.refl sound)).1
  rintro ⟨part, ix⟩ member u reaches
  have cheaper := reaches.openCost_le
  have smaller : Json.size part + 2 ≤ Json.size d.toJson :=
    Definition.size_part_le (List.fst_mem_of_mem_zipIdx member)
  dsimp only
  refine ⟨Compiling.run_bind_congr rfl fun partDefinition u1 defining => ?_, fun parent t run => ?_⟩
  · obtain ⟨rfl, read⟩ := definitionOf_ok defining
    rw [← Definition.toJson_of_ofJson read] at smaller
    refine Compiling.run_bind_congr rfl fun c u2 categorizing => ?_
    obtain ⟨rfl, partCategory⟩ := categoryOf_ok categorizing
    have placedParent := Placed.parent placed category member read
    cases c with
    | passthrough =>
      exact Compiling.run_bind_congr_left (ih.reference reaches.1 (by omega))
    | custom =>
      exact Compiling.run_bind_congr_left
        (ih.anonymous reaches.1 placedParent partCategory (by omega))
    | multiInheritance =>
      exact Compiling.run_bind_congr_left
        (ih.anonymous reaches.1 placedParent partCategory (by omega))
    | native => rfl
    | enumeration => rfl
    | list => rfl
    | union => rfl
    | polymorph => rfl
  · obtain ⟨partDefinition, u1, defining, categorizingPart⟩ := Compiling.bind_ok run
    obtain ⟨rfl, read⟩ := definitionOf_ok defining
    obtain ⟨c, u2, categorizing, chosen⟩ := Compiling.bind_ok categorizingPart
    obtain ⟨rfl, partCategory⟩ := categoryOf_ok categorizing
    have placedParent := Placed.parent placed category member read
    cases c with
    | passthrough =>
      obtain ⟨⟨h, k⟩, u3, referring, choosing⟩ := Compiling.bind_ok chosen
      dsimp only at choosing
      split at choosing
      · obtain ⟨-, rfl⟩ := Compiling.pure_ok choosing
        exact reaches.reference referring
      · exact (Compiling.throw_ok choosing).elim
    | custom =>
      obtain ⟨hk, u3, adopting, naming⟩ := Compiling.bind_ok chosen
      obtain ⟨-, rfl⟩ := Compiling.pure_ok naming
      exact reaches.anonymous adopting placedParent partCategory
    | multiInheritance =>
      obtain ⟨hk, u3, adopting, naming⟩ := Compiling.bind_ok chosen
      obtain ⟨-, rfl⟩ := Compiling.pure_ok naming
      exact reaches.anonymous adopting placedParent partCategory
    | native => exact (Compiling.throw_ok chosen).elim
    | enumeration => exact (Compiling.throw_ok chosen).elim
    | list => exact (Compiling.throw_ok chosen).elim
    | union => exact (Compiling.throw_ok chosen).elim
    | polymorph => exact (Compiling.throw_ok chosen).elim

end Succ

/-- Every registration function runs the same with one bound more, at every bound at least
its threshold. -/
theorem saturated : ∀ n, Saturated D n
  | 0 => saturated_zero
  | n + 1 =>
    have ih := saturated n
    { registerNamed := registerNamed_saturated ih
      registerDefinition := registerDefinition_saturated ih
      inheritanceParents := inheritanceParents_saturated ih
      resolve := resolve_saturated ih
      reference := reference_saturated ih
      anonymous := anonymous_saturated ih
      listOf := listOf_saturated ih
      unionOf := unionOf_saturated ih
      polymorphOf := polymorphOf_saturated ih
      conditions := conditions_saturated ih
      keyed := keyed_saturated ih }

/-- Registering a name runs the same with every bound above the potential. -/
theorem registerNamed_bound_eq {name : String} {s : Compiler} {m m' : Nat} (sound : Sound D s)
    (enough : openCost s + 1 ≤ m) (enough' : openCost s + 1 ≤ m') :
    (registerNamed m name).run s = (registerNamed m' name).run s :=
  @eq_of_succ_eq _ (fun k => (registerNamed k name).run s) _
    (fun k above => (saturated k).registerNamed sound above) m m' enough enough'

/-- Resolving a schema runs the same with every bound above the potential and what the
schema may take. -/
theorem resolve_bound_eq {d : Definition} {hint : String} {s : Compiler} {m m' : Nat}
    (sound : Sound D s) (placed : Placed D hint d)
    (enough : 5 * Json.size d.toJson + 7 + openCost s ≤ m)
    (enough' : 5 * Json.size d.toJson + 7 + openCost s ≤ m') :
    (resolve m d hint).run s = (resolve m' d hint).run s :=
  @eq_of_succ_eq _ (fun k => (resolve k d hint).run s) _
    (fun k above => (saturated k).resolve sound placed above) m m' enough enough'

end Compiler

end SchemaTypes
