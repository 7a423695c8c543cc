import SchemaTypes.Proofs.Scalars

/-! # Loading and writing flat records

Loading data as a flat record turns each key into an attribute name, binds the values to the
parameters and coerces each one; writing the instance turns each attribute back into its
external name. This module follows both directions. A load gives one settled field per
parameter, in parameter order (`Registry.fromDict_settles`); the fields, keyed by their
external names, load back as the same instance from any special names
(`Registry.fromDict_returns`); and the JSON of such an instance does not depend on the special
names (`Registry.valueJson_flat`).
-/

namespace SchemaTypes

theorem Value.setEntry_fresh {entries : List (String × Value)} {key : String} {value : Value}
    (fresh : key ∉ entries.map (·.1)) :
    Value.setEntry entries key value = entries ++ [(key, value)] := by
  have absent : entries.any (·.1 == key) = false := by
    simpa [List.any_eq_false] using
      fun e member same => fresh (List.mem_map.mpr ⟨e, member, same⟩)
  simp [Value.setEntry, absent]

theorem Json.setMember_fresh {members : List (String × Json)} {key : String} {value : Json}
    (fresh : key ∉ members.map (·.1)) :
    Json.setMember members key value = members ++ [(key, value)] := by
  have absent : members.any (·.1 == key) = false := by
    simpa [List.any_eq_false] using
      fun m member same => fresh (List.mem_map.mpr ⟨m, member, same⟩)
  simp [Json.setMember, absent]

/-- Collecting entries with distinct keys keeps them as they are. -/
theorem Value.collect_of_nodup {entries : List (String × Value)}
    (distinct : (entries.map (·.1)).Nodup) : Value.collect entries = entries := by
  suffices all : ∀ acc : List (String × Value), ((acc ++ entries).map (·.1)).Nodup →
      entries.foldl (fun acc e => Value.setEntry acc e.1 e.2) acc = acc ++ entries from
    all [] distinct
  clear distinct
  induction entries with
  | nil => intro acc _; simp
  | cons e entries inductionHypothesis =>
    intro acc distinct'
    have fresh : e.1 ∉ acc.map (·.1) := by
      intro present
      simp only [List.map_append, List.map_cons] at distinct'
      exact (List.nodup_append.mp distinct').2.2 _ present _ List.mem_cons_self rfl
    rw [List.foldl_cons, Value.setEntry_fresh fresh,
      inductionHypothesis (acc ++ [e]) (by simpa using distinct')]
    simp

/-- Every entry collected is one of the entries. -/
theorem Value.mem_collect {entries : List (String × Value)} {x : String} {v : Value}
    (member : (x, v) ∈ Value.collect entries) : (x, v) ∈ entries := by
  suffices all : ∀ acc : List (String × Value), (x, v) ∈ entries.foldl
      (fun acc e => Value.setEntry acc e.1 e.2) acc → (x, v) ∈ acc ∨ (x, v) ∈ entries from
    (all [] member).resolve_left (by simp)
  clear member
  induction entries with
  | nil => intro acc member; exact .inl member
  | cons e entries inductionHypothesis =>
    intro acc member
    rcases inductionHypothesis _ member with old | later
    · rcases Value.mem_setEntry old with ⟨rfl, rfl⟩ | older
      · exact .inr List.mem_cons_self
      · exact .inl older
    · exact .inr (List.mem_cons_of_mem _ later)

namespace Constructor

/-- The keywords sorted as given come from the ones given before or the ones sorted. -/
theorem sortKeywords_given {c : Constructor} :
    ∀ {given extra keywords given' extra' : List (String × Value)},
      c.sortKeywords given extra keywords = .ok (given', extra') →
      ∀ e ∈ given', e ∈ given ∨ e ∈ keywords
  | _, _, [], _, _, sorted => by cases sorted; exact fun e member => .inl member
  | given, extra, (name, v) :: rest, given', extra', sorted => by
    unfold sortKeywords at sorted
    intro e member
    split at sorted
    · split at sorted
      · cases sorted
      · rcases sortKeywords_given sorted e member with old | later
        · rcases List.mem_append.mp old with older | new
          · exact .inl older
          · exact .inr (by rw [List.mem_singleton.mp new]; exact List.mem_cons_self)
        · exact .inr (List.mem_cons_of_mem _ later)
    · split at sorted
      · rcases sortKeywords_given sorted e member with old | later
        · exact .inl old
        · exact .inr (List.mem_cons_of_mem _ later)
      · cases sorted

/-- Keywords that name distinct parameters are all sorted as given. -/
theorem sortKeywords_params {c : Constructor} :
    ∀ {given extra keywords : List (String × Value)},
      (∀ e ∈ keywords, (c.param? e.1).isSome = true) →
      ((given ++ keywords).map (·.1)).Nodup →
      c.sortKeywords given extra keywords = .ok (given ++ keywords, extra)
  | given, extra, [], _, _ => by simp [sortKeywords]
  | given, extra, (name, v) :: rest, params, distinct => by
    have fresh : given.any (·.1 == name) = false := by
      simp only [List.map_append, List.map_cons] at distinct
      rw [List.any_eq_false]
      intro e member same
      exact (List.nodup_append.mp distinct).2.2 _ (List.mem_map_of_mem member) _ List.mem_cons_self
        (by simpa using same)
    unfold sortKeywords
    rw [if_pos (params _ List.mem_cons_self), if_neg (by simp [fresh])]
    have sorted := @sortKeywords_params c (given ++ [(name, v)]) extra rest
      (fun e member => params e (List.mem_cons_of_mem _ member)) (by simpa using distinct)
    simpa using sorted

end Constructor

/-- Looking a parameter up among values keyed by parameters with distinct names finds its
own. -/
theorem Value.lookup_filterMap {ps : List Property} {g : Property → Option (String × Value)}
    (keyed : ∀ q ∈ ps, ∀ e, g q = some e → e.1 = q.name)
    (distinct : (ps.map (·.name)).Nodup) {p : Property} (member : p ∈ ps) {v : Value}
    (found : g p = some (p.name, v)) :
    Value.lookup (ps.filterMap g) p.name = some v := by
  induction ps with
  | nil => cases member
  | cons q qs inductionHypothesis =>
    have rest := inductionHypothesis (fun q' member => keyed q' (List.mem_cons_of_mem _ member))
      (List.nodup_cons.mp distinct).2
    rcases List.mem_cons.mp member with rfl | later
    · simp [found, Value.lookup]
    · have other : q.name ≠ p.name := by
        intro same
        exact (List.nodup_cons.mp distinct).1
          (show q.name ∈ qs.map (·.name) by rw [same]; exact List.mem_map_of_mem later)
      cases given : g q with
      | none => simp [given, rest later]
      | some e =>
        have key := keyed q List.mem_cons_self e given
        have skipped : (e.1 == p.name) = false := by simp [key, other]
        simp [given, Value.lookup, skipped]
        simpa [Value.lookup] using rest later

theorem Value.key_of_lookup {es : List (String × Value)} {key : String} {v : Value}
    (found : Value.lookup es key = some v) : key ∈ es.map (·.1) := by
  obtain ⟨e, lookedUp, rfl⟩ := Option.map_eq_some_iff.mp found
  have same : e.1 = key := by simpa using List.find?_some lookedUp
  exact same ▸ List.mem_map_of_mem (List.mem_of_find?_eq_some lookedUp)

theorem Value.mem_of_lookup {es : List (String × Value)} {key : String} {v : Value}
    (found : Value.lookup es key = some v) : (key, v) ∈ es := by
  obtain ⟨e, lookedUp, rfl⟩ := Option.map_eq_some_iff.mp found
  have same : e.1 = key := by simpa using List.find?_some lookedUp
  rw [← same]
  exact List.mem_of_find?_eq_some lookedUp

theorem keys_of_forall₂ {R : Property → String × Value → Prop} :
    ∀ {ps : List Property} {es : List (String × Value)},
      List.Forall₂ (fun p e => e.1 = p.name ∧ R p e) ps es → es.map (·.1) = ps.map (·.name)
  | _, _, .nil => rfl
  | _, _, .cons ⟨named, _⟩ rest => by simp [named, keys_of_forall₂ rest]

/-- Entries keyed by distinct parameter names, in parameter order, are looked up by the
parameter's name. -/
theorem Value.lookup_of_forall₂ {R : Property → String × Value → Prop} :
    ∀ {ps : List Property} {es : List (String × Value)},
      List.Forall₂ (fun p e => e.1 = p.name ∧ R p e) ps es → (ps.map (·.name)).Nodup →
      List.Forall₂ (fun p e => Value.lookup es p.name = some e.2 ∧ R p e) ps es
  | _, _, .nil, _ => .nil
  | p :: ps, e :: es, .cons ⟨named, holds⟩ rest, distinct => by
    refine .cons ⟨by simp [Value.lookup, named], holds⟩ ?_
    have tail := Value.lookup_of_forall₂ rest (List.nodup_cons.mp distinct).2
    refine tail.imp fun q e' ⟨found, holds'⟩ => ⟨?_, holds'⟩
    -- the head entry is `p`'s, and no later parameter has its name
    have later : q.name ∈ ps.map (·.name) := keys_of_forall₂ rest ▸ Value.key_of_lookup found
    have other : (e.1 == q.name) = false := by
      have differ : p.name ≠ q.name := fun same =>
        (List.nodup_cons.mp distinct).1 (show p.name ∈ ps.map (·.name) from same ▸ later)
      simpa [named] using differ
    simpa [Value.lookup, List.find?_cons, other] using found

theorem filterMap_of_forall₂ {α β : Type} {g : α → Option β} :
    ∀ {xs : List α} {ys : List β}, List.Forall₂ (fun x y => g x = some y) xs ys →
      xs.filterMap g = ys
  | _, _, .nil => rfl
  | _, _, .cons mapped rest => by simp [mapped, filterMap_of_forall₂ rest]

namespace Constructor

/-- Keywords for every parameter, in parameter order and under distinct names, bind as they
are, with no extra ones. -/
theorem bind_keywords {c : Constructor} {fields : List (String × Value)}
    (named : List.Forall₂ (fun p e => e.1 = p.name) c.params fields)
    (distinct : (c.params.map (·.name)).Nodup) :
    c.bind { keyword := fields } = .ok ⟨fields, []⟩ := by
  have paired : List.Forall₂ (fun p e => e.1 = p.name ∧ e.1 = p.name) c.params fields :=
    named.imp fun _ _ same => ⟨same, same⟩
  have keys := keys_of_forall₂ paired
  have found := Value.lookup_of_forall₂ paired distinct
  have sorted : c.sortKeywords [] [] fields = .ok (fields, []) := by
    refine sortKeywords_params (fun e member => ?_) (by simpa [keys] using distinct)
    obtain ⟨p, param, same⟩ : ∃ p ∈ c.params, p.name = e.1 := by
      have : e.1 ∈ c.params.map (·.name) := keys ▸ List.mem_map_of_mem member
      simpa using this
    exact List.find?_isSome.mpr ⟨p, param, by simp [same]⟩
  unfold bind
  rw [if_neg (by simp)]
  simp only [List.zip_nil_right, List.map_nil, sorted]
  dsimp only [Bind.bind, Except.bind]
  split
  · congr
    refine filterMap_of_forall₂ (found.imp fun p e ⟨lookedUp, same⟩ => ?_)
    simp only [lookedUp]
    rw [← same]
  · next first tail missing =>
    -- every parameter is given, so none is missing
    obtain ⟨param, required⟩ := List.mem_filter.mp (missing ▸ List.mem_cons_self)
    obtain ⟨e, -, lookedUp, -⟩ := Compiler.forall₂_mem_left found param
    simp [lookedUp] at required

/-- Binding keywords to parameters that are required or default to `null` gives each
parameter `null` or the value of one of the keywords. -/
theorem bind_declared {c : Constructor} {keywords : List (String × Value)} {bound : Bound}
    (bound_ok : c.bind { keyword := keywords } = .ok bound)
    (defaults : ∀ p ∈ c.params, p.default = .required ∨ p.default = .value .null)
    (distinct : (c.params.map (·.name)).Nodup) :
    ∀ p ∈ c.params, ∃ v, Value.lookup bound.declared p.name = some v ∧
      (v = .null ∨ ∃ x, (x, v) ∈ keywords) := by
  unfold bind at bound_ok
  rw [if_neg (by simp)] at bound_ok
  simp only [List.zip_nil_right, List.map_nil] at bound_ok
  obtain ⟨⟨given, extra⟩, sorted, rest⟩ := Compiling.except_bind_ok bound_ok
  dsimp only at rest
  split at rest
  · next missing =>
    cases rest
    intro p param
    -- a parameter is given, or else defaults to `null`, since none is missing; either way
    -- every value is keyed by the name of its parameter
    cases givenValue : Value.lookup given p.name with
    | some v =>
      refine ⟨v, Value.lookup_filterMap ?_ distinct param (by simp [givenValue]), .inr ?_⟩
      · intro q _ e mapped
        split at mapped <;> first | (cases mapped; rfl) | cases mapped
      rcases sortKeywords_given sorted _ (Value.mem_of_lookup givenValue) with none | keyword
      · cases none
      · exact ⟨p.name, keyword⟩
    | none =>
      rcases defaults p param with required | null
      · have notMissing := List.filter_eq_nil_iff.mp missing p param
        simp [givenValue, required] at notMissing
      · refine ⟨.null, Value.lookup_filterMap ?_ distinct param (by simp [givenValue, null]),
          .inl rfl⟩
        intro q _ e mapped
        split at mapped <;> first | (cases mapped; rfl) | cases mapped
  · cases rest

end Constructor

/-- The fields of an instance whose properties hold the given values. -/
def Property.fields (cells : List (Property × Value)) : List (String × Value) :=
  cells.map fun cell => (cell.1.name, cell.2)

/-- The same values keyed by the properties' external names, as data holds them. -/
def Property.data (cells : List (Property × Value)) : List (String × Value) :=
  cells.map fun cell => (cell.1.externalName, cell.2)

theorem Property.keys_fields (cells : List (Property × Value)) :
    (Property.fields cells).map (·.1) = cells.map (·.1.name) := by
  simp [Property.fields]

theorem Property.names_nodup {cells : List (Property × Value)} {ps : List Property}
    (params : cells.map (·.1) = ps) (distinct : (ps.map (·.name)).Nodup) :
    (cells.map (·.1.name)).Nodup := by
  rw [← params] at distinct
  simpa [List.map_map, Function.comp_def] using distinct

/-- The fields of distinct properties look each property up by its name. -/
theorem Property.lookup_fields {cells : List (Property × Value)}
    (distinct : (cells.map (·.1.name)).Nodup) {cell : Property × Value}
    (member : cell ∈ cells) : Value.lookup (Property.fields cells) cell.1.name = some cell.2 := by
  induction cells with
  | nil => cases member
  | cons head cells inductionHypothesis =>
    rcases List.mem_cons.mp member with rfl | later
    · simp [Property.fields, Value.lookup]
    · have other : (head.1.name == cell.1.name) = false := by
        have differ : head.1.name ≠ cell.1.name := fun same =>
          (List.nodup_cons.mp distinct).1 (List.mem_map.mpr ⟨cell, later, same.symm⟩)
        simpa using differ
      have rest := inductionHypothesis (List.nodup_cons.mp distinct).2 later
      simp only [Property.fields, Value.lookup] at rest ⊢
      simpa [List.find?_cons, other] using rest

/-- A loop over parameters whose every step sets the parameter's field gives one field per
parameter, in order. -/
theorem Yields.foldlM_cells
    {F : List (String × Value) → Property → Loading (List (String × Value))}
    {S : Property → Value → Prop} {ps : List Property}
    (step : ∀ p ∈ ps, ∀ acc acc', Yields (F acc p) acc' →
      ∃ w, acc' = Value.setEntry acc p.name w ∧ S p w)
    (distinct : (ps.map (·.name)).Nodup) :
    ∀ acc result, (∀ p ∈ ps, p.name ∉ acc.map (·.1)) →
      Yields (ps.foldlM F acc) result →
      ∃ cells : List (Property × Value), cells.map (·.1) = ps ∧
        result = acc ++ Property.fields cells ∧ ∀ cell ∈ cells, S cell.1 cell.2 := by
  induction ps with
  | nil =>
    intro acc result _ yields
    rw [List.foldlM_nil] at yields
    rw [Yields.pure_inv yields]
    exact ⟨[], rfl, by simp [Property.fields], by simp⟩
  | cons p ps inductionHypothesis =>
    intro acc result fresh yields
    rw [List.foldlM_cons] at yields
    obtain ⟨acc', first, rest⟩ := Yields.bind_inv yields
    obtain ⟨w, rfl, settled⟩ := step p List.mem_cons_self acc acc' first
    rw [Value.setEntry_fresh (fresh p List.mem_cons_self)] at rest
    have fresh' : ∀ q ∈ ps, q.name ∉ (acc ++ [(p.name, w)]).map (·.1) := by
      intro q member present
      simp only [List.map_append, List.map_cons, List.map_nil, List.mem_append,
        List.mem_singleton] at present
      rcases present with old | same
      · exact fresh q (List.mem_cons_of_mem _ member) old
      · exact (List.nodup_cons.mp distinct).1 (List.mem_map.mpr ⟨q, member, same⟩)
    obtain ⟨cells, params, made, settledAll⟩ := inductionHypothesis
      (fun q member => step q (List.mem_cons_of_mem _ member)) (List.nodup_cons.mp distinct).2
      _ result fresh' rest
    refine ⟨(p, w) :: cells, by simp [params], by simp [made, Property.fields], ?_⟩
    intro cell member
    rcases List.mem_cons.mp member with rfl | later
    · exact settled
    · exact settledAll cell later

/-- A loop over parameters whose every step sets the parameter's field to a known value
gives those fields, in order. -/
theorem Returns.foldlM_cells
    {F : List (String × Value) → Property → Loading (List (String × Value))}
    {cells : List (Property × Value)}
    (step : ∀ cell ∈ cells, ∀ acc,
      Returns (F acc cell.1) (Value.setEntry acc cell.1.name cell.2))
    (distinct : (cells.map (·.1.name)).Nodup) :
    ∀ acc, (∀ cell ∈ cells, cell.1.name ∉ acc.map (·.1)) →
      Returns ((cells.map (·.1)).foldlM F acc) (acc ++ Property.fields cells) := by
  induction cells with
  | nil => intro acc _; simpa [Property.fields] using Returns.pure acc
  | cons cell cells inductionHypothesis =>
    intro acc fresh
    rw [List.map_cons, List.foldlM_cons]
    have first := step cell List.mem_cons_self acc
    rw [Value.setEntry_fresh (fresh cell List.mem_cons_self)] at first
    have fresh' :
        ∀ other ∈ cells, other.1.name ∉ (acc ++ [(cell.1.name, cell.2)]).map (·.1) := by
      intro other member present
      simp only [List.map_append, List.map_cons, List.map_nil, List.mem_append,
        List.mem_singleton] at present
      rcases present with old | same
      · exact fresh other (List.mem_cons_of_mem _ member) old
      · exact (List.nodup_cons.mp distinct).1 (List.mem_map.mpr ⟨other, member, same⟩)
    have rest := inductionHypothesis
      (fun other member => step other (List.mem_cons_of_mem _ member))
      (List.nodup_cons.mp distinct).2 _ fresh'
    refine Returns.bind first ?_
    simpa [Property.fields] using rest

theorem Value.ofJsonMembers_eq :
    ∀ members : List (String × Json),
      Value.ofJsonMembers members = members.map fun m => (m.1, Value.ofJson m.2)
  | [] => rfl
  | (k, j) :: members => by simp [Value.ofJsonMembers, Value.ofJsonMembers_eq members]

theorem except_mapError_ok {ε ε' α : Type} {x : Except ε α} {f : ε → ε'} {a : α}
    (ok : x.mapError f = .ok a) : x = .ok a := by
  cases x with
  | error e => cases ok
  | ok b => cases ok; rfl

/-- Writing the fields of a flat record gives one member per field, under the property's
external name. -/
theorem Value.jsonFields_cells {external : String → String → String} {name : String} :
    ∀ {cells : List (Property × Value)} {acc members : List (String × Json)},
      (∀ cell ∈ cells, external name cell.1.name = cell.1.externalName) →
      ((acc.map (·.1)) ++ cells.map (·.1.externalName)).Nodup →
      Value.jsonFields external name acc (Property.fields cells) = .ok members →
      ∃ written, members = acc ++ written ∧ List.Forall₂
        (fun cell m => m.1 = cell.1.externalName ∧ cell.2.toJson external = .ok m.2) cells written
  | [], acc, members, _, _, wrote => by
    cases wrote
    exact ⟨[], by simp, .nil⟩
  | cell :: cells, acc, members, keys, distinct, wrote => by
    simp only [Property.fields, List.map_cons, Value.jsonFields] at wrote
    obtain ⟨j, json, rest⟩ := Compiling.except_bind_ok wrote
    have key := keys cell List.mem_cons_self
    rw [key] at rest
    have fresh : cell.1.externalName ∉ acc.map (·.1) := by
      intro present
      simp only [List.map_cons] at distinct
      exact (List.nodup_append.mp distinct).2.2 _ present _ List.mem_cons_self rfl
    rw [Json.setMember_fresh fresh] at rest
    obtain ⟨written, made, related⟩ := Value.jsonFields_cells
      (fun cell' member => keys cell' (List.mem_cons_of_mem _ member))
      (by simpa using distinct) rest
    refine ⟨(cell.1.externalName, j) :: written, by simp [made], .cons ⟨rfl, ?_⟩ related⟩
    exact except_mapError_ok json

/-- Reading back the members written for scalar fields gives the data of the fields. -/
theorem Value.data_of_written {external : String → String → String} :
    ∀ {cells : List (Property × Value)} {written : List (String × Json)},
      List.Forall₂ (fun cell m => m.1 = cell.1.externalName ∧ cell.2.toJson external = .ok m.2)
        cells written → (∀ cell ∈ cells, cell.2.Scalar) →
      written.map (fun m => (m.1, Value.ofJson m.2)) = Property.data cells
  | _, _, .nil, _ => rfl
  | cell :: cells, m :: written, .cons ⟨key, json⟩ rest, scalars => by
    have later := Value.data_of_written rest
      (fun cell' member => scalars cell' (List.mem_cons_of_mem _ member))
    simp only [List.map_cons, Property.data] at later ⊢
    rw [later, key, Value.ofJson_toJson (scalars cell List.mem_cons_self) json]

/-- Writing scalar fields does not depend on the external names of other attributes. -/
theorem Value.jsonFields_congr {external external' : String → String → String} {name : String} :
    ∀ (fields : List (String × Value)) (acc : List (String × Json)),
      (∀ e ∈ fields, external name e.1 = external' name e.1) →
      (∀ e ∈ fields, e.2.Scalar) →
      Value.jsonFields external name acc fields = Value.jsonFields external' name acc fields
  | [], _, _, _ => rfl
  | (k, v) :: fields, acc, keys, scalars => by
    simp only [Value.jsonFields]
    rw [keys _ List.mem_cons_self,
      @Value.toJson_scalar external external' v (scalars _ List.mem_cons_self)]
    congr 1
    funext j
    exact Value.jsonFields_congr fields _
      (fun e member => keys e (List.mem_cons_of_mem _ member))
      (fun e member => scalars e (List.mem_cons_of_mem _ member))

theorem stateM_mapM_forall₂ {σ α β : Type} {f : α → StateM σ β} (R : α → β → Prop)
    (step : ∀ a s, R a ((f a).run s).1) :
    ∀ (xs : List α) (s : σ), List.Forall₂ R xs ((xs.mapM f).run s).1
  | [], _ => .nil
  | a :: as, s => by
    rw [List.mapM_cons]
    exact .cons (step a s) (stateM_mapM_forall₂ R step as _)

namespace Registry

variable {r : Registry}

/-- Binding data to a constructor of scalar parameters gives one settled field per
parameter. -/
theorem invoke_settles {n : Nat} {ctor : Constructor} {keywords : List (String × Value)}
    {owner : String} {fields : List (String × Value)} (noCatchAll : ctor.catchAll = none)
    (scalar : ∀ p ∈ ctor.params, p.isScalar = true)
    (distinct : (ctor.params.map (·.name)).Nodup)
    (fits : ∀ x v, (x, v) ∈ keywords → v.IntFits)
    (yields : Yields (r.invoke n ctor { keyword := keywords } [] owner) fields) :
    ∃ cells : List (Property × Value), cells.map (·.1) = ctor.params ∧
      fields = Property.fields cells ∧ ∀ cell ∈ cells, cell.1.Settles cell.2 := by
  cases n with
  | zero => rw [invoke] at yields; exact (Yields.throw_inv yields).elim
  | succ n =>
    simp only [invoke, noCatchAll] at yields
    obtain ⟨bound, binding, rest⟩ := Yields.bind_inv yields
    have defaults : ∀ p ∈ ctor.params, p.default = .required ∨ p.default = .value .null :=
      fun p param => (Property.scalarOf_of_isScalar (scalar p param)).choose_spec.default
    have declared := Constructor.bind_declared (Yields.ofExcept_inv binding) defaults distinct
    obtain ⟨folded, looping, finishing⟩ := Yields.bind_inv rest
    rw [Yields.pure_inv finishing]
    have looped :=
      Yields.foldlM_cells (S := Property.Settles) ?step distinct [] folded (by simp) looping
    · obtain ⟨cells, params, made, settled⟩ := looped
      exact ⟨cells, params, by simpa using made, settled⟩
    case step =>
      -- each parameter is bound, to `null` or a value of the data, and coerced
      intro p param acc acc' step
      obtain ⟨v, found, given⟩ := declared p param
      rw [found] at step
      obtain ⟨w, coerced, stored⟩ := Yields.bind_inv step
      obtain ⟨t, scalarOf⟩ := Property.scalarOf_of_isScalar (scalar p param)
      have fitting : v.IntFits := by
        rcases given with null | ⟨x, keyword⟩
        · subst null; trivial
        · exact fits x v keyword
      exact ⟨w, Yields.pure_inv stored, t, scalarOf,
        coerce_settles scalarOf fitting (Yields.adapt_inv coerced)⟩

/-- Binding the settled fields of scalar parameters to their constructor stores them as they
are. -/
theorem invoke_returns {n : Nat} {ctor : Constructor} {owner : String}
    {cells : List (Property × Value)} (noCatchAll : ctor.catchAll = none)
    (params : cells.map (·.1) = ctor.params) (distinct : (ctor.params.map (·.name)).Nodup)
    (settled : ∀ cell ∈ cells, cell.1.Settles cell.2) :
    Returns (r.invoke (n + 2) ctor { keyword := Property.fields cells } [] owner)
      (Property.fields cells) := by
  have cellsDistinct := Property.names_nodup params distinct
  have named : List.Forall₂ (fun p e => e.1 = p.name) ctor.params (Property.fields cells) := by
    rw [← params, Property.fields, List.forall₂_map_left_iff, List.forall₂_map_right_iff]
    exact List.forall₂_same.mpr fun _ _ => rfl
  simp only [invoke, noCatchAll]
  refine Returns.bind (Returns.ofExcept (Constructor.bind_keywords named distinct)) ?_
  refine Returns.bind ?_ (Returns.pure _)
  rw [← params]
  refine Returns.foldlM_cells (fun cell member acc => ?_) cellsDistinct [] (by simp)
  obtain ⟨t, scalarOf, settledAs⟩ := settled cell member
  dsimp only
  rw [Property.lookup_fields cellsDistinct member]
  exact Returns.map (Returns.adapt (coerce_keeps scalarOf settledAs))

/-- The attribute name of a parameter's external name, whatever the special names. -/
theorem internalName_param {c : Composite} {ctor : Constructor} (sound : r.Sound)
    (present : c ∈ r.composites) (flat : c.FlatRecord ctor) {p : Property}
    (param : p ∈ ctor.params) (vocab : Vocabulary) :
    (r.internalName vocab c.name p.externalName).1 = p.name := by
  obtain ⟨q, found, named⟩ := flat.findExternal_eq param
  simp [internalName, sound.composite_eq present, Composite.internalName, found, named]

/-- The external name of a parameter, whatever the special names. -/
theorem externalName_param {c : Composite} {ctor : Constructor} (sound : r.Sound)
    (present : c ∈ r.composites) (flat : c.FlatRecord ctor) {p : Property}
    (param : p ∈ ctor.params) (vocab : Vocabulary) :
    r.externalName vocab c.name p.name = p.externalName := by
  obtain ⟨q, found, external⟩ := flat.property?_eq param
  simp [externalName, sound.composite_eq present, Composite.externalName, found, external]

/-- Turning data keys into attribute names keeps the values and gives each key the attribute
name of some special names. -/
theorem internalKeys_eq (name : String) (raw : List (String × Value)) (vocab : Vocabulary) :
    ∃ keyed, ((r.internalKeys name raw).run vocab).1 = Value.collect keyed ∧
      List.Forall₂ (fun e k => k.2 = e.2 ∧ ∃ vocab', (r.internalName vocab' name e.1).1 = k.1)
        raw keyed :=
  ⟨_, rfl, stateM_mapM_forall₂ _ (fun _ vocab => ⟨rfl, vocab, rfl⟩) raw vocab⟩

/-- Data keyed by external names whose attribute names are known turns into the fields. -/
theorem fields_of_data {name : String} :
    ∀ {cells : List (Property × Value)} {keyed : List (String × Value)},
      (∀ cell ∈ cells, ∀ vocab,
        (r.internalName vocab name cell.1.externalName).1 = cell.1.name) →
      List.Forall₂ (fun e k => k.2 = e.2 ∧ ∃ vocab', (r.internalName vocab' name e.1).1 = k.1)
        (Property.data cells) keyed → keyed = Property.fields cells
  | [], [], _, _ => rfl
  | cell :: cells, k :: keyed, named, .cons ⟨value, vocab', key⟩ rest => by
    have later := fields_of_data (fun cell' member => named cell' (List.mem_cons_of_mem _ member))
      rest
    rw [named cell List.mem_cons_self vocab'] at key
    simp only [Property.fields, List.map_cons, later]
    rw [show k = (cell.1.name, cell.2) from Prod.ext key.symm value]

/-- The external names of the parameters of a flat record turn back into their attribute
names. -/
theorem internalKeys_data {c : Composite} {ctor : Constructor} (sound : r.Sound)
    (present : c ∈ r.composites) (flat : c.FlatRecord ctor) {cells : List (Property × Value)}
    (params : cells.map (·.1) = ctor.params) (vocab : Vocabulary) :
    ((r.internalKeys c.name (Property.data cells)).run vocab).1 = Property.fields cells := by
  obtain ⟨keyed, collected, related⟩ :=
    internalKeys_eq (r := r) c.name (Property.data cells) vocab
  rw [collected, fields_of_data (fun cell member => internalName_param sound present flat
    (params ▸ List.mem_map_of_mem member)) related]
  refine Value.collect_of_nodup ?_
  rw [Property.keys_fields]
  exact Property.names_nodup params flat.paramsDistinct

theorem castDepth_ge (v : Value) : 32 ≤ r.castDepth v := by
  unfold castDepth
  exact Nat.mul_le_mul (Nat.le_add_left 2 _) (Nat.le_add_left 16 _)

/-- Loading JSON data as a flat record gives an instance with one settled field per
parameter. -/
theorem fromDict_settles {c : Composite} {ctor : Constructor} (flat : c.FlatRecord ctor)
    {data : Json} {o : Value} (yields : Yields (r.fromDict c (Value.ofJson data)) o) :
    ∃ cells : List (Property × Value), cells.map (·.1) = ctor.params ∧
      o = .object c.name (Property.fields cells) ∧ ∀ cell ∈ cells, cell.1.Settles cell.2 := by
  cases data
  case obj members =>
    simp only [Value.ofJson, fromDict] at yields
    obtain ⟨n, deep⟩ : ∃ n, r.castDepth (.map (Value.ofJsonMembers members)) = n + 3 :=
      ⟨_, (Nat.sub_add_cancel (Nat.le_trans (by decide) (castDepth_ge _))).symm⟩
    rw [deep, fromMap] at yields
    obtain ⟨keyword, keying, building⟩ := Yields.bind_inv yields
    obtain ⟨fields, constructing, made⟩ := Yields.bind_inv building
    rw [Yields.pure_inv made]
    obtain ⟨vocab, keyed⟩ := Yields.lift_inv keying
    rw [construct] at constructing
    have running := Yields.adapt_inv constructing
    rw [flat.direct, runInitializer] at running
    -- the values bound come from the data, whose integers are in range
    have fits : ∀ x v, (x, v) ∈ keyword → v.IntFits := by
      intro x v member
      obtain ⟨keyed', collected, related⟩ := internalKeys_eq (r := r) c.name _ vocab
      rw [← keyed, collected] at member
      obtain ⟨e, entry, same, -⟩ :=
        Compiler.forall₂_mem_right related (Value.mem_collect member)
      rw [Value.ofJsonMembers_eq] at entry
      obtain ⟨m, -, rfl⟩ := List.mem_map.mp entry
      have read : v = Value.ofJson m.2 := same
      rw [read]
      exact Value.intFits_ofJson _
    obtain ⟨cells, params, rfl, settled⟩ :=
      invoke_settles flat.noCatchAll flat.scalar flat.paramsDistinct fits running
    exact ⟨cells, params, rfl, settled⟩
  case int n =>
    simp only [Value.ofJson] at yields
    split at yields <;> (simp only [fromDict] at yields; exact (Yields.throw_inv yields).elim)
  all_goals simp only [Value.ofJson, fromDict] at yields; exact (Yields.throw_inv yields).elim

/-- Loading the data of settled fields as their flat record gives them back. -/
theorem fromDict_returns {c : Composite} {ctor : Constructor} (sound : r.Sound)
    (present : c ∈ r.composites) (flat : c.FlatRecord ctor) {cells : List (Property × Value)}
    (params : cells.map (·.1) = ctor.params)
    (settled : ∀ cell ∈ cells, cell.1.Settles cell.2) :
    Returns (r.fromDict c (.map (Property.data cells)))
      (.object c.name (Property.fields cells)) := by
  obtain ⟨n, deep⟩ : ∃ n, r.castDepth (.map (Property.data cells)) = n + 5 :=
    ⟨_, (Nat.sub_add_cancel (Nat.le_trans (by decide) (castDepth_ge _))).symm⟩
  simp only [fromDict]
  rw [deep, fromMap]
  refine Returns.bind (Returns.lift (internalKeys_data sound present flat params)) ?_
  refine Returns.bind ?_ (Returns.pure _)
  rw [construct]
  refine Returns.adapt ?_
  rw [flat.direct, runInitializer]
  exact invoke_returns flat.noCatchAll params flat.paramsDistinct settled

/-- The JSON of a flat record's instance holds each field under its external name, so it reads
back as the record's data. -/
theorem valueJson_reads_back {c : Composite} {ctor : Constructor} (sound : r.Sound)
    (present : c ∈ r.composites) (flat : c.FlatRecord ctor) {cells : List (Property × Value)}
    (params : cells.map (·.1) = ctor.params) (settled : ∀ cell ∈ cells, cell.1.Settles cell.2)
    {vocab : Vocabulary} {j : Json}
    (written : r.valueJson vocab (.object c.name (Property.fields cells)) = .ok j) :
    Value.ofJson j = .map (Property.data cells) := by
  simp only [valueJson, Value.toJson] at written
  obtain ⟨members, wrote, made⟩ := Compiling.except_bind_ok written
  cases made
  have keys :
      ∀ cell ∈ cells, r.externalNames vocab c.name cell.1.name = cell.1.externalName :=
    fun cell member =>
      externalName_param sound present flat (params ▸ List.mem_map_of_mem member) vocab
  have distinctExternal :
      (([] : List (String × Json)).map (·.1) ++ cells.map (·.1.externalName)).Nodup := by
    have := flat.paramsDistinctExternal
    rw [← params] at this
    simpa [List.map_map, Function.comp_def] using this
  obtain ⟨written', rfl, related⟩ := Value.jsonFields_cells keys distinctExternal wrote
  simp only [Value.ofJson, Value.ofJsonMembers_eq]
  rw [Value.data_of_written related fun cell member => (settled cell member).choose_spec.2.1]

/-- The JSON of a flat record's instance does not depend on the special names. -/
theorem valueJson_flat {c : Composite} {ctor : Constructor} (sound : r.Sound)
    (present : c ∈ r.composites) (flat : c.FlatRecord ctor) {cells : List (Property × Value)}
    (params : cells.map (·.1) = ctor.params) (settled : ∀ cell ∈ cells, cell.1.Settles cell.2)
    (vocab vocab' : Vocabulary) :
    r.valueJson vocab (.object c.name (Property.fields cells)) =
      r.valueJson vocab' (.object c.name (Property.fields cells)) := by
  have keys : ∀ e ∈ Property.fields cells, r.externalNames vocab c.name e.1 =
      r.externalNames vocab' c.name e.1 := by
    intro e member
    obtain ⟨cell, inCells, rfl⟩ := List.mem_map.mp member
    have param : cell.1 ∈ ctor.params := params ▸ List.mem_map_of_mem inCells
    simp only [externalNames, externalName_param sound present flat param]
  have scalars : ∀ e ∈ Property.fields cells, e.2.Scalar := by
    intro e member
    obtain ⟨cell, inCells, rfl⟩ := List.mem_map.mp member
    obtain ⟨t, -, settledAs⟩ := settled cell inCells
    exact settledAs.1
  simp only [valueJson, Value.toJson]
  rw [Value.jsonFields_congr _ [] keys scalars]

end Registry

end SchemaTypes
