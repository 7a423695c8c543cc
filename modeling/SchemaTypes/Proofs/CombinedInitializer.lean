import SchemaTypes.Proofs.SteadyLoads
import SchemaTypes.Proofs.PropertyTables

/-! # Combined initializers and the flat constructor

A type with several parents binds arguments against its merged table once and then runs the
initializer of each parent in turn, on the bound values of the parameters that parent declares
and, when the parent has a catch-all, on the extra keywords. All parents write into one list of
fields, a later parent overwriting what an earlier one stored under the same name. The type's
own table holds, for each name, the property of the last parent that declares it, and the
catch-all of the last parent that has one; so the last writer of each name is the parent whose
property the table holds. What the combined run stores is then what the flat constructor over
the table stores (`Registry.Merges`, `Registry.Stores`), provided each coercion gives the same
value in both runs, which holds of plain arguments (`Registry.steady`).

The converse does not hold. Each parent coerces the bound values again with its own
properties, and a parent whose property is stricter than the one the table keeps refuses a
value that the flat constructor takes (`stricter_parent_refuses`).
-/

namespace SchemaTypes

/-! ## Tables set by name -/

namespace Composite

theorem mem_setProperty_named {ps : List Property} {p q : Property}
    (member : q ∈ setProperty ps p) : q = p ∨ (q ∈ ps ∧ q.name ≠ p.name) := by
  unfold setProperty at member
  split at member
  · obtain ⟨x, old, same⟩ := List.mem_map.mp member
    split at same
    · exact .inl same.symm
    · next differs =>
      subst same
      exact .inr ⟨old, by simpa using differs⟩
  · next absent =>
    rcases List.mem_append.mp member with old | new
    · refine .inr ⟨old, fun named => absent ?_⟩
      exact List.any_eq_true.mpr ⟨q, old, by simp [named]⟩
    · exact .inl (List.mem_singleton.mp new)

/-- Setting a property by name adds its name unless it is there already. -/
theorem names_setProperty (ps : List Property) (p : Property) :
    (setProperty ps p).map (·.name) =
      if p.name ∈ ps.map (·.name) then ps.map (·.name) else ps.map (·.name) ++ [p.name] := by
  unfold setProperty
  by_cases present : ps.any (·.name == p.name) = true
  · have named : p.name ∈ ps.map (·.name) := by
      obtain ⟨q, member, same⟩ := List.any_eq_true.mp present
      exact List.mem_map.mpr ⟨q, member, by simpa using same⟩
    rw [if_pos present, if_pos named, List.map_map]
    congr 1
    funext q
    by_cases hit : q.name = p.name <;> simp [hit]
  · have named : p.name ∉ ps.map (·.name) := by
      intro member
      obtain ⟨q, member, same⟩ := List.mem_map.mp member
      exact present (List.any_eq_true.mpr ⟨q, member, by simp [same]⟩)
    rw [if_neg present, if_neg named, List.map_append]
    rfl

theorem mem_names_setProperty {ps : List Property} {p : Property} {x : String} :
    x ∈ (setProperty ps p).map (·.name) ↔ x ∈ ps.map (·.name) ∨ x = p.name := by
  rw [names_setProperty]
  split
  · next named =>
    exact ⟨.inl, fun member => member.elim id fun same => same ▸ named⟩
  · simp

theorem nodup_names_setProperty {ps : List Property} (p : Property)
    (distinct : (ps.map (·.name)).Nodup) : ((setProperty ps p).map (·.name)).Nodup := by
  rw [names_setProperty]
  split
  · exact distinct
  · next fresh => exact List.nodup_append.mpr ⟨distinct, by simp, by simpa using fresh⟩

/-- A property of a table set from `added` after `acc` is one of `added`, or one of `acc`
whose name none of `added` has. -/
theorem mem_foldl_setProperty_named {q : Property} :
    ∀ {acc added : List Property}, q ∈ added.foldl setProperty acc →
      q ∈ added ∨ (q ∈ acc ∧ q.name ∉ added.map (·.name))
  | acc, [], member => .inr ⟨member, by simp⟩
  | acc, p :: added, member => by
    rw [List.foldl_cons] at member
    rcases mem_foldl_setProperty_named member with later | ⟨inner, notLater⟩
    · exact .inl (List.mem_cons_of_mem _ later)
    · rcases mem_setProperty_named inner with rfl | ⟨old, differs⟩
      · exact .inl List.mem_cons_self
      · refine .inr ⟨old, ?_⟩
        rw [List.map_cons, List.mem_cons]
        exact fun named => named.elim differs notLater

theorem mem_names_foldl_setProperty {x : String} :
    ∀ {acc added : List Property},
      x ∈ (added.foldl setProperty acc).map (·.name) ↔
        x ∈ acc.map (·.name) ∨ x ∈ added.map (·.name)
  | acc, [] => by simp
  | acc, p :: added => by
    rw [List.foldl_cons, mem_names_foldl_setProperty, mem_names_setProperty, List.map_cons,
      List.mem_cons]
    tauto

theorem nodup_names_foldl_setProperty :
    ∀ {acc added : List Property}, (acc.map (·.name)).Nodup →
      ((added.foldl setProperty acc).map (·.name)).Nodup
  | _, [], distinct => distinct
  | acc, p :: added, distinct => by
    rw [List.foldl_cons]
    exact nodup_names_foldl_setProperty (nodup_names_setProperty p distinct)

end Composite

/-! ## Fields set by name -/

theorem Value.lookup_setEntry (entries : List (String × Value)) (key x : String) (v : Value) :
    Value.lookup (Value.setEntry entries key v) x =
      if x = key then some v else Value.lookup entries x := by
  unfold Value.setEntry Value.lookup
  split
  · next present =>
    rw [List.find?_map]
    have keyed : ((fun e : String × Value => e.1 == x) ∘
        fun e => if e.1 == key then (key, v) else e) = fun e => e.1 == x := by
      funext e
      by_cases hit : e.1 = key <;> simp [hit]
    rw [keyed]
    split
    · next same =>
      subst same
      obtain ⟨e, found⟩ :=
        Option.isSome_iff_exists.mp (List.find?_isSome.mpr (List.any_eq_true.mp present))
      have hit : e.1 = x := by simpa using List.find?_some found
      simp [found, hit]
    · next differs =>
      cases found : entries.find? (·.1 == x) with
      | none => rfl
      | some e =>
        have hit : e.1 = x := by simpa using List.find?_some found
        simp [hit, differs]
  · next absent =>
    rw [List.find?_append]
    split
    · next same =>
      subst same
      have missing : entries.find? (·.1 == x) = none :=
        List.find?_eq_none.mpr fun e member hit => absent (List.any_eq_true.mpr ⟨e, member, hit⟩)
      simp [missing]
    · next differs =>
      cases entries.find? (·.1 == x) with
      | none => simp [Ne.symm differs]
      | some e => rfl

theorem Value.keys_setEntry (entries : List (String × Value)) (key : String) (v : Value) :
    (Value.setEntry entries key v).map (·.1) =
      if entries.any (·.1 == key) then entries.map (·.1) else entries.map (·.1) ++ [key] := by
  unfold Value.setEntry
  split
  · rw [List.map_map]
    congr 1
    funext e
    by_cases hit : e.1 = key <;> simp [hit]
  · simp

theorem Value.nodup_keys_setEntry {entries : List (String × Value)} (key : String) (v : Value)
    (distinct : (entries.map (·.1)).Nodup) : ((Value.setEntry entries key v).map (·.1)).Nodup := by
  rw [Value.keys_setEntry]
  split
  · exact distinct
  · next absent =>
    refine List.nodup_append.mpr ⟨distinct, by simp, ?_⟩
    intro x member y same
    rw [List.mem_singleton.mp same]
    obtain ⟨e, present, rfl⟩ := List.mem_map.mp member
    exact fun hit => absent (List.any_eq_true.mpr ⟨e, present, by simp [hit]⟩)

theorem Value.lookup_of_mem {entries : List (String × Value)} {key : String} {v : Value}
    (member : (key, v) ∈ entries) : ∃ w, Value.lookup entries key = some w := by
  unfold Value.lookup
  have present : (entries.find? (·.1 == key)).isSome :=
    List.find?_isSome.mpr ⟨(key, v), member, beq_self_eq_true key⟩
  obtain ⟨e, found⟩ := Option.isSome_iff_exists.mp present
  exact ⟨e.2, by rw [found]; rfl⟩

section Setting

variable {γ : Type} {k : γ → String} {v : γ → Value}

/-- Setting one field per item, items with distinct keys: each key holds its item's value and
the other names keep theirs. -/
theorem lookup_foldl_setEntry :
    ∀ {xs : List γ} {a : List (String × Value)}, (xs.map k).Nodup →
      (∀ x ∈ xs, Value.lookup (xs.foldl (fun acc x => Value.setEntry acc (k x) (v x)) a)
        (k x) = some (v x)) ∧
      ∀ y, y ∉ xs.map k →
        Value.lookup (xs.foldl (fun acc x => Value.setEntry acc (k x) (v x)) a) y =
          Value.lookup a y
  | [], _, _ => ⟨by simp, fun _ _ => rfl⟩
  | x :: xs, acc, distinct => by
    obtain ⟨fresh, restDistinct⟩ := List.nodup_cons.mp distinct
    obtain ⟨later, others⟩ := lookup_foldl_setEntry (a := Value.setEntry acc (k x) (v x))
      restDistinct
    refine ⟨fun y member => ?_, fun y absent => ?_⟩
    · rcases List.mem_cons.mp member with rfl | inner
      · rw [List.foldl_cons, others _ fresh, Value.lookup_setEntry, if_pos rfl]
      · exact later y inner
    · rw [List.map_cons, List.mem_cons, not_or] at absent
      rw [List.foldl_cons, others y absent.2, Value.lookup_setEntry, if_neg absent.1]

end Setting

/-! ## Successful bindings -/

namespace Constructor

/-- The extras sorted out have distinct names. -/
theorem sortKeywords_extra_nodup {c : Constructor} :
    ∀ {given extra keywords given' extra' : List (String × Value)},
      c.sortKeywords given extra keywords = .ok (given', extra') →
      (extra.map (·.1)).Nodup → (extra'.map (·.1)).Nodup
  | _, _, [], _, _, sorted, distinct => by cases sorted; exact distinct
  | given, extra, (name, v) :: rest, given', extra', sorted, distinct => by
    unfold sortKeywords at sorted
    split at sorted
    · split at sorted
      · cases sorted
      · exact sortKeywords_extra_nodup sorted distinct
    · split at sorted
      · exact sortKeywords_extra_nodup sorted (Value.nodup_keys_setEntry name v distinct)
      · cases sorted

/-- A successful binding gives every parameter a value, under the parameters' names in their
order. -/
theorem bind_params {c : Constructor} {args : Arguments} {bound : Bound}
    (bound_ok : c.bind args = .ok bound) :
    (∀ p ∈ c.params, ∃ v, Value.lookup bound.declared p.name = some v) ∧
      List.Sublist (bound.declared.map (·.1)) (c.params.map (·.name)) := by
  unfold bind at bound_ok
  split at bound_ok
  · cases bound_ok
  obtain ⟨⟨given, extra⟩, -, rest⟩ := Compiling.except_bind_ok bound_ok
  dsimp only at rest
  split at rest
  · next missing =>
    cases rest
    -- every value bound is keyed by its parameter's name
    have keyed : ∀ (ps : List Property) (F : Property → Option (String × Value)),
        (∀ p e, F p = some e → e.1 = p.name) →
        List.Sublist ((ps.filterMap F).map (·.1)) (ps.map (·.name)) := by
      intro ps F named
      induction ps with
      | nil => exact .slnil
      | cons p ps inductionHypothesis =>
        rw [List.filterMap_cons]
        cases mapped : F p with
        | none => exact inductionHypothesis.cons _
        | some e =>
          rw [List.map_cons, List.map_cons, named p e mapped]
          exact inductionHypothesis.cons_cons _
    refine ⟨fun p param => ?_, keyed _ _ fun q e mapped => ?_⟩
    · have notMissing := List.filter_eq_nil_iff.mp missing p param
      cases givenValue : Value.lookup given p.name with
      | some v =>
        exact Value.lookup_of_mem (v := v) (List.mem_filterMap.mpr ⟨p, param, by simp [givenValue]⟩)
      | none =>
        cases isDefault : p.default with
        | required => simp [givenValue, isDefault] at notMissing
        | value d =>
          exact Value.lookup_of_mem (v := d) (List.mem_filterMap.mpr ⟨p, param,
            by simp [givenValue, isDefault]⟩)
    · split at mapped <;> first | (cases mapped; rfl) | cases mapped
  · cases rest

/-- The extras of a successful binding have distinct names, none of them a parameter's. -/
theorem bind_extra {c : Constructor} {args : Arguments} {bound : Bound}
    (bound_ok : c.bind args = .ok bound) :
    (∀ e ∈ bound.extra, c.declares e.1 = false) ∧ (bound.extra.map (·.1)).Nodup := by
  unfold bind at bound_ok
  split at bound_ok
  · cases bound_ok
  obtain ⟨⟨given, extra⟩, sorted, rest⟩ := Compiling.except_bind_ok bound_ok
  dsimp only at rest
  split at rest
  · cases rest
    refine ⟨fun e member => ?_, sortKeywords_extra_nodup sorted (by simp)⟩
    rcases sortKeywords_extra sorted e member with none | ⟨-, undeclared⟩
    · cases none
    · exact undeclared
  · cases rest

theorem declares_iff {c : Constructor} {x : String} :
    c.declares x = true ↔ x ∈ c.params.map (·.name) := by
  simp [declares, param?, List.find?_isSome]

theorem declares_of_mem {c : Constructor} {p : Property} (param : p ∈ c.params) :
    c.declares p.name = true :=
  declares_iff.mpr (List.mem_map_of_mem param)

/-- No extra keyword of a successful binding has a parameter's name. -/
theorem bind_not_extra {c : Constructor} {args : Arguments} {bound : Bound}
    (bound_ok : c.bind args = .ok bound) {x : String} (named : c.declares x = true) :
    x ∉ bound.extra.map (·.1) := by
  intro extra
  obtain ⟨e, member, rfl⟩ := List.mem_map.mp extra
  rw [(bind_extra bound_ok).1 e member] at named
  cases named

/-- Binding the kept bound values of a parent's parameters, and the extra keywords when the
parent takes them, gives every parameter of the parent the value bound before and passes the
extras on as they are. -/
theorem bind_collected {psig : Constructor} {bound pb : Bound} {keep : String × Value → Bool}
    (keeps : ∀ e, keep e = psig.declares e.1)
    (distinct : (psig.params.map (·.name)).Nodup)
    (declaredKeys : (bound.declared.map (·.1)).Nodup)
    (extraKeys : (bound.extra.map (·.1)).Nodup)
    (extraUndeclared : ∀ e ∈ bound.extra, psig.declares e.1 = false)
    (extraApart : ∀ e ∈ bound.extra, e.1 ∉ bound.declared.map (·.1))
    (covered : ∀ p ∈ psig.params, ∃ v, Value.lookup bound.declared p.name = some v)
    (bound_ok : psig.bind { keyword := Value.collect (bound.declared.filter keep ++
      if psig.acceptsExtra then bound.extra else []) } = .ok pb) :
    (∀ p ∈ psig.params, Value.lookup pb.declared p.name = Value.lookup bound.declared p.name) ∧
      (psig.acceptsExtra = true → pb.extra = bound.extra) := by
  have kept : keep = fun e => psig.declares e.1 := funext keeps
  subst kept
  have extraPartKeys : ((if psig.acceptsExtra then bound.extra else []).map (·.1)).Nodup := by
    split
    · exact extraKeys
    · exact List.nodup_nil
  have extraPartMem : ∀ e ∈ (if psig.acceptsExtra then bound.extra else []), e ∈ bound.extra := by
    split
    · exact fun _ member => member
    · exact fun _ member => by cases member
  -- the keywords have distinct names, so they are bound as given
  have keysDistinct : ((bound.declared.filter (fun e => psig.declares e.1) ++
      if psig.acceptsExtra then bound.extra else []).map (·.1)).Nodup := by
    rw [List.map_append]
    refine List.nodup_append.mpr ⟨(List.filter_sublist.map _).nodup declaredKeys, extraPartKeys,
      fun x declared y extra same => ?_⟩
    obtain ⟨e, member, rfl⟩ := List.mem_map.mp extra
    subst same
    exact extraApart e (extraPartMem e member) ((List.filter_sublist.map _).subset declared)
  rw [Value.collect_of_nodup keysDistinct, psig.bind_eq_bindSpec _ distinct keysDistinct] at bound_ok
  have shape := psig.bindSpec_ok _ bound_ok
  subst shape
  constructor
  · intro p param
    obtain ⟨v, found⟩ := covered p param
    have named : psig.declares p.name = true := declares_iff.mpr (List.mem_map_of_mem param)
    -- with no positional values, a parameter receives the keyword of its name
    set keywords := bound.declared.filter (fun e => psig.declares e.1) ++
      if psig.acceptsExtra then bound.extra else []
    have computes : ∀ q ∈ psig.params.zipIdx,
        (fun p : Property => ((Value.lookup keywords p.name).or p.default.value?).map
          (p.name, ·)) q.1 =
        (Arguments.boundValue { keyword := keywords } q.2 q.1).map (q.1.name, ·) := by
      intro q _
      simp [Arguments.boundValue, Arguments.received]
    show Value.lookup (psig.boundParams _) p.name = _
    rw [← psig.filterMap_params _ (F := fun p : Property =>
      ((Value.lookup keywords p.name).or p.default.value?).map (p.name, ·)) computes, found]
    refine Value.lookup_filterMap (fun q _ e mapped => ?_) distinct param ?_
    · obtain ⟨w, -, rfl⟩ := Option.map_eq_some_iff.mp mapped
      rfl
    · rw [Value.lookup_append, lookup_declared psig named, found]
      rfl
  · intro accepts
    show psig.undeclared _ = bound.extra
    unfold undeclared
    rw [if_pos accepts, List.filter_append]
    have none : (bound.declared.filter (fun e => psig.declares e.1)).filter
        (fun kw => !psig.declares kw.1) = [] :=
      List.filter_eq_nil_iff.mpr fun e member => by simp [(List.mem_filter.mp member).2]
    have all : bound.extra.filter (fun kw => !psig.declares kw.1) = bound.extra :=
      List.filter_eq_self.mpr fun e member => by simp [extraUndeclared e member]
    rw [none, all, List.nil_append]

end Constructor

/-! ## What a run stores -/

/-- A loop whose every step sets its item's key to a value that `S` allows, the items having
distinct keys: each key ends with such a value, and every other name keeps its value. -/
theorem YieldsAbove.foldlM_sets {γ : Type} {base : Vocabulary} {k : γ → String}
    {S : γ → Value → Prop} {f : List (String × Value) → γ → Loading (List (String × Value))}
    (grows : ∀ acc x, Widens (f acc x)) :
    ∀ {xs : List γ} {acc result : List (String × Value)},
      (∀ x ∈ xs, ∀ acc acc', YieldsAbove base (f acc x) acc' →
        ∃ w, acc' = Value.setEntry acc (k x) w ∧ S x w) →
      (xs.map k).Nodup → YieldsAbove base (xs.foldlM f acc) result →
      (∀ x ∈ xs, ∃ w, Value.lookup result (k x) = some w ∧ S x w) ∧
        ∀ y, y ∉ xs.map k → Value.lookup result y = Value.lookup acc y
  | [], acc, result, _, _, yields => by
    rw [List.foldlM_nil] at yields
    rw [Yields.pure_inv yields.yields]
    exact ⟨by simp, fun _ _ => rfl⟩
  | x :: xs, acc, result, step, distinct, yields => by
    rw [List.foldlM_cons] at yields
    obtain ⟨acc', first, rest⟩ := YieldsAbove.bind_inv (grows acc x) yields
    obtain ⟨w, rfl, allowed⟩ := step x List.mem_cons_self acc acc' first
    obtain ⟨fresh, restDistinct⟩ := List.nodup_cons.mp distinct
    obtain ⟨later, others⟩ :=
      foldlM_sets grows (fun y member => step y (List.mem_cons_of_mem _ member)) restDistinct rest
    refine ⟨fun y member => ?_, fun y absent => ?_⟩
    · rcases List.mem_cons.mp member with rfl | inner
      · exact ⟨w, by rw [others _ fresh, Value.lookup_setEntry, if_pos rfl], allowed⟩
      · exact later y inner
    · rw [List.map_cons, List.mem_cons, not_or] at absent
      rw [others y absent.2, Value.lookup_setEntry, if_neg absent.1]

namespace Registry

/-- What a run of an initializer with parameters `params` and catch-all `catchAll` leaves in
`result` after `fields`, for arguments bound as `bound`: under each parameter a value that
coercing its bound value with the parameter yields, under each extra keyword, when there is a
catch-all, a value that coercing the keyword's value with the catch-all yields, and under every
other name what `fields` has. The coercions run from special names above `base`, at bounds at
least two below `fuel`. -/
structure Stores (r : Registry) (base : Vocabulary) (fuel : Nat) (params : List Property)
    (catchAll : Option CatchAll) (bound : Bound) (fields result : List (String × Value)) :
    Prop where
  param : ∀ p ∈ params, ∃ v w m, Value.lookup bound.declared p.name = some v ∧
    Value.lookup result p.name = some w ∧ m + 2 ≤ fuel ∧
    YieldsAbove base (r.coerce m p.name p.constraint p.caster v) w
  extra : ∀ ca, catchAll = some ca → ∀ e ∈ bound.extra, ∃ w m,
    Value.lookup result e.1 = some w ∧ m + 2 ≤ fuel ∧
    YieldsAbove base (r.coerce m e.1 ca.constraint ca.caster e.2) w
  other : ∀ x, x ∉ params.map (·.name) → (catchAll = none ∨ x ∉ bound.extra.map (·.1)) →
    Value.lookup result x = Value.lookup fields x

namespace Stores

variable {r : Registry} {base : Vocabulary} {fuel : Nat} {params : List Property}
  {catchAll : Option CatchAll} {bound : Bound} {fields result : List (String × Value)}

theorem nothing (fields : List (String × Value)) :
    Stores r base fuel [] none bound fields fields where
  param _ member := by cases member
  extra _ given := by cases given
  other _ _ _ := rfl

theorem mono {fuel' : Nat} (stored : Stores r base fuel params catchAll bound fields result)
    (more : fuel ≤ fuel') : Stores r base fuel' params catchAll bound fields result where
  param p member := by
    obtain ⟨v, w, m, found, kept, small, yields⟩ := stored.param p member
    exact ⟨v, w, m, found, kept, by omega, yields⟩
  extra ca given e member := by
    obtain ⟨w, m, kept, small, yields⟩ := stored.extra ca given e member
    exact ⟨w, m, kept, by omega, yields⟩
  other := stored.other

/-- A run over arguments bound as `pb` stores the same as over `bound` when both give every
parameter the same value and, with a catch-all, have the same extras. -/
theorem rebind {pb : Bound} (stored : Stores r base fuel params catchAll pb fields result)
    (declared : ∀ p ∈ params, Value.lookup pb.declared p.name = Value.lookup bound.declared p.name)
    (extra : catchAll.isSome → pb.extra = bound.extra) :
    Stores r base fuel params catchAll bound fields result where
  param p member := by
    obtain ⟨v, w, m, found, rest⟩ := stored.param p member
    exact ⟨v, w, m, declared p member ▸ found, rest⟩
  extra ca given := by
    rw [← extra (by simp [given])]
    exact stored.extra ca given
  other x absent apart := by
    refine stored.other x absent ?_
    cases given : catchAll with
    | none => exact .inl rfl
    | some ca =>
      rw [extra (by simp [given])]
      exact .inr (apart.resolve_left (by simp [given]))

/-- One run after another, the second over the parameters `new` and the catch-all `newCA`,
stores what one run over the table set from `new` after `old` stores, with the second
catch-all if there is one: a name the second run sets is set as it sets it, and every other
name as the first run left it. No parameter may be an extra keyword. -/
theorem merge {old new : List Property} {oldCA newCA : Option CatchAll}
    {start middle : List (String × Value)}
    (before : Stores r base fuel old oldCA bound start middle)
    (after : Stores r base fuel new newCA bound middle result)
    (oldDeclared : ∀ p ∈ old, p.name ∉ bound.extra.map (·.1))
    (newDeclared : ∀ p ∈ new, p.name ∉ bound.extra.map (·.1)) :
    Stores r base fuel (new.foldl Composite.setProperty old) (newCA.or oldCA) bound start
      result where
  param p member := by
    rcases Composite.mem_foldl_setProperty_named member with fresh | ⟨kept, unset⟩
    · exact after.param p fresh
    · obtain ⟨v, w, m, found, stored, rest⟩ := before.param p kept
      exact ⟨v, w, m, found,
        by rw [after.other p.name unset (.inr (oldDeclared p kept))]; exact stored, rest⟩
  extra ca given e member := by
    cases newGiven : newCA with
    | some ca' =>
      rw [newGiven, Option.some_or] at given
      cases given
      exact after.extra _ newGiven e member
    | none =>
      rw [newGiven, Option.none_or] at given
      obtain ⟨w, m, stored, rest⟩ := before.extra ca given e member
      have notNew : e.1 ∉ new.map (·.name) := fun named => by
        obtain ⟨p, param, same⟩ := List.mem_map.mp named
        exact newDeclared p param (by rw [same]; exact List.mem_map_of_mem member)
      exact ⟨w, m, by rw [after.other e.1 notNew (.inl newGiven)]; exact stored, rest⟩
  other x absent apart := by
    rw [Composite.mem_names_foldl_setProperty, not_or] at absent
    have split : (newCA = none ∧ oldCA = none) ∨ x ∉ bound.extra.map (·.1) := by
      rcases apart with none | notExtra
      · exact .inl (Option.or_eq_none_iff.mp none)
      · exact .inr notExtra
    rw [after.other x absent.2 (split.imp And.left id),
      before.other x absent.1 (split.imp And.right id)]

end Stores

variable {r : Registry} {base : Vocabulary}

/-- A run of a constructor whose parameters have distinct names binds the arguments and
stores what `Stores` describes. -/
theorem invoke_stores {k : Nat} {ctor : Constructor} {args : Arguments}
    {fields result : List (String × Value)} {owner : String}
    (distinct : (ctor.params.map (·.name)).Nodup)
    (yields : YieldsAbove base (r.invoke (k + 1) ctor args fields owner) result) :
    ∃ bound, ctor.bind args = .ok bound ∧
      Stores r base (k + 2) ctor.params ctor.catchAll bound fields result := by
  simp only [invoke] at yields
  obtain ⟨bound, binding, rest⟩ := YieldsAbove.bind_inv (Widens.ofExcept _) yields
  have bound_ok := Yields.ofExcept_inv binding.yields
  obtain ⟨declares, -⟩ := Constructor.bind_params bound_ok
  have extraDistinct := (Constructor.bind_extra bound_ok).2
  have paramsThenExtras := YieldsAbove.bind_inv (Widens.foldlM (fun _ _ => ?growsParam) _) rest
  case growsParam =>
    split
    · exact Widens.pure _
    · exact Widens.bind (Widens.adapt ((r.widening _).coerce _ _ _ _)) fun _ => Widens.pure _
  obtain ⟨stored, params, extras⟩ := paramsThenExtras
  -- every parameter is bound, so each step coerces its value and sets it
  have paramsSet := YieldsAbove.foldlM_sets (k := (·.name))
    (S := fun p w => ∃ v m, Value.lookup bound.declared p.name = some v ∧ m + 2 ≤ k + 2 ∧
      YieldsAbove base (r.coerce m p.name p.constraint p.caster v) w)
    (fun _ _ => ?growsParam') (fun p param acc acc' step => ?setsParam) distinct params
  case growsParam' =>
    split
    · exact Widens.pure _
    · exact Widens.bind (Widens.adapt ((r.widening _).coerce _ _ _ _)) fun _ => Widens.pure _
  case setsParam =>
    obtain ⟨v, found⟩ := declares p param
    rw [found] at step
    obtain ⟨w, coerced, storedAs⟩ :=
      YieldsAbove.bind_inv (Widens.adapt ((r.widening _).coerce _ _ _ _)) step
    exact ⟨w, Yields.pure_inv storedAs.yields, v, k, found, le_refl _, coerced.adapt_inv⟩
  obtain ⟨paramSet, paramKept⟩ := paramsSet
  refine ⟨bound, bound_ok, ?_⟩
  split at extras
  · next noCatchAll =>
    rw [Yields.pure_inv extras.yields]
    refine ⟨fun p param => ?_, fun ca given => ?_, fun x absent _ => paramKept x absent⟩
    · obtain ⟨w, stored, v, m, found, small, coerced⟩ := paramSet p param
      exact ⟨v, w, m, found, stored, small, coerced⟩
    · rw [noCatchAll] at given
      cases given
  · next ca withCatchAll =>
    -- then every extra keyword is coerced with the catch-all and set
    have extrasSet := YieldsAbove.foldlM_sets (k := (·.1))
      (S := fun e w => ∃ m, m + 2 ≤ k + 2 ∧
        YieldsAbove base (r.coerce m e.1 ca.constraint ca.caster e.2) w)
      (fun _ _ => ?growsExtra) (fun e member acc acc' step => ?setsExtra) extraDistinct extras
    case growsExtra =>
      exact Widens.bind (Widens.lift fun vocab => Vocabulary.Extends.refl vocab) fun _ =>
        Widens.bind (Widens.adapt ((r.widening _).coerce _ _ _ _)) fun _ => Widens.pure _
    case setsExtra =>
      obtain ⟨name, v⟩ := e
      have readFirst := YieldsAbove.bind_inv ?growsRead step
      case growsRead => exact Widens.lift fun vocab => Vocabulary.Extends.refl vocab
      obtain ⟨vocab, -, keyed⟩ := readFirst
      obtain ⟨w, coerced, storedAs⟩ :=
        YieldsAbove.bind_inv (Widens.adapt ((r.widening _).coerce _ _ _ _)) keyed
      exact ⟨w, Yields.pure_inv storedAs.yields, k, le_refl _, coerced.adapt_inv⟩
    obtain ⟨extraSet, extraKept⟩ := extrasSet
    refine ⟨fun p param => ?_, fun ca' given e member => ?_, fun x absent apart => ?_⟩
    · obtain ⟨w, stored, v, m, found, small, coerced⟩ := paramSet p param
      have notExtra := Constructor.bind_not_extra bound_ok (Constructor.declares_of_mem param)
      exact ⟨v, w, m, found, by rw [extraKept _ notExtra]; exact stored, small, coerced⟩
    · rw [withCatchAll] at given
      cases given
      obtain ⟨w, stored, m, small, coerced⟩ := extraSet e member
      exact ⟨w, m, stored, small, coerced⟩
    · have notExtra := apart.resolve_left (by simp [withCatchAll])
      rw [extraKept x notExtra, paramKept x absent]

/-- The initializers whose runs `Stores` describes: a direct one over parameters with distinct
names, and a combined one whose parameters are those of its parents' initializers set in order
by name, whose catch-all is that of the last parent that has one, and whose parents'
initializers are of this kind again. -/
inductive Merges (r : Registry) : Initializer → Prop
  | direct {ctor : Constructor} (distinct : (ctor.params.map (·.name)).Nodup) :
      Merges r (.direct ctor)
  | combined {signature : Constructor} {parents : List String} {ps : List Composite}
      (found : List.Forall₂ (fun q p => r.composite q = .ok p) parents ps)
      (params : signature.params =
        (ps.flatMap (·.initializer.signature.params)).foldl Composite.setProperty [])
      (catchAll : signature.catchAll =
        (ps.filterMap (·.initializer.signature.catchAll)).getLast?)
      (each : ∀ p ∈ ps, Merges r p.initializer) : Merges r (.combined signature parents)

theorem Merges.distinct {i : Initializer} (merges : r.Merges i) :
    (i.signature.params.map (·.name)).Nodup := by
  cases merges with
  | direct distinct => exact distinct
  | combined _ params =>
    simp only [Initializer.signature]
    rw [params]
    exact Composite.nodup_names_foldl_setProperty List.nodup_nil

theorem Merges.renamed {i : Initializer} (merges : r.Merges i) (owner : String) :
    r.Merges (i.renamed owner) := by
  cases merges with
  | direct distinct => exact .direct distinct
  | combined found params catchAll each => exact .combined found params catchAll each

theorem getLast?_filterMap_cons_or {α β : Type} (g : α → Option β) (a : α) (l : List α)
    (o : Option β) :
    ((a :: l).filterMap g).getLast?.or o = (l.filterMap g).getLast?.or ((g a).or o) := by
  rw [List.filterMap_cons]
  cases g a with
  | none => rfl
  | some b =>
    rw [List.getLast?_cons]
    cases (l.filterMap g).getLast? <;> rfl

/-- Running the parents' initializers one after another, each storing over its own table what
`Stores` describes, stores over the table set from all of theirs after `old`, with the
catch-all of the last parent that has one. -/
theorem Stores.foldlM_parents {fuel : Nat} {bound : Bound}
    {step : List (String × Value) → String → Loading (List (String × Value))}
    (grows : ∀ acc q, Widens (step acc q)) :
    ∀ {parents : List String} {ps : List Composite},
      List.Forall₂ (fun q p => r.composite q = .ok p) parents ps →
      (∀ acc q pc after, r.composite q = .ok pc → pc ∈ ps → YieldsAbove base (step acc q) after →
        Stores r base fuel pc.initializer.signature.params pc.initializer.signature.catchAll bound
          acc after) →
      (∀ pc ∈ ps, ∀ p ∈ pc.initializer.signature.params, p.name ∉ bound.extra.map (·.1)) →
      ∀ {old : List Property} {oldCA : Option CatchAll} {start acc result : List (String × Value)},
        Stores r base fuel old oldCA bound start acc →
        (∀ p ∈ old, p.name ∉ bound.extra.map (·.1)) →
        YieldsAbove base (parents.foldlM step acc) result →
        Stores r base fuel
          ((ps.flatMap (·.initializer.signature.params)).foldl Composite.setProperty old)
          ((ps.filterMap (·.initializer.signature.catchAll)).getLast?.or oldCA) bound start result
  | [], [], .nil, _, _, old, oldCA, start, acc, result, before, _, yields => by
    rw [List.foldlM_nil] at yields
    rw [Yields.pure_inv yields.yields]
    exact before
  | q :: parents, pc :: ps, .cons found rest, stores, declared, old, oldCA, start, acc, result,
      before, oldDeclared, yields => by
    rw [List.foldlM_cons] at yields
    obtain ⟨middle, first, later⟩ := YieldsAbove.bind_inv (grows acc q) yields
    have merged := before.merge (stores acc q pc middle found List.mem_cons_self first) oldDeclared
      (declared pc List.mem_cons_self)
    have mergedDeclared : ∀ p ∈ pc.initializer.signature.params.foldl Composite.setProperty old,
        p.name ∉ bound.extra.map (·.1) := by
      intro p member
      rcases Composite.mem_foldl_setProperty_named member with fresh | ⟨kept, -⟩
      · exact declared pc List.mem_cons_self p fresh
      · exact oldDeclared p kept
    have stored := Stores.foldlM_parents grows rest
      (fun acc q pc' after found' member => stores acc q pc' after found' (List.mem_cons_of_mem _ member))
      (fun pc' member => declared pc' (List.mem_cons_of_mem _ member)) merged mergedDeclared later
    rw [List.flatMap_cons, List.foldl_append, getLast?_filterMap_cons_or]
    exact stored

/-- A run of an initializer of the kind `Merges` follows binds the arguments against its
signature and stores, over the signature's parameters and catch-all, what `Stores`
describes. -/
theorem runInitializer_stores {i : Initializer} (merges : r.Merges i) :
    ∀ {n : Nat} {args : Arguments} {fields result : List (String × Value)} {owner : String},
      YieldsAbove base (r.runInitializer n i args fields owner) result →
      ∃ bound, i.signature.bind args = .ok bound ∧
        Stores r base n i.signature.params i.signature.catchAll bound fields result := by
  induction merges with
  | direct distinct =>
    intro n args fields result owner yields
    cases n with
    | zero => rw [runInitializer] at yields; exact (Yields.throw_inv yields.yields).elim
    | succ n =>
      simp only [runInitializer] at yields
      cases n with
      | zero => rw [invoke] at yields; exact (Yields.throw_inv yields.yields).elim
      | succ k => exact invoke_stores distinct yields
  | combined found params catchAll each inductionHypothesis =>
    rename_i signature parents ps
    intro n args fields result owner yields
    cases n with
    | zero => rw [runInitializer] at yields; exact (Yields.throw_inv yields.yields).elim
    | succ k =>
      simp only [runInitializer] at yields
      obtain ⟨bound, binding, running⟩ := YieldsAbove.bind_inv (Widens.ofExcept _) yields
      have bound_ok := Yields.ofExcept_inv binding.yields
      refine ⟨bound, bound_ok, ?_⟩
      obtain ⟨covers, declaredKeys⟩ := Constructor.bind_params bound_ok
      have extraKeys := (Constructor.bind_extra bound_ok).2
      -- every parent's parameter is a parameter of the merged signature, so it is bound and
      -- is no extra keyword
      have merged : ∀ pc ∈ ps, ∀ p ∈ pc.initializer.signature.params,
          signature.declares p.name = true := by
        intro pc member p param
        refine Constructor.declares_iff.mpr ?_
        rw [params, Composite.mem_names_foldl_setProperty]
        exact .inr (List.mem_map_of_mem (List.mem_flatMap.mpr ⟨pc, member, param⟩))
      have notExtra : ∀ x, signature.declares x = true → x ∉ bound.extra.map (·.1) :=
        fun _ named => Constructor.bind_not_extra bound_ok named
      have distinctSignature := (Merges.combined found params catchAll each).distinct
      have stored : Stores r base (k + 1) _ _ bound fields result :=
        Stores.foldlM_parents (fun _ _ => Widens.bind (Widens.ofExcept _) fun _ =>
          (r.widening k).runInitializer _ _ _ _) found ?stores
        (fun pc member p param => notExtra _ (merged pc member p param))
        (Stores.nothing fields) (fun _ member => by cases member) running
      · rw [Option.or_none, ← params, ← catchAll] at stored
        exact stored
      case stores =>
        intro acc q pc after found' member step
        obtain ⟨pc', finding, parentRun⟩ := YieldsAbove.bind_inv (Widens.ofExcept _) step
        have same : r.composite q = .ok pc' := Yields.ofExcept_inv finding.yields
        rw [found'] at same
        cases same
        obtain ⟨pb, pbound, parentStored⟩ := inductionHypothesis pc member parentRun
        -- the parent binds the values bound for its parameters, and the extras when it takes
        -- them
        obtain ⟨declaredSame, extraSame⟩ := Constructor.bind_collected (fun _ => rfl)
          (each pc member).distinct (declaredKeys.nodup distinctSignature) extraKeys
          (fun e extra => by
            cases named : pc.initializer.signature.declares e.1 with
            | false => rfl
            | true =>
              obtain ⟨p, param, same⟩ := List.mem_map.mp (Constructor.declares_iff.mp named)
              exact absurd (List.mem_map_of_mem extra)
                (notExtra _ (same ▸ merged pc member p param)))
          (fun e extra declared => by
            have named := Constructor.declares_iff.mpr (declaredKeys.subset declared)
            exact notExtra _ named (List.mem_map_of_mem extra))
          (fun p param => by
            obtain ⟨p', param', same⟩ :=
              List.mem_map.mp (Constructor.declares_iff.mp (merged pc member p param))
            rw [← same]
            exact covers p' param')
          pbound
        exact (parentStored.rebind declaredSame extraSame).mono (Nat.le_succ k)

/-! ## The flat constructor stores it again -/

/-- What a run described by `Stores` left under a name. -/
def storedValue (result : List (String × Value)) (x : String) : Value :=
  (Value.lookup result x).getD .null

theorem lookup_storedValue {result : List (String × Value)} {x : String} {w : Value}
    (found : Value.lookup result x = some w) :
    some (storedValue result x) = Value.lookup result x := by
  rw [storedValue, found]
  rfl

/-- The flat constructor over the parameters and catch-all of a run described by `Stores`
stores the same again, when each coercion of the run gives its value at every larger bound and
from all special names above `base`: its fields have the same value under every name. -/
theorem invoke_restores (steady : ∀ n, r.Steady n) {k : Nat} {ctor : Constructor}
    {args : Arguments} {bound : Bound} {fields result : List (String × Value)} {o : String}
    (distinct : (ctor.params.map (·.name)).Nodup) (bound_ok : ctor.bind args = .ok bound)
    (plain : Value.PlainEntries bound.declared ∧ Value.PlainEntries bound.extra)
    (stored : Stores r base (k + 2) ctor.params ctor.catchAll bound fields result) :
    ∃ result', (∀ x, Value.lookup result' x = Value.lookup result x) ∧
      ReturnsAbove base (r.invoke (k + 1) ctor args fields o) result' := by
  have extraDistinct := (Constructor.bind_extra bound_ok).2
  -- each parameter's coercion gives again the value the run stored
  have paramReturns : ∀ p ∈ ctor.params, ∃ v, Value.lookup bound.declared p.name = some v ∧
      ReturnsAbove base (r.coerce k p.name p.constraint p.caster v)
        (storedValue result p.name) := by
    intro p param
    obtain ⟨v, w, m, found, storedAs, small, yields⟩ := stored.param p param
    have again := (steady m).coerce k (by omega) base _ _ _ v
      (plain.1 _ (Value.mem_of_lookup found)) w yields
    rw [storedValue, storedAs]
    exact ⟨v, found, again⟩
  obtain ⟨paramsSet, paramsKept⟩ := lookup_foldl_setEntry (k := fun p : Property => p.name)
    (v := fun p => storedValue result p.name) (a := fields) distinct
  -- the fields after the parameters: each parameter's stored value, the rest as given
  have afterParams : ∀ x, x ∈ ctor.params.map (·.name) →
      Value.lookup (ctor.params.foldl (fun acc p =>
        Value.setEntry acc p.name (storedValue result p.name)) fields) x = Value.lookup result x := by
    intro x named
    obtain ⟨p, param, rfl⟩ := List.mem_map.mp named
    obtain ⟨-, w, -, -, storedAs, -⟩ := stored.param p param
    exact (paramsSet p param).trans (lookup_storedValue storedAs)
  obtain ⟨extrasSet, extrasKept⟩ := lookup_foldl_setEntry (k := fun e : String × Value => e.1)
    (v := fun e => storedValue result e.1)
    (a := ctor.params.foldl (fun acc p =>
      Value.setEntry acc p.name (storedValue result p.name)) fields) extraDistinct
  refine ⟨if ctor.catchAll.isSome then
      bound.extra.foldl (fun acc e => Value.setEntry acc e.1 (storedValue result e.1))
        (ctor.params.foldl (fun acc p => Value.setEntry acc p.name (storedValue result p.name))
          fields)
    else ctor.params.foldl (fun acc p => Value.setEntry acc p.name (storedValue result p.name))
      fields, fun x => ?_, ?_⟩
  · cases withCatchAll : ctor.catchAll with
    | none =>
      simp only [Option.isSome_none, Bool.false_eq_true, if_false]
      by_cases named : x ∈ ctor.params.map (·.name)
      · exact afterParams x named
      · exact (paramsKept x named).trans (stored.other x named (.inl withCatchAll)).symm
    | some ca =>
      simp only [Option.isSome_some, if_true]
      by_cases extra : x ∈ bound.extra.map (·.1)
      · obtain ⟨e, member, rfl⟩ := List.mem_map.mp extra
        obtain ⟨w, -, storedAs, -⟩ := stored.extra ca withCatchAll e member
        exact (extrasSet e member).trans (lookup_storedValue storedAs)
      · refine (extrasKept x extra).trans ?_
        by_cases named : x ∈ ctor.params.map (·.name)
        · exact afterParams x named
        · exact (paramsKept x named).trans (stored.other x named (.inr extra)).symm
  · simp only [invoke]
    refine ReturnsAbove.bind (Widens.ofExcept _) (Returns.ofExcept bound_ok).above
      (ReturnsAbove.bind (Widens.foldlM (fun _ _ => ?growsParam) _)
        (ReturnsAbove.foldlM
          (g := fun acc p => Value.setEntry acc p.name (storedValue result p.name))
          (fun _ _ => ?growsParam') (fun acc p param => ?param) fields) ?extras)
    case growsParam | growsParam' =>
      split
      · exact Widens.pure _
      · exact Widens.bind (Widens.adapt ((r.widening _).coerce _ _ _ _)) fun _ => Widens.pure _
    case param =>
      obtain ⟨v, found, again⟩ := paramReturns p param
      simp only [found]
      exact ReturnsAbove.bind (Widens.adapt ((r.widening _).coerce _ _ _ _)) again.adapt
        (Returns.pure _).above
    case extras =>
      cases withCatchAll : ctor.catchAll with
      | none => exact (Returns.pure _).above
      | some ca =>
        -- each extra keyword's coercion with the catch-all gives again the value stored
        refine ReturnsAbove.foldlM (fun _ _ => ?_) (fun acc e member => ?_) _
        · exact Widens.bind (Widens.lift fun vocab => Vocabulary.Extends.refl vocab) fun _ =>
            Widens.bind (Widens.adapt ((r.widening _).coerce _ _ _ _)) fun _ => Widens.pure _
        obtain ⟨w, m, storedAs, small, yields⟩ := stored.extra ca withCatchAll e member
        have again := (steady m).coerce k (by omega) base _ _ _ e.2 (plain.2 e member) w yields
        obtain ⟨name, v⟩ := e
        refine ReturnsAbove.read (fun _ => rfl) fun _ =>
          ReturnsAbove.bind (Widens.adapt ((r.widening _).coerce _ _ _ _)) ?_
            (Returns.pure _).above
        rw [storedValue, storedAs]
        exact again.adapt

/-- On plain arguments, an initializer of the kind `Merges` follows stores nothing that the
flat constructor over its signature does not: whenever its run succeeds, a run of the flat
constructor from the same special names succeeds too, with the same value under every name. -/
theorem runInitializer_refines (defaults : r.PlainDefaults) {i : Initializer}
    (merges : r.Merges i) (own : i.signature.PlainDefaults) {args : Arguments} (plain : args.Plain)
    {n : Nat} (enough : 2 ≤ n) {fields result : List (String × Value)} (owner owner' : String)
    {vocab vocab' : Vocabulary}
    (ran : (r.runInitializer n i args fields owner).run' vocab = (.ok result, vocab')) :
    ∃ result' vocab'',
      (r.runInitializer n (.direct i.signature) args fields owner').run' vocab =
        (.ok result', vocab'') ∧ ∀ x, Value.lookup result' x = Value.lookup result x := by
  obtain ⟨k, rfl⟩ : ∃ k, n = k + 2 := ⟨n - 2, by omega⟩
  obtain ⟨bound, bound_ok, stored⟩ := runInitializer_stores merges
    ⟨vocab, vocab', Vocabulary.Extends.refl vocab, ran⟩
  obtain ⟨result', same, returns⟩ := invoke_restores (o := owner') (steady defaults)
    merges.distinct bound_ok (Constructor.bind_plain own plain bound_ok) stored
  obtain ⟨vocab'', run⟩ := returns vocab (Vocabulary.Extends.refl vocab)
  exact ⟨result', vocab'', run, same⟩

/-! ## Compiled registries -/

theorem Initializer.signature_renamed (i : Initializer) (owner : String) :
    (i.renamed owner).signature = { i.signature with owner } := by
  cases i <;> rfl

end Registry

/-- What every composite type of a compiled registry has: an initializer that binds against
the type's own name, properties and catch-all and is of the kind `Registry.Merges` follows, and
properties that are required or default to `null`. -/
structure Composite.Shaped (r : Registry) (c : Composite) : Prop where
  signature : c.initializer.signature = ⟨c.name, c.properties, c.catchAll⟩
  merges : r.Merges c.initializer
  defaults : ∀ p ∈ c.properties, p.default = .required ∨ p.default = .value .null

namespace Registry

variable {r : Registry}

/-- In a sound registry whose composite types have the tables of their kinds and parents among
them, every composite type is shaped: by induction on the position of its name, a parent being
registered before its child. -/
theorem shaped_of_tables (sound : r.Sound)
    (closed : ∀ c ∈ r.composites, ∀ p ∈ c.parents, p ∈ r.compositeNames)
    (tabled : ∀ c ∈ r.composites, r.Tabled c) : ∀ c ∈ r.composites, c.Shaped r := by
  suffices ranked : ∀ k, ∀ c ∈ r.composites, r.compositeNames.idxOf c.name < k → c.Shaped r from
    fun c present => ranked _ c present (Nat.lt_succ_self _)
  intro k
  induction k with
  | zero => exact fun _ _ below => absurd below (Nat.not_lt_zero _)
  | succ k inductionHypothesis =>
    intro c present below
    have parentShaped : ∀ q ∈ c.parents, ∀ pc, r.composite q = .ok pc → pc.Shaped r := by
      intro q member pc found
      obtain ⟨pcPresent, named⟩ := composite_ok found
      have earlier := sound.parentsEarlier c present q member (closed c present q member)
      exact inductionHypothesis pc pcPresent (by rw [named]; omega)
    have table := tabled c present
    unfold Tabled at table
    split at table
    · next custom =>
      obtain ⟨e, -, bound, related, props, -, init⟩ := table
      refine ⟨by rw [init]; rfl, ?_, fun p member => ?_⟩
      · rw [init]
        refine .direct ?_
        show (c.properties.map (·.name)).Nodup
        rw [props]
        exact Composite.nodup_names_foldl_setProperty List.nodup_nil
      · rw [props] at member
        rcases Composite.mem_foldl_setProperty member with none | declared
        · cases none
        · obtain ⟨m, -, binds⟩ := Compiler.forall₂_mem_right related declared
          obtain ⟨-, -, h, -, default⟩ := binds
          split at default
          · exact .inl default.1
          · exact .inr default.1
    · next parent passthrough =>
      obtain ⟨p, found, props, catchAll, init⟩ := table
      have shaped := parentShaped parent (by simp [Composite.parents, passthrough]) p found
      refine ⟨?_, by rw [init]; exact shaped.merges.renamed c.name, by rw [props]; exact shaped.defaults⟩
      rw [init, Initializer.signature_renamed, shaped.signature, props, catchAll]
    · next parents inheritance =>
      obtain ⟨ps, found, props, catchAll, init⟩ := table
      have shaped : ∀ pc ∈ ps, pc.Shaped r := by
        intro pc member
        obtain ⟨q, parent, foundAt⟩ := Compiler.forall₂_mem_right found member
        exact parentShaped q (by simp [Composite.parents, inheritance, parent]) pc foundAt
      refine ⟨by rw [init]; rfl, ?_, fun p member => ?_⟩
      · rw [init]
        refine .combined found ?_ ?_ fun pc member => (shaped pc member).merges
        · show c.properties = _
          rw [props, List.flatMap_congr fun pc member =>
            congrArg Constructor.params (shaped pc member).signature]
        · show c.catchAll = _
          rw [catchAll, List.filterMap_congr fun pc member =>
            congrArg Constructor.catchAll (shaped pc member).signature]
      · rw [props] at member
        rcases Composite.mem_foldl_setProperty member with none | inherited
        · cases none
        · obtain ⟨pc, parent, declared⟩ := List.mem_flatMap.mp inherited
          exact (shaped pc parent).defaults p declared

/-- A registry whose composite types are shaped binds against constructors with plain
defaults. -/
theorem plainDefaults_of_shaped (shaped : ∀ c ∈ r.composites, c.Shaped r) : r.PlainDefaults := by
  intro c present p param d isDefault
  have shape := shaped c present
  rw [shape.signature] at param
  rcases shape.defaults p param with required | null
  · rw [required] at isDefault
    cases isDefault
  · rw [null] at isDefault
    cases isDefault
    exact .null

end Registry

/-- Every composite type of a registry compiled from a document whose definitions have distinct
names is shaped. -/
theorem compiled_shaped {D : Document} {R : Registry} (distinct : (D.definitions.map (·.1)).Nodup)
    (compiled : D.compile = .ok R) : ∀ c ∈ R.composites, c.Shaped R := by
  have facts := compile_compiled distinct compiled
  have tabled : ∀ c ∈ R.composites, R.Tabled c := by
    unfold Document.compile at compiled
    obtain ⟨⟨⟨⟩, t⟩, running, result⟩ := Compiling.except_bind_ok compiled
    cases result
    exact Compiler.run_tables distinct running
  exact Registry.shaped_of_tables facts.sound facts.parentsComposite tabled

theorem run_adapt_ok {α : Type} {x : Loading α} {f : Error → Error} {vocab vocab' : Vocabulary}
    {a : α} (ran : Loading.run' (x.adapt f) vocab = (.ok a, vocab')) :
    Loading.run' x vocab = (.ok a, vocab') := by
  unfold Loading.run' at ran ⊢
  rw [Avoids.run_adapt] at ran
  cases run : (ExceptT.run x).run vocab with
  | mk result after =>
    rw [run] at ran
    cases result with
    | error e => cases ran
    | ok b => cases ran; rfl

theorem run_adapt_of_ok {α : Type} {x : Loading α} {f : Error → Error} {vocab vocab' : Vocabulary}
    {a : α} (ran : Loading.run' x vocab = (.ok a, vocab')) :
    Loading.run' (x.adapt f) vocab = (.ok a, vocab') := by
  unfold Loading.run' at ran ⊢
  rw [Avoids.run_adapt, ran]
  rfl

/-- Constructing an instance of a composite type of a compiled registry from plain arguments
refines the flat constructor over the type's table: whenever the construction succeeds, the
type's flat constructor, from the same special names, builds an instance with the same value
under every name. For a type with several parents this is the combined initializer against
the direct one. -/
theorem combined_construction_refines {D : Document} {R : Registry}
    (distinct : (D.definitions.map (·.1)).Nodup) (compiled : D.compile = .ok R)
    {T : Composite} (present : T ∈ R.composites) {args : Arguments} (plain : args.Plain)
    {vocab vocab' : Vocabulary} {built : Value}
    (constructed : (R.constructInstance T args).run' vocab = (.ok built, vocab')) :
    ∃ fields fields' vocab'', built = .object T.name fields ∧
      (R.constructInstance T.resynthesized args).run' vocab =
        (.ok (.object T.name fields'), vocab'') ∧
      ∀ x, Value.lookup fields' x = Value.lookup fields x := by
  have shaped := compiled_shaped distinct compiled
  have shape := shaped T present
  have defaults := Registry.plainDefaults_of_shaped shaped
  obtain ⟨n, depth⟩ : ∃ n, R.argumentsDepth args = n + 3 :=
    ⟨R.argumentsDepth args - 3, by have := Registry.castDepth_ge (r := R) (.list
      (args.positional ++ args.keyword.map (·.2))); unfold Registry.argumentsDepth; omega⟩
  unfold Registry.constructInstance at constructed
  obtain ⟨fields, vocab₁, building, finishing⟩ := run_bind_ok constructed
  cases finishing
  rw [depth] at building
  simp only [Registry.construct] at building
  -- the initializer of the type runs; the flat one over its signature stores the same
  obtain ⟨fields', vocab'', flat, same⟩ := Registry.runInitializer_refines defaults shape.merges
    (defaults T present) plain (by omega) T.name T.name (run_adapt_ok building)
  rw [shape.signature] at flat
  refine ⟨fields, fields', vocab'', rfl, ?_, same⟩
  unfold Registry.constructInstance
  rw [depth]
  have direct : (R.construct (n + 3) T.resynthesized args).run' vocab = (.ok fields', vocab'') := by
    simp only [Registry.construct]
    exact run_adapt_of_ok flat
  unfold Loading.run' at direct ⊢
  simp only [ExceptT.run_bind, StateT.run_bind, direct]
  rfl

/-- Dogs of the kennel: a type inheriting from animals and pets. -/
def dogType : Composite :=
  (kennelRegistry.composite "Dog").toOption.getD (Composite.empty "Dog" .custom)

theorem dogType_found : kennelRegistry.composite "Dog" = .ok dogType := by
  unfold dogType
  cases found : kennelRegistry.composite "Dog" with
  | ok c => rfl
  | error e =>
    have present : (kennelRegistry.composite "Dog").toBool = true := by decide +kernel
    rw [found] at present
    cases present

/-- A dog's name and owner, by keyword. -/
def dogArguments : Arguments := { keyword := [("name", .str "Rex"), ("owner", .str "Ann")] }

theorem dogArguments_plain : dogArguments.Plain :=
  ⟨by simp [dogArguments], fun e member => by
    simp only [dogArguments, List.mem_cons, List.not_mem_nil, or_false] at member
    rcases member with rfl | rfl <;> exact .str _⟩

/-- The dog constructed from `dogArguments`, and the special names after it. -/
def builtDog : Except Error Value × Vocabulary :=
  (kennelRegistry.constructInstance dogType dogArguments).run' {}

theorem dog_constructs :
    (kennelRegistry.constructInstance dogType dogArguments).run' {} =
      (.ok (builtDog.1.toOption.getD .null), builtDog.2) := by
  unfold builtDog
  cases built : (kennelRegistry.constructInstance dogType dogArguments).run' {} with
  | mk result vocab =>
    cases result with
    | ok v => rfl
    | error e =>
      have succeeds :
          ((kennelRegistry.constructInstance dogType dogArguments).run' {}).1.toBool = true := by
        decide +kernel
      rw [built] at succeeds
      cases succeeds

theorem dog_built_flat :
    ∃ fields fields' vocab'', builtDog.1.toOption.getD .null = .object dogType.name fields ∧
      (kennelRegistry.constructInstance dogType.resynthesized dogArguments).run' {} =
        (.ok (.object dogType.name fields'), vocab'') ∧
      ∀ x, Value.lookup fields' x = Value.lookup fields x :=
  combined_construction_refines (by decide) kennel_compiles (Registry.composite_ok dogType_found).1
    dogArguments_plain dog_constructs

/-- A document with two object types that both have a property `X`, an integer in one and a
string in the other, and a type inheriting from both. -/
def stricterParents : Document :=
  { title := none, root := none,
    definitions := [
      ("A", ⟨[("type", .str "object"),
        ("properties", .obj [("X", .obj [("type", .str "integer")])])]⟩),
      ("B", ⟨[("type", .str "object"),
        ("properties", .obj [("X", .obj [("type", .str "string")])])]⟩),
      ("T", ⟨[("allOf", .arr [.obj [("$ref", .str "#/$defs/A")],
        .obj [("$ref", .str "#/$defs/B")]])]⟩)] }

/-- The registry compiled from `stricterParents`. -/
def stricterRegistry : Registry := stricterParents.compile.toOption.getD {}

theorem stricterParents_compiles : stricterParents.compile = .ok stricterRegistry :=
  Document.compile_of_toBool (by decide +kernel)

/-- The type inheriting from both. -/
def inheritingType : Composite :=
  (stricterRegistry.composite "T").toOption.getD (Composite.empty "T" .custom)

/-- The text `abc` for the attribute `x`. -/
def textArguments : Arguments := { keyword := [("x", .str "abc")] }

/-- The combined initializer refuses what the flat constructor takes: `T` inherits `X` as a
string from `B`, its last parent, so its table and its flat constructor take the text `abc`;
but the initializer of `A` runs first and requires an integer. -/
theorem stricter_parent_refuses :
    stricterParents.compile = .ok stricterRegistry ∧
      stricterRegistry.composite "T" = .ok inheritingType ∧ inheritingType.parents = ["A", "B"] ∧
      ((stricterRegistry.constructInstance inheritingType textArguments).run' {}).1.toBool = false ∧
      ((stricterRegistry.constructInstance inheritingType.resynthesized textArguments).run'
        {}).1.toBool = true := by
  refine ⟨stricterParents_compiles, ?_, by decide +kernel, by decide +kernel, by decide +kernel⟩
  unfold inheritingType
  cases found : stricterRegistry.composite "T" with
  | ok c => rfl
  | error e =>
    have present : (stricterRegistry.composite "T").toBool = true := by decide +kernel
    rw [found] at present
    cases present

end SchemaTypes
