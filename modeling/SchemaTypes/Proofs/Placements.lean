import Mathlib
import SchemaTypes.Proofs.CompilerState

/-! # How many types a document can give

Every definition a compilation holds is placed in the document (`Placed`): a definition of
the document, or a schema inside a placed definition, at a position its category looks at.
Here placed names are counted by where they sit. The schemas a definition's category looks at
(`Definition.parts`) are disjoint pieces of its JSON value, so the names reachable from a
schema are at most as many as the values it holds (`Json.size`), and a compilation never holds
more definitions than the document's definitions hold values (`Sound.definitions_length_le`).
That is the bound the binding pass walks the custom types with (`size_le_depthBound`).
-/

namespace SchemaTypes

open Relation (ReflTransGen)

namespace Json

theorem size_pos (v : Json) : 0 < Json.size v := by
  cases v <;> simp [Json.size]

theorem sizeItems_eq_sum : ∀ xs : List Json, Json.sizeItems xs = (xs.map Json.size).sum
  | [] => rfl
  | x :: xs => by rw [Json.sizeItems, sizeItems_eq_sum xs, List.map_cons, List.sum_cons]

theorem sizeMembers_eq_sum :
    ∀ ms : List (String × Json), Json.sizeMembers ms = (ms.map fun m => Json.size m.2).sum
  | [] => rfl
  | (_, v) :: ms => by rw [Json.sizeMembers, sizeMembers_eq_sum ms, List.map_cons, List.sum_cons]

theorem lookup_cons {k key : String} {v : Json} {ms : List (String × Json)} :
    lookup ((k, v) :: ms) key = if k = key then some v else lookup ms key := by
  by_cases same : k = key <;> simp [lookup, same]

/-- A member's value is no larger than all the members' values together. -/
theorem lookup_size_le {key : String} :
    ∀ {ms : List (String × Json)} {v : Json}, lookup ms key = some v →
      Json.size v ≤ Json.sizeMembers ms
  | [], _, found => by simp [lookup] at found
  | (k, w) :: ms, v, found => by
    rw [lookup_cons] at found
    rw [Json.sizeMembers]
    split at found
    · cases found
      omega
    · have later := lookup_size_le found
      omega

/-- The values of two different members are disjoint parts of the members' values. -/
theorem lookup_size_add_le {k₁ k₂ : String} (distinct : k₁ ≠ k₂) :
    ∀ {ms : List (String × Json)} {v₁ v₂ : Json}, lookup ms k₁ = some v₁ → lookup ms k₂ = some v₂ →
      Json.size v₁ + Json.size v₂ ≤ Json.sizeMembers ms
  | [], _, _, first, _ => by simp [lookup] at first
  | (k, w) :: ms, v₁, v₂, first, second => by
    rw [lookup_cons] at first second
    rw [Json.sizeMembers]
    by_cases here₁ : k = k₁
    · have there₂ : k ≠ k₂ := fun same => distinct (here₁.symm.trans same)
      rw [if_pos here₁] at first
      rw [if_neg there₂] at second
      cases first
      have later := lookup_size_le second
      omega
    · rw [if_neg here₁] at first
      split at second
      · cases second
        have later := lookup_size_le first
        omega
      · have later := lookup_size_add_le distinct first second
        omega

theorem get?_size_lt {v w : Json} {key : String} (found : v.get? key = some w) :
    Json.size w < Json.size v := by
  match v, found with
  | .obj ms, found =>
    have within := lookup_size_le (show lookup ms key = some w from found)
    rw [Json.size]
    omega

/-- A member that is a list holds its items and one value more. -/
theorem lookup_items_size {ms : List (String × Json)} {key : String} {xs : List Json}
    (found : (lookup ms key).bind items? = some xs) : Json.sizeItems xs + 1 ≤ Json.sizeMembers ms := by
  cases member : lookup ms key with
  | none => simp [member] at found
  | some v =>
    rw [member] at found
    match v, found with
    | .arr xs, rfl =>
      have within := lookup_size_le member
      rw [Json.size] at within
      exact within

/-- The values of `then` in parts are no larger than the parts; a part without one counts as
`null`. -/
theorem thens_size_le (parts : List Json) :
    (parts.map fun part => Json.size ((part.get? "then").getD .null)).sum ≤
      Json.sizeItems parts := by
  rw [sizeItems_eq_sum]
  apply List.sum_le_sum
  intro part _
  cases found : part.get? "then" with
  | none => exact size_pos part
  | some w => exact (get?_size_lt found).le

end Json

namespace Definition

theorem ofJson_toJson (d : Definition) : ofJson d.toJson = .ok d := rfl

theorem toJson_of_ofJson {j : Json} {d : Definition} (read : ofJson j = .ok d) : d.toJson = j := by
  match j, read with
  | .obj ms, rfl => rfl

/-- The schemas a definition's category looks at, under the names they are compiled as: the
items of a list, the alternatives of a union, the `then` schemas of a polymorph's conditions,
the parents of a type with several parents, and the properties and catch-all of a custom type. -/
def parts (name : String) (d : Definition) : List (String × Json) :=
  match d.shapeCategory with
  | .ok .list => d.items?.toList.map fun items => (name ++ "_Item", items)
  | .ok .union =>
    (d.oneOf?.getD []).zipIdx.map fun p => (name ++ "_Option" ++ toString p.2, p.1)
  | .ok .polymorph =>
    (d.allOf?.getD []).zipIdx.map fun p =>
      (name ++ "_Option" ++ toString p.2, (p.1.get? "then").getD .null)
  | .ok .multiInheritance =>
    (d.allOf?.getD []).zipIdx.map fun p => (name ++ "_Parent" ++ toString p.2, p.1)
  | .ok .custom =>
    (d.properties?.getD []).map (fun p => (name ++ "_" ++ (Naming.pascalToSnake p.1 {}).1, p.2)) ++
      d.additionalProperties?.toList.map fun extra => (name ++ "_AdditionalProperties", extra)
  | _ => []

/-- Numbering a list does not change the sizes of what is taken from its elements. -/
theorem zipIdx_size_sum {α : Type} (xs : List α) {pair : α × Nat → String × Json} (f : α → Json)
    (second : ∀ p, (pair p).2 = f p.1) :
    ((xs.zipIdx.map pair).map fun q => Json.size q.2).sum = (xs.map fun x => Json.size (f x)).sum := by
  rw [List.map_map]
  have through : ((fun q : String × Json => Json.size q.2) ∘ pair) =
      (fun x => Json.size (f x)) ∘ Prod.fst := by
    funext p
    simp only [Function.comp_apply, second]
  rw [through, ← List.map_map, List.zipIdx_map_fst]

/-- The parts of a definition are disjoint pieces of its members' values. -/
theorem parts_size_le (name : String) (d : Definition) :
    ((d.parts name).map fun p => Json.size p.2).sum ≤ Json.sizeMembers d.members := by
  unfold parts
  split
  · cases found : d.items? with
    | none => simp
    | some items => simpa using Json.lookup_size_le found
  · rw [zipIdx_size_sum _ (fun x => x) (fun _ => rfl), ← Json.sizeItems_eq_sum]
    cases listed : d.oneOf? with
    | none => simp [Json.sizeItems]
    | some alternatives =>
      rw [Option.getD_some]
      unfold oneOf? at listed
      split at listed
      · next v found =>
        rw [← found] at listed
        have within := Json.lookup_items_size listed
        omega
      · have within := Json.lookup_items_size listed
        omega
  · rw [zipIdx_size_sum _ (fun part => (part.get? "then").getD .null) (fun _ => rfl)]
    cases listed : d.allOf? with
    | none => simp
    | some parts =>
      have within := Json.lookup_items_size listed
      have thens := Json.thens_size_le parts
      rw [Option.getD_some]
      omega
  · rw [zipIdx_size_sum _ (fun x => x) (fun _ => rfl), ← Json.sizeItems_eq_sum]
    cases listed : d.allOf? with
    | none => simp [Json.sizeItems]
    | some parts =>
      have within := Json.lookup_items_size listed
      rw [Option.getD_some]
      omega
  · -- the properties and the catch-all are two different members
    rw [List.map_append, List.sum_append, List.map_map]
    cases listed : d.properties? with
    | none =>
      cases extra : d.additionalProperties? with
      | none => simp
      | some x => simpa using Json.lookup_size_le extra
    | some ps =>
      have found : Json.lookup d.members "properties" = some (.obj ps) := by
        unfold properties? at listed
        cases member : Json.lookup d.members "properties" with
        | none => simp [get?, member] at listed
        | some v =>
          simp only [get?, member, Option.bind_some] at listed
          match v, listed with
          | .obj ps, rfl => rfl
      have own : ((ps.map fun p => (name ++ "_" ++ (Naming.pascalToSnake p.1 {}).1, p.2)).map
          fun p => Json.size p.2).sum = Json.sizeMembers ps := by
        rw [Json.sizeMembers_eq_sum, List.map_map]
        rfl
      rw [Option.getD_some, ← List.map_map, own]
      have whole : Json.sizeMembers ps + 1 ≤ Json.size (Json.obj ps) := by rw [Json.size]
      cases extra : d.additionalProperties? with
      | none =>
        have within := Json.lookup_size_le found
        simp only [Option.toList_none, List.map_nil, List.sum_nil]
        omega
      | some x =>
        have both := Json.lookup_size_add_le (by decide) found extra
        simp only [Option.toList_some, List.map_cons, List.map_nil, List.sum_cons,
          List.sum_nil]
        omega
  · simp

end Definition

/-- The schema `inner` is a part of the definition `outer` holds, as its category sees it. -/
def Nests (outer inner : String × Json) : Prop :=
  ∃ d, Definition.ofJson outer.2 = .ok d ∧ inner ∈ d.parts outer.1

/-- Lists covering what each of several schemas leads to, together, cover all of it, in as
many names as the schemas hold values. -/
theorem exists_cover (P : String × Json → String → Prop) :
    ∀ cs : List (String × Json),
      (∀ c ∈ cs, ∃ L : List String, L.length ≤ Json.size c.2 ∧ ∀ n, P c n → n ∈ L) →
      ∃ L : List String, L.length ≤ (cs.map fun c => Json.size c.2).sum ∧
        ∀ c ∈ cs, ∀ n, P c n → n ∈ L
  | [], _ => ⟨[], by simp, by simp⟩
  | c :: cs, each => by
    obtain ⟨L₁, short₁, covers₁⟩ := each c List.mem_cons_self
    obtain ⟨L₂, short₂, covers₂⟩ :=
      exists_cover P cs fun c' member => each c' (List.mem_cons_of_mem _ member)
    refine ⟨L₁ ++ L₂, ?_, ?_⟩
    · simp only [List.length_append, List.map_cons, List.sum_cons]
      omega
    · intro c' member n holds
      rcases List.mem_cons.mp member with rfl | later
      · exact List.mem_append_left _ (covers₁ n holds)
      · exact List.mem_append_right _ (covers₂ c' later n holds)

/-- The names reachable from a schema fit in a list no longer than the schema's size. The
induction is on a bound of the size: every part is smaller than the schema it sits in. -/
theorem reachable_names_bounded : ∀ (k : Nat) (root : String × Json), Json.size root.2 ≤ k →
    ∃ L : List String, L.length ≤ Json.size root.2 ∧
      ∀ n, (∃ j, ReflTransGen Nests root (n, j)) → n ∈ L
  | 0, root, small => absurd small (by have := Json.size_pos root.2; omega)
  | k + 1, (name, j), small => by
    dsimp only at small ⊢
    cases read : Definition.ofJson j with
    | error e =>
      -- a schema that is no object has no parts
      refine ⟨[name], Json.size_pos j, ?_⟩
      rintro n ⟨jn, reach⟩
      rcases reach.cases_head with same | ⟨c, ⟨d, read', -⟩, -⟩
      · simp only [Prod.mk.injEq] at same
        simp [same.1]
      · rw [read] at read'
        cases read'
    | ok d =>
      have whole : Json.size j = Json.sizeMembers d.members + 1 := by
        rw [← Definition.toJson_of_ofJson read, Definition.toJson, Json.size]
      have parts := d.parts_size_le name
      obtain ⟨L, short, covers⟩ := exists_cover (fun c n => ∃ j, ReflTransGen Nests c (n, j))
        (d.parts name) fun c member => by
          have within : Json.size c.2 ≤ ((d.parts name).map fun p => Json.size p.2).sum :=
            List.le_sum_of_mem (List.mem_map_of_mem member)
          exact reachable_names_bounded k c (by omega)
      refine ⟨name :: L, ?_, ?_⟩
      · rw [List.length_cons]
        omega
      · rintro n ⟨jn, reach⟩
        rcases reach.cases_head with same | ⟨c, ⟨d', read', member⟩, rest⟩
        · simp only [Prod.mk.injEq] at same
          simp [same.1]
        · rw [read] at read'
          cases read'
          exact List.mem_cons_of_mem _ (covers c member n ⟨jn, rest⟩)

/-- The number of values the document's definitions hold. -/
def Document.size (D : Document) : Nat := (D.definitions.map fun p => Json.size p.2.toJson).sum

/-- A placed definition is reached from a definition of the document through parts. -/
theorem Placed.reaches {D : Document} {name : String} {d : Definition} (placed : Placed D name d) :
    ∃ p ∈ D.definitions, ReflTransGen Nests (p.1, p.2.toJson) (name, d.toJson) := by
  induction placed with
  | document member => exact ⟨_, member, .refl⟩
  | item _ category items _ read ih =>
    obtain ⟨p, member, reach⟩ := ih
    refine ⟨p, member, reach.tail ⟨_, Definition.ofJson_toJson _, ?_⟩⟩
    rw [Definition.toJson_of_ofJson read]
    unfold Definition.parts
    rw [category, items]
    exact List.mem_singleton_self _
  | option _ category listed _ read ih =>
    obtain ⟨p, member, reach⟩ := ih
    refine ⟨p, member, reach.tail ⟨_, Definition.ofJson_toJson _, ?_⟩⟩
    rw [Definition.toJson_of_ofJson read]
    unfold Definition.parts
    rw [category]
    exact List.mem_map.mpr ⟨_, listed, rfl⟩
  | branch _ category parts listed read ih =>
    obtain ⟨p, member, reach⟩ := ih
    refine ⟨p, member, reach.tail ⟨_, Definition.ofJson_toJson _, ?_⟩⟩
    rw [Definition.toJson_of_ofJson read]
    unfold Definition.parts
    rw [category, parts]
    exact List.mem_map.mpr ⟨_, listed, rfl⟩
  | parent _ category listed read ih =>
    obtain ⟨p, member, reach⟩ := ih
    refine ⟨p, member, reach.tail ⟨_, Definition.ofJson_toJson _, ?_⟩⟩
    rw [Definition.toJson_of_ofJson read]
    unfold Definition.parts
    rw [category]
    exact List.mem_map.mpr ⟨_, listed, rfl⟩
  | property _ category listed read ih =>
    obtain ⟨p, member, reach⟩ := ih
    refine ⟨p, member, reach.tail ⟨_, Definition.ofJson_toJson _, ?_⟩⟩
    rw [Definition.toJson_of_ofJson read]
    unfold Definition.parts
    rw [category]
    exact List.mem_append_left _ (List.mem_map.mpr ⟨_, listed, rfl⟩)
  | extra _ category given _ _ read ih =>
    obtain ⟨p, member, reach⟩ := ih
    refine ⟨p, member, reach.tail ⟨_, Definition.ofJson_toJson _, ?_⟩⟩
    rw [Definition.toJson_of_ofJson read]
    unfold Definition.parts
    rw [category, given]
    exact List.mem_append_right _ (List.mem_singleton_self _)

/-- The names placed in a document fit in a list no longer than the document's size. -/
theorem placed_names_bounded (D : Document) :
    ∃ L : List String, L.length ≤ D.size ∧ ∀ name d, Placed D name d → name ∈ L := by
  obtain ⟨L, short, covers⟩ := exists_cover (fun c n => ∃ j, ReflTransGen Nests c (n, j))
    (D.definitions.map fun p => (p.1, p.2.toJson))
    (fun c _ => reachable_names_bounded _ c le_rfl)
  refine ⟨L, by simpa [Document.size, List.map_map, Function.comp_def] using short,
    fun name d placed => ?_⟩
  obtain ⟨p, member, reach⟩ := placed.reaches
  exact covers _ (List.mem_map_of_mem member) name ⟨_, reach⟩

namespace Compiler

variable {D : Document} {s : Compiler}

/-- A sound compilation holds no more definitions than the document's definitions hold
values: the definitions have distinct names, all of them placed. -/
theorem Sound.definitions_length_le (sound : Sound D s) : s.definitions.length ≤ D.size := by
  obtain ⟨L, short, covers⟩ := placed_names_bounded D
  have within : s.definitions.map (·.1) ⊆ L := by
    intro name member
    obtain ⟨p, present, rfl⟩ := List.mem_map.mp member
    exact covers p.1 p.2 (sound.placed p present)
  have counted := sound.definitionsNodup.length_le_of_subset within
  rw [List.length_map] at counted
  omega

theorem foldl_add_eq {α : Type} {f : Nat → α → Nat} (g : α → Nat)
    (adds : ∀ acc x, f acc x = acc + g x) :
    ∀ (l : List α) (a : Nat), l.foldl f a = a + (l.map g).sum
  | [], a => by simp
  | x :: l, a => by
    rw [List.foldl_cons, foldl_add_eq g adds l, adds, List.map_cons, List.sum_cons]
    omega

/-- The bound the binding pass walks with covers the document's size, once the state holds
the document's definitions. -/
theorem size_le_depthBound (kept : D.definitions <+: s.definitions) : D.size ≤ s.depthBound := by
  obtain ⟨rest, whole⟩ := kept
  have summed : (s.definitions.map fun p => Json.size p.2.toJson).sum =
      D.size + (rest.map fun p => Json.size p.2.toJson).sum := by
    rw [← whole, List.map_append, List.sum_append, Document.size]
  simp only [depthBound]
  rw [foldl_add_eq (fun p => Json.size p.2.toJson) (fun acc p => by cases p; rfl), summed]
  generalize (rest.map fun p => Json.size p.2.toJson).sum = extra
  generalize s.definitions.length = count
  calc D.size ≤ 0 + (D.size + extra) + count + 2 := by omega
    _ ≤ (0 + (D.size + extra) + count + 2) * (count + 2) := Nat.le_mul_of_pos_right _ (by omega)
    _ ≤ (0 + (D.size + extra) + count + 2) * (count + 2) * 4 :=
      Nat.le_mul_of_pos_right _ (by omega)

end Compiler

end SchemaTypes
