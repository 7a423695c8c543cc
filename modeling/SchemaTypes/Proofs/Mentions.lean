import SchemaTypes.Registry.Basic

/-! # The type names a registry refers to

Handles and casters refer to composite types and enumerations by name, so that a type
registered early and completed later is still the same type. A name is only as good as the
registry behind it: a registry *covers* a list of mentions when it holds a composite type or
an enumeration of every name in it. A registry is closed when it covers everything its
entries and its composite types mention; the compiler keeps this true at every step.

This module collects the mentions of handles, casters, properties, initializers and
composite types, and the facts about covering that the closure proofs use.
-/

namespace SchemaTypes

/-- A reference by name to a composite type or to an enumeration. -/
inductive Mention where
  | composite (name : String)
  | enum (name : String)
  deriving DecidableEq

mutual
/-- The type names a handle refers to, at any depth. -/
def TypeHandle.mentions : TypeHandle → List Mention
  | .any | .native _ => []
  | .list h | .optional h => h.mentions
  | .union members => TypeHandle.mentionsAll members
  | .enum name => [.enum name]
  | .composite name => [.composite name]
/-- The type names several handles refer to. -/
def TypeHandle.mentionsAll : List TypeHandle → List Mention
  | [] => []
  | h :: hs => h.mentions ++ TypeHandle.mentionsAll hs
end

mutual
/-- The type names a caster refers to, branch casters of polymorphs included. -/
def Caster.mentions : Caster → List Mention
  | .identity | .native _ => []
  | .list item => item.mentions
  | .enum name => [.enum name]
  | .composite name => [.composite name]
  | .keyed _ mapping => Caster.mappingMentions mapping
  | .conditional branches => Caster.branchMentions branches
/-- The type names the casters of a keyed mapping refer to. -/
def Caster.mappingMentions : List (String × String × Caster) → List Mention
  | [] => []
  | (_, _, k) :: rest => k.mentions ++ Caster.mappingMentions rest
/-- The type names the casters of conditional branches refer to. -/
def Caster.branchMentions : List (List (String × Value) × String × Caster) → List Mention
  | [] => []
  | (_, _, k) :: rest => k.mentions ++ Caster.branchMentions rest
end

/-- The casters of a polymorph's branches, in order; none for other casters. -/
def Caster.branchCasters : Caster → List Caster
  | .keyed _ mapping => mapping.map (·.2.2)
  | .conditional branches => branches.map (·.2.2)
  | _ => []

/-- The type names a property refers to. -/
def Property.mentions (p : Property) : List Mention := p.constraint.mentions ++ p.caster.mentions

/-- The type names a catch-all refers to. -/
def CatchAll.mentions (ca : CatchAll) : List Mention :=
  ca.constraint.mentions ++ ca.caster.mentions

/-- The type names the parameters and catch-all of a constructor refer to. -/
def Constructor.mentions (c : Constructor) : List Mention :=
  c.params.flatMap Property.mentions ++ (c.catchAll.map CatchAll.mentions).getD []

/-- The type names an initializer refers to: its parameters, and the parents it hands the
arguments to. -/
def Initializer.mentions : Initializer → List Mention
  | .direct c => c.mentions
  | .combined signature parents => signature.mentions ++ parents.map .composite

/-- The type names a composite type refers to through its properties, catch-all and
initializer; its parents are kept apart, since they are checked only once every type is
complete. -/
def Composite.mentions (c : Composite) : List Mention :=
  c.properties.flatMap Property.mentions ++ (c.catchAll.map CatchAll.mentions).getD [] ++
    c.initializer.mentions

namespace Registry

/-- The names of the composite types, in order. -/
def compositeNames (r : Registry) : List String := r.composites.map (·.name)

/-- The names of the enumerations, in order. -/
def enumNames (r : Registry) : List String := r.enums.map (·.name)

/-- Whether the registry holds the type a mention names. -/
def Provides (r : Registry) : Mention → Prop
  | .composite name => name ∈ r.compositeNames
  | .enum name => name ∈ r.enumNames

/-- The registry holds every type the mentions name. -/
def Covers (r : Registry) (ms : List Mention) : Prop := ∀ m ∈ ms, r.Provides m

theorem covers_append {r : Registry} {a b : List Mention} :
    r.Covers (a ++ b) ↔ r.Covers a ∧ r.Covers b := by
  simp only [Covers, List.mem_append]
  constructor
  · intro covers
    exact ⟨fun m member => covers m (.inl member), fun m member => covers m (.inr member)⟩
  · rintro ⟨left, right⟩ m (member | member)
    · exact left m member
    · exact right m member

theorem covers_of_subset {r : Registry} {a b : List Mention} (sub : a ⊆ b) (covers : r.Covers b) :
    r.Covers a :=
  fun m member => covers m (sub member)

theorem covers_flatMap {r : Registry} {ps : List Property} :
    r.Covers (ps.flatMap Property.mentions) ↔ ∀ p ∈ ps, r.Covers p.mentions := by
  simp only [Covers, List.mem_flatMap]
  constructor
  · intro covers p member m mentioned
    exact covers m ⟨p, member, mentioned⟩
  · rintro covers m ⟨p, member, mentioned⟩
    exact covers p member m mentioned

theorem covers_catchAll {r : Registry} {ca : Option CatchAll} :
    r.Covers ((ca.map CatchAll.mentions).getD []) ↔ ∀ x, ca = some x → r.Covers x.mentions := by
  cases ca with
  | none => simp [Covers]
  | some x => simp

/-- Covering survives a registry that keeps every composite type and enumeration name. -/
theorem Covers.mono {r t : Registry} {ms : List Mention}
    (composites : r.compositeNames ⊆ t.compositeNames) (enums : r.enumNames ⊆ t.enumNames)
    (covers : r.Covers ms) : t.Covers ms := by
  intro m member
  cases m with
  | composite name => exact composites (covers _ member)
  | enum name => exact enums (covers _ member)

end Registry

/-! ## Mentions of compound handles and casters -/

theorem TypeHandle.mem_mentionsAll {m : Mention} :
    ∀ {hs : List TypeHandle}, m ∈ TypeHandle.mentionsAll hs ↔ ∃ h ∈ hs, m ∈ h.mentions
  | [] => by simp [TypeHandle.mentionsAll]
  | h :: hs => by
    simp only [TypeHandle.mentionsAll, List.mem_append, TypeHandle.mem_mentionsAll,
      List.mem_cons, exists_eq_or_imp]

@[simp] theorem TypeHandle.mentions_orNull (h : TypeHandle) : h.orNull.mentions = h.mentions := by
  cases h <;> rfl

theorem Caster.mentions_of_mem_mapping {k : Caster} :
    ∀ {mapping : List (String × String × Caster)}, k ∈ mapping.map (·.2.2) →
      k.mentions ⊆ Caster.mappingMentions mapping
  | [], member => by simp at member
  | (_, _, k') :: rest, member => by
    simp only [List.map_cons, List.mem_cons] at member
    rcases member with rfl | later
    · exact List.subset_append_left _ _
    · exact List.Subset.trans (Caster.mentions_of_mem_mapping later)
        (List.subset_append_right _ _)

theorem Caster.mentions_of_mem_branches {k : Caster} :
    ∀ {branches : List (List (String × Value) × String × Caster)}, k ∈ branches.map (·.2.2) →
      k.mentions ⊆ Caster.branchMentions branches
  | [], member => by simp at member
  | (_, _, k') :: rest, member => by
    simp only [List.map_cons, List.mem_cons] at member
    rcases member with rfl | later
    · exact List.subset_append_left _ _
    · exact List.Subset.trans (Caster.mentions_of_mem_branches later)
        (List.subset_append_right _ _)

theorem Caster.mem_mappingMentions {m : Mention} :
    ∀ {mapping : List (String × String × Caster)}, m ∈ Caster.mappingMentions mapping →
      ∃ e ∈ mapping, m ∈ e.2.2.mentions
  | [], member => by simp [Caster.mappingMentions] at member
  | (key, target, k) :: rest, member => by
    rcases List.mem_append.mp member with here | later
    · exact ⟨(key, target, k), by simp, here⟩
    · obtain ⟨e, inRest, mentioned⟩ := Caster.mem_mappingMentions later
      exact ⟨e, List.mem_cons_of_mem _ inRest, mentioned⟩

theorem Caster.mem_branchMentions {m : Mention} :
    ∀ {branches : List (List (String × Value) × String × Caster)},
      m ∈ Caster.branchMentions branches → ∃ b ∈ branches, m ∈ b.2.2.mentions
  | [], member => by simp [Caster.branchMentions] at member
  | (constants, target, k) :: rest, member => by
    rcases List.mem_append.mp member with here | later
    · exact ⟨(constants, target, k), by simp, here⟩
    · obtain ⟨b, inRest, mentioned⟩ := Caster.mem_branchMentions later
      exact ⟨b, List.mem_cons_of_mem _ inRest, mentioned⟩

/-- A branch caster mentions nothing its polymorph does not. -/
theorem Caster.mentions_of_mem_branchCasters {c k : Caster} (member : k ∈ c.branchCasters) :
    k.mentions ⊆ c.mentions := by
  cases c with
  | keyed property mapping => exact Caster.mentions_of_mem_mapping member
  | conditional branches => exact Caster.mentions_of_mem_branches member
  | _ => simp [Caster.branchCasters] at member

end SchemaTypes
