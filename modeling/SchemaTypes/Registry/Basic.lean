import SchemaTypes.Types.Composite
import SchemaTypes.Types.Conversion
import SchemaTypes.Schema.Category

/-! # The type registry

A registry holds, for every registered name, an entry with its type handle, its caster, its
definition and its category, in the order of registration; beside them the composite types
and enumerations by name, and the name of the root type. Registering a name twice replaces
its entry in place.

A type is a subtype of another when the other can be reached from it by following parents.
A value conforms to a handle when it is already of the kind the handle describes, so that it
needs no casting.

The special names of composite types are the one part that changes after compilation: they
grow as data is loaded. They are kept apart in a `Vocabulary`, one set per composite type.
-/

namespace SchemaTypes

/-- What is registered under a name. -/
structure Entry where
  name : String
  handle : TypeHandle
  caster : Caster
  definition : Definition
  category : Category

/-- The types compiled from a schema. -/
structure Registry where
  entries : List Entry := []
  composites : List Composite := []
  enums : List EnumType := []
  root : Option String := none

/-- The special names of each composite type. -/
structure Vocabulary where
  sets : List (String × SpecialNames) := []

namespace Registry

/-- Registers an entry, replacing one of the same name in place. -/
def register (r : Registry) (e : Entry) : Registry :=
  if r.entries.any (·.name == e.name) then
    { r with entries := r.entries.map fun x => if x.name == e.name then e else x }
  else { r with entries := r.entries ++ [e] }

/-- Adds a composite type, replacing one of the same name in place. -/
def insertComposite (r : Registry) (c : Composite) : Registry :=
  if r.composites.any (·.name == c.name) then
    { r with composites := r.composites.map fun x => if x.name == c.name then c else x }
  else { r with composites := r.composites ++ [c] }

/-- Adds an enumeration, replacing one of the same name in place. -/
def insertEnum (r : Registry) (e : EnumType) : Registry :=
  if r.enums.any (·.name == e.name) then
    { r with enums := r.enums.map fun x => if x.name == e.name then e else x }
  else { r with enums := r.enums ++ [e] }

/-- Whether a name is registered. -/
def contains (r : Registry) (name : String) : Bool := r.entries.any (·.name == name)

/-- The number of registered names. -/
def size (r : Registry) : Nat := r.entries.length

/-- The entry of a name. -/
def entry (r : Registry) (name : String) : Except Error Entry :=
  match r.entries.find? (·.name == name) with
  | some e => .ok e
  | none => .error (.classNotFound name)

/-- The composite type of a name. -/
def composite (r : Registry) (name : String) : Except Error Composite :=
  match r.composites.find? (·.name == name) with
  | some c => .ok c
  | none => .error (.classNotFound name)

/-- The enumeration of a name. -/
def enumType (r : Registry) (name : String) : Except Error EnumType :=
  match r.enums.find? (·.name == name) with
  | some e => .ok e
  | none => .error (.classNotFound name)

/-- The composite type a name stands for as a class: the target of a composite handle
registered under it, or the composite of that name. -/
def classOf (r : Registry) (name : String) : Except Error Composite :=
  match r.entries.find? (·.name == name) with
  | some ⟨_, .composite target, _, _, _⟩ => r.composite target
  | _ => r.composite name

/-- The parents of a composite type; none for other names. -/
def parentsOf (r : Registry) (name : String) : List String :=
  match r.composites.find? (·.name == name) with
  | some c => c.parents
  | none => []

/-- The composite types whose names are not among `seen`. The subtype search marks each name
seen once at most, and only a composite type's name gives it parents to push, so this count
together with the length of its stack bounds the search. -/
def unseenComposites (r : Registry) (seen : List String) : Nat :=
  r.composites.countP fun c => !seen.contains c.name

theorem unseenComposites_push_le (r : Registry) (seen : List String) (n : String) :
    r.unseenComposites (seen ++ [n]) ≤ r.unseenComposites seen :=
  List.countP_mono_left fun c _ => by simp_all

/-- Marking a composite type's name seen for the first time lowers the count. -/
theorem unseenComposites_push_lt (r : Registry) {seen : List String} {n : String}
    (fresh : seen.contains n = false) (named : ∃ c ∈ r.composites, c.name = n) :
    r.unseenComposites (seen ++ [n]) < r.unseenComposites seen := by
  obtain ⟨c, member, rfl⟩ := named
  obtain ⟨front, back, split⟩ := List.append_of_mem member
  -- `c` drops out of the count and no other composite type joins it
  have le : ∀ l : List Composite,
      l.countP (fun x => !(seen ++ [c.name]).contains x.name) ≤ l.countP fun x => !seen.contains x.name :=
    fun l => List.countP_mono_left fun x _ => by simp_all
  have front_le := le front
  have back_le := le back
  unfold unseenComposites
  rw [split, List.countP_append, List.countP_append,
    List.countP_cons_of_neg (by simp), List.countP_cons_of_pos (by simpa using fresh)]
  omega

/-- A name that no composite type has has no parents. -/
theorem parentsOf_eq_nil (r : Registry) {n : String} (unnamed : ∀ c ∈ r.composites, c.name ≠ n) :
    r.parentsOf n = [] := by
  unfold parentsOf
  split
  · next c found =>
    exact absurd (by simpa using List.find?_some found) (unnamed c (List.mem_of_find?_eq_some found))
  · rfl

/-- The depth-first search behind `isSubtype`. `pending` is its stack, top first, and `seen`
the names whose parents it has pushed. It pops a name and stops if that is `ancestor`, skips it
if seen, and otherwise marks it seen and pushes its parents, the last one on top. -/
def searchParents (r : Registry) (ancestor : String) (pending seen : List String) : Bool :=
  match pending with
  | [] => false
  | current :: rest =>
    if current == ancestor then true
    else if seen.contains current then searchParents r ancestor rest seen
    else searchParents r ancestor ((r.parentsOf current).reverse ++ rest) (seen ++ [current])
termination_by (r.unseenComposites seen, pending.length)
decreasing_by
  · exact Prod.Lex.right _ (by simp)
  · rename_i fresh
    by_cases named : ∃ c ∈ r.composites, c.name = current
    · exact Prod.Lex.left _ _ (r.unseenComposites_push_lt (by simpa using fresh) named)
    · -- a name that is no composite type's pushes nothing
      rw [r.parentsOf_eq_nil (by simpa using named)]
      rcases Nat.lt_or_eq_of_le (r.unseenComposites_push_le seen current) with fewer | same
      · exact Prod.Lex.left _ _ fewer
      · exact same ▸ Prod.Lex.right _ (by simp)

/-- Whether `child` is `ancestor` or inherits from it. -/
def isSubtype (r : Registry) (child ancestor : String) : Bool :=
  if child == ancestor then true else r.searchParents ancestor [child] []

mutual
/-- Whether a value needs no casting to fit a handle. -/
def conforms (r : Registry) (v : Value) : TypeHandle → Bool
  | .any => true
  | .native t => t.admits v
  | .list item =>
    match v with
    | .list xs => xs.all fun x => conforms r x item
    | _ => false
  | .union members => conformsAny r v members
  | .optional inner => v.isNull || conforms r v inner
  | .enum name =>
    match v with
    | .enum m => m.enumName == name
    | _ => false
  | .composite name =>
    match v with
    | .object t _ => r.isSubtype t name
    | _ => false
/-- Whether a value fits one of several handles. -/
def conformsAny (r : Registry) (v : Value) : List TypeHandle → Bool
  | [] => false
  | h :: hs => conforms r v h || conformsAny r v hs
end

/-- The vocabulary of a freshly compiled registry: each composite type's own special
names. -/
def vocabulary (r : Registry) : Vocabulary := ⟨r.composites.map fun c => (c.name, c.special)⟩

end Registry

namespace Vocabulary

/-- The special names of a composite type. -/
def get (v : Vocabulary) (name : String) : SpecialNames :=
  match v.sets.find? (·.1 == name) with
  | some (_, s) => s
  | none => {}

/-- Replaces the special names of a composite type. -/
def set (v : Vocabulary) (name : String) (s : SpecialNames) : Vocabulary :=
  if v.sets.any (·.1 == name) then ⟨v.sets.map fun e => if e.1 == name then (name, s) else e⟩
  else ⟨v.sets ++ [(name, s)]⟩

end Vocabulary

namespace Registry

/-- The name in data of an attribute of a composite type. -/
def externalName (r : Registry) (vocab : Vocabulary) (typeName internal : String) : String :=
  match r.composite typeName with
  | .ok c => c.externalName (vocab.get typeName) internal
  | .error _ => Naming.snakeToPascal internal (vocab.get typeName)

/-- The attribute name of a name in data, for a composite type; the type's special names may
grow. -/
def internalName (r : Registry) (vocab : Vocabulary) (typeName external : String) :
    String × Vocabulary :=
  match r.composite typeName with
  | .ok c =>
    let (name, s) := c.internalName (vocab.get typeName) external
    (name, vocab.set typeName s)
  | .error _ => (external, vocab)

end Registry

end SchemaTypes
