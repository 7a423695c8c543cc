import Mathlib.Data.Finset.Card
import Mathlib.Logic.Relation
import SchemaTypes.Proofs.CastSoundness

/-! # Subtyping is reachability along parents

`Registry.isSubtype child ancestor` is a depth-first search over parents: a stack of names to
look at, which starts as `child`, and the names whose parents it has already pushed. This
module shows that the search decides reachability: it answers `true` exactly when `ancestor`
is `child` or is reached from it by following `parentsOf` any number of times, whatever the
parent links are, cycles included. It always answers: `searchParents` is accepted with the
measure of its definition, the composite types not yet seen and then the length of the stack.

The loop invariant is `Frontier`: every parent of a seen name is seen or pending, and
`ancestor` is not seen. Under it the search finds `ancestor` exactly when it is reached from a
pending name (`searchParents_iff`). A name skipped because it is seen loses nothing: a path from
it to `ancestor` must leave the seen names, and the first name outside them is pending
(`Frontier.escape`).

The second half keeps a round-by-round description of the same set, `lineage`, the list of a
name's ancestors gathered breadth first, and shows that `isSubtype` asks whether `ancestor` is
in it (`isSubtype_eq_lineage_contains`). Its proof has the shape of a breadth-first search
proof: what the rounds gather is reachable (`mem_reach_inherits`); they stop only on a set
closed under parents, and they cannot run out first, since each round that finds something new
completes one more composite type, a type that is in the set together with all its parents
(`reach_closed`).
-/

namespace SchemaTypes.Registry

variable {r : Registry}

/-- `parent` is a parent of the composite type `child`, the first of that name; a name that is
no composite type has no parents. -/
def HasParent (r : Registry) (child parent : String) : Prop := parent ∈ r.parentsOf child

/-! ## The depth-first search -/

/-- The invariant of the search for `ancestor`: the parents of a seen name are seen or still
pending, and `ancestor` has not been seen. -/
structure Frontier (r : Registry) (ancestor : String) (pending seen : List String) : Prop where
  closed : ∀ n ∈ seen, ∀ p ∈ r.parentsOf n, p ∈ seen ∨ p ∈ pending
  unseen : ancestor ∉ seen

theorem Frontier.start (ancestor child : String) : r.Frontier ancestor [child] [] :=
  ⟨by simp, by simp⟩

/-- Skipping a seen name keeps the invariant. -/
theorem Frontier.skip {ancestor current : String} {rest seen : List String}
    (inv : r.Frontier ancestor (current :: rest) seen) (old : current ∈ seen) :
    r.Frontier ancestor rest seen := by
  refine ⟨fun n member p parent => ?_, inv.unseen⟩
  rcases inv.closed n member p parent with found | pending
  · exact .inl found
  · rcases List.mem_cons.mp pending with rfl | later
    · exact .inl old
    · exact .inr later

/-- Marking a name other than `ancestor` seen and pushing its parents keeps the invariant. -/
theorem Frontier.expand {ancestor current : String} {rest seen : List String}
    (inv : r.Frontier ancestor (current :: rest) seen) (other : current ≠ ancestor) :
    r.Frontier ancestor ((r.parentsOf current).reverse ++ rest) (seen ++ [current]) := by
  refine ⟨fun n member p parent => ?_, by simpa [Ne.symm other] using inv.unseen⟩
  rcases List.mem_append.mp member with old | new
  · rcases inv.closed n old p parent with found | pending
    · exact .inl (List.mem_append_left _ found)
    · rcases List.mem_cons.mp pending with rfl | later
      · exact .inl (by simp)
      · exact .inr (List.mem_append_right _ later)
  · obtain rfl := List.mem_singleton.mp new
    exact .inr (List.mem_append_left _ (List.mem_reverse.mpr parent))

/-- A path from a seen name to `ancestor` leaves the seen names through a pending one. -/
theorem Frontier.escape {ancestor : String} {pending seen : List String}
    (inv : r.Frontier ancestor pending seen) {x : String}
    (path : Relation.ReflTransGen r.HasParent x ancestor) (member : x ∈ seen) :
    ∃ y ∈ pending, Relation.ReflTransGen r.HasParent y ancestor := by
  induction path using Relation.ReflTransGen.head_induction_on with
  | refl => exact absurd member inv.unseen
  | head parent rest ih =>
    rcases inv.closed _ member _ parent with found | pending
    · exact ih found
    · exact ⟨_, pending, rest⟩

/-- Under its invariant, the search finds `ancestor` exactly when a pending name reaches it. -/
theorem searchParents_iff {ancestor : String} {pending seen : List String}
    (inv : r.Frontier ancestor pending seen) :
    r.searchParents ancestor pending seen = true ↔
      ∃ x ∈ pending, Relation.ReflTransGen r.HasParent x ancestor := by
  fun_induction r.searchParents ancestor pending seen with
  | case1 seen => simp
  | case2 seen current rest found =>
    simp only [beq_iff_eq] at found
    exact ⟨fun _ => ⟨current, List.mem_cons_self, found ▸ .refl⟩, fun _ => rfl⟩
  | case3 seen current rest other old ih =>
    have old : current ∈ seen := by simpa using old
    rw [ih (inv.skip old)]
    -- a path from the skipped name is found again from a name still pending
    constructor
    · intro ⟨x, member, path⟩
      exact ⟨x, List.mem_cons_of_mem _ member, path⟩
    · intro ⟨x, member, path⟩
      rcases List.mem_cons.mp member with rfl | later
      · exact (inv.skip old).escape path old
      · exact ⟨x, later, path⟩
  | case4 seen current rest other fresh ih =>
    have other : current ≠ ancestor := by simpa using other
    rw [ih (inv.expand other)]
    constructor
    · intro ⟨x, member, path⟩
      rcases List.mem_append.mp member with parent | later
      · exact ⟨current, List.mem_cons_self, .head (List.mem_reverse.mp parent) path⟩
      · exact ⟨x, List.mem_cons_of_mem _ later, path⟩
    · intro ⟨x, member, path⟩
      rcases List.mem_cons.mp member with rfl | later
      · -- `x` is not `ancestor`, so the path goes on through one of its parents
        rcases Relation.ReflTransGen.cases_head path with same | ⟨p, parent, rest⟩
        · exact absurd same other
        · exact ⟨p, List.mem_append_left _ (List.mem_reverse.mpr parent), rest⟩
      · exact ⟨x, List.mem_append_right _ later, path⟩

/-- The search from a single name finds exactly what that name reaches. -/
theorem searchParents_start_iff (child ancestor : String) :
    r.searchParents ancestor [child] [] = true ↔ Relation.ReflTransGen r.HasParent child ancestor := by
  rw [searchParents_iff (Frontier.start ancestor child)]
  simp

/-- A name is a subtype of another exactly when following parents from the first, zero or
more times, reaches the second. -/
theorem isSubtype_iff_inherits (child ancestor : String) :
    r.isSubtype child ancestor = true ↔ Relation.ReflTransGen r.HasParent child ancestor := by
  unfold isSubtype
  split
  · next same =>
    rw [beq_iff_eq.mp same]
    exact ⟨fun _ => .refl, fun _ => rfl⟩
  · exact searchParents_start_iff child ancestor

/-! ## The ancestors round by round -/

/-- Every parent of a name in the list is in the list. -/
def ParentsClosed (r : Registry) (names : List String) : Prop :=
  ∀ n ∈ names, ∀ p ∈ r.parentsOf n, p ∈ names

/-- Appends a name unless it is present: how the walk collects names. -/
def addNew (acc : List String) (p : String) : List String :=
  if acc.contains p then acc else acc ++ [p]

/-- One round of the walk: the names so far, then every parent of one of them that is not
among them yet, in the order met. -/
def widen (r : Registry) (names : List String) : List String :=
  names.foldl (fun acc n => (r.parentsOf n).foldl addNew acc) names

/-- The names reachable from `names` by following parents at most `steps` times, a round at a
time; the rounds stop early once one adds nothing. -/
def reach (r : Registry) (names : List String) : Nat → List String
  | 0 => names
  | k + 1 => if (r.widen names).length = names.length then names else reach r (r.widen names) k

/-- The type itself and all its ancestors. Every round either completes a composite type or
ends the rounds, so as many rounds as there are composite types suffice. -/
def lineage (r : Registry) (name : String) : List String :=
  r.reach [name] (r.composites.length + 1)

theorem reach_succ (names : List String) (k : Nat) :
    r.reach names (k + 1) =
      if (r.widen names).length = names.length then names else r.reach (r.widen names) k :=
  rfl

/-! ## One round -/

theorem mem_foldl_addNew {x : String} :
    ∀ (ps acc : List String), x ∈ ps.foldl addNew acc ↔ x ∈ acc ∨ x ∈ ps
  | [], acc => by simp
  | p :: ps, acc => by
    rw [List.foldl_cons, mem_foldl_addNew ps]
    by_cases present : acc.contains p <;> simp only [addNew, present] <;> grind

theorem prefix_foldl_addNew : ∀ (ps acc : List String), acc <+: ps.foldl addNew acc
  | [], acc => List.prefix_refl acc
  | p :: ps, acc => by
    refine List.IsPrefix.trans ?_ (prefix_foldl_addNew ps _)
    unfold addNew
    split
    · exact List.prefix_refl acc
    · exact List.prefix_append acc [p]

theorem nodup_foldl_addNew : ∀ (ps acc : List String), acc.Nodup → (ps.foldl addNew acc).Nodup
  | [], _, distinct => distinct
  | p :: ps, acc, distinct => by
    apply nodup_foldl_addNew ps
    unfold addNew
    split
    · exact distinct
    · next absent =>
      have : p ∉ acc := by simpa using absent
      exact List.nodup_append.mpr ⟨distinct, List.nodup_singleton p, by grind⟩

/-- The rounds' fold over some names, from any start. -/
theorem mem_foldl_parents {x : String} : ∀ (xs acc : List String),
    x ∈ xs.foldl (fun acc n => (r.parentsOf n).foldl addNew acc) acc ↔
      x ∈ acc ∨ ∃ n ∈ xs, x ∈ r.parentsOf n
  | [], acc => by simp
  | n :: xs, acc => by
    rw [List.foldl_cons, mem_foldl_parents xs, mem_foldl_addNew]
    grind

theorem mem_widen {names : List String} {x : String} :
    x ∈ r.widen names ↔ x ∈ names ∨ ∃ n ∈ names, x ∈ r.parentsOf n :=
  mem_foldl_parents names names

theorem prefix_widen (names : List String) : names <+: r.widen names := by
  unfold widen
  -- every step of the fold extends what it started from
  suffices ∀ (xs acc : List String),
      acc <+: xs.foldl (fun acc n => (r.parentsOf n).foldl addNew acc) acc from this names names
  intro xs
  induction xs with
  | nil => exact List.prefix_refl
  | cons n xs ih => exact fun acc => (prefix_foldl_addNew _ acc).trans (ih _)

theorem nodup_widen {names : List String} (distinct : names.Nodup) : (r.widen names).Nodup := by
  unfold widen
  suffices ∀ (xs acc : List String), acc.Nodup →
      (xs.foldl (fun acc n => (r.parentsOf n).foldl addNew acc) acc).Nodup from
    this names names distinct
  intro xs
  induction xs with
  | nil => exact fun _ h => h
  | cons n xs ih => exact fun acc h => ih _ (nodup_foldl_addNew _ acc h)

/-- A round adds nothing exactly when the names are closed under parents. -/
theorem widen_length_eq_iff {names : List String} (distinct : names.Nodup) :
    (r.widen names).length = names.length ↔ r.ParentsClosed names := by
  obtain ⟨extra, grown⟩ := prefix_widen (r := r) names
  constructor
  · intro same n member p parent
    have : extra = [] := by
      rw [← grown, List.length_append] at same
      exact List.length_eq_zero_iff.mp (by omega)
    have found : p ∈ r.widen names := mem_widen.mpr (.inr ⟨n, member, parent⟩)
    simpa [← grown, this] using found
  · intro closed
    -- every added name is new, yet every name the round can add is already present
    have none : extra = [] := by
      refine List.eq_nil_iff_forall_not_mem.mpr fun x added => ?_
      have distinct' := nodup_widen (r := r) distinct
      rw [← grown] at distinct'
      have old : x ∈ names := by
        rcases mem_widen.mp (grown ▸ List.mem_append_right names added :
            x ∈ r.widen names) with old | ⟨n, member, parent⟩
        · exact old
        · exact closed n member x parent
      exact List.disjoint_of_nodup_append distinct' old added
    simp [← grown, none]

/-! ## Completed composite types -/

/-- The composite types among some names whose parents are all among them too. -/
def completed (r : Registry) (names : List String) : Finset String :=
  r.compositeNames.toFinset.filter fun u => u ∈ names ∧ ∀ p ∈ r.parentsOf u, p ∈ names

/-- Only a composite type has parents. -/
theorem mem_compositeNames_of_parent {n p : String} (parent : p ∈ r.parentsOf n) :
    n ∈ r.compositeNames.toFinset := by
  unfold parentsOf at parent
  split at parent
  · next c found =>
    have same : c.name = n := by simpa using List.find?_some found
    simpa [compositeNames, ← same] using ⟨c, List.mem_of_find?_eq_some found, rfl⟩
  · simp at parent

theorem card_compositeNames_le : r.compositeNames.toFinset.card ≤ r.composites.length := by
  simpa [compositeNames] using List.toFinset_card_le r.compositeNames

/-- A round that finds a new name completes one more composite type. -/
theorem completed_ssubset_widen {names : List String} (open_ : ¬ r.ParentsClosed names) :
    r.completed names ⊂ r.completed (r.widen names) := by
  obtain ⟨n, member, p, parent, missing⟩ : ∃ n ∈ names, ∃ p ∈ r.parentsOf n, p ∉ names := by
    simpa [ParentsClosed] using open_
  have kept : ∀ x ∈ names, x ∈ r.widen names := fun x h => mem_widen.mpr (.inl h)
  refine Finset.ssubset_iff_of_subset (fun u => ?_) |>.mpr ⟨n, ?_, ?_⟩
  · simp only [completed, Finset.mem_filter]
    exact fun ⟨named, present, parents⟩ => ⟨named, kept u present, fun q h => kept q (parents q h)⟩
  · simp only [completed, Finset.mem_filter]
    exact ⟨mem_compositeNames_of_parent parent, kept n member,
      fun q h => mem_widen.mpr (.inr ⟨n, member, h⟩)⟩
  · simp only [completed, Finset.mem_filter, not_and]
    exact fun _ _ parents => missing (parents p parent)

/-! ## The walk -/

/-- The walk ends on a closed set when it has more rounds than composite types it has yet to
complete. -/
theorem reach_closed : ∀ (k : Nat) (names : List String), names.Nodup →
    r.compositeNames.toFinset.card < (r.completed names).card + k → r.ParentsClosed (r.reach names k)
  | 0, names, _, bound => by
    have : (r.completed names).card ≤ r.compositeNames.toFinset.card :=
      Finset.card_le_card (Finset.filter_subset _ _)
    omega
  | k + 1, names, distinct, bound => by
    rw [reach_succ]
    split
    · next same => exact (widen_length_eq_iff distinct).mp same
    · next grew =>
      have open_ : ¬ r.ParentsClosed names := fun closed =>
        grew ((widen_length_eq_iff distinct).mpr closed)
      have more := Finset.card_lt_card (completed_ssubset_widen open_)
      exact reach_closed k _ (nodup_widen distinct) (by omega)

/-- Everything the walk gathers is reached from where it started. -/
theorem mem_reach_inherits {child : String} : ∀ (k : Nat) (names : List String),
    (∀ x ∈ names, Relation.ReflTransGen r.HasParent child x) →
      ∀ x ∈ r.reach names k, Relation.ReflTransGen r.HasParent child x
  | 0, _, reached => reached
  | k + 1, names, reached => by
    rw [reach_succ]
    split
    · exact reached
    · refine mem_reach_inherits k _ fun x member => ?_
      rcases mem_widen.mp member with old | ⟨n, from_, parent⟩
      · exact reached x old
      · exact (reached n from_).tail parent

/-- The rounds never lose a name they started from. -/
theorem subset_reach : ∀ (k : Nat) (names : List String), names ⊆ r.reach names k
  | 0, _ => List.Subset.refl _
  | k + 1, names => by
    rw [reach_succ]
    split
    · exact List.Subset.refl _
    · exact List.Subset.trans (prefix_widen names).subset (subset_reach k _)

/-- A set closed under parents holds everything its members reach. -/
theorem ParentsClosed.inherits_mem {names : List String} (closed : r.ParentsClosed names)
    {child ancestor : String} (start : child ∈ names)
    (path : Relation.ReflTransGen r.HasParent child ancestor) : ancestor ∈ names := by
  induction path with
  | refl => exact start
  | tail _ parent reached => exact closed _ reached _ parent

/-- The lineage of a name is closed under parents: the walk never runs out of rounds. -/
theorem lineage_closed (child : String) : r.ParentsClosed (r.lineage child) := by
  apply reach_closed _ _ (List.nodup_singleton child)
  have := card_compositeNames_le (r := r)
  omega

/-- A name's lineage holds exactly what it reaches along parents. -/
theorem mem_lineage_iff_inherits (child ancestor : String) :
    ancestor ∈ r.lineage child ↔ Relation.ReflTransGen r.HasParent child ancestor := by
  constructor
  · intro found
    refine mem_reach_inherits _ [child] (fun x start => ?_) ancestor found
    rw [List.mem_singleton.mp start]
  · intro path
    exact (lineage_closed child).inherits_mem (subset_reach _ [child] List.mem_cons_self) path

/-- The depth-first search answers what the round-by-round lineage holds. -/
theorem isSubtype_eq_lineage_contains (child ancestor : String) :
    r.isSubtype child ancestor = (r.lineage child).contains ancestor := by
  rw [Bool.eq_iff_iff, List.contains_iff_mem, mem_lineage_iff_inherits]
  unfold isSubtype
  split
  · next same => simpa [beq_iff_eq.mp same] using Relation.ReflTransGen.refl
  · exact searchParents_start_iff child ancestor

end SchemaTypes.Registry
