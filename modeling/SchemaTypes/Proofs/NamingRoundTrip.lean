import SchemaTypes.Proofs.LoadHistory

/-! # Converting names back

`pascalToSnake` converts a name only when its words join back into it; otherwise it records the
name as special and leaves it as it is, and `snakeToPascal` leaves special names as they are.
Converting a name and then converting the result back gives the name again, with one exception
that comes from one set of special names serving both directions: the snake form can itself be
special. Converting `id` records it, since its one word joins back to `Id`; from then on `Id`
still converts to `id`, and `id` converts back to `id`. That is the only exception
(`Naming.snakeToPascal_pascalToSnake`), however the special names grow in between.

The check that a name's words join back into it is made before the words are lowercased, so it
holds only for characters whose case mappings are simple (`Unicode.simpleCase`): one lowercase
character, itself lowercase, that capitalizes back to the capital of the original. Others slip
through the check: `İ` lowercases to `i` and a combining dot, which is not an identifier, and
the Kelvin sign lowercases to `k`, which capitalizes to the Latin `K`.
-/

namespace SchemaTypes

namespace Unicode

/-- The lowercase of a character, when it is one character. -/
def lowerOne (c : Char) : Char := (lowerChar c).headD c

/-- A character with a simple case mapping: its lowercase is one character of the same kind,
which is its own lowercase and has the same capital; the capital sigma, whose lowercase
depends on the characters around it, is not one. -/
def simpleCase (c : Char) : Bool :=
  c != 'Σ' && lowerChar c == [lowerOne c] && lowerChar (lowerOne c) == [lowerOne c] &&
    upperChar (lowerOne c) == upperChar c && isAlphabetic (lowerOne c) == isAlphabetic c &&
    isAlphanumeric (lowerOne c) == isAlphanumeric c

section Simple

variable {c : Char}

theorem simpleCase.not_sigma (simple : simpleCase c = true) : c ≠ 'Σ' := by
  simp only [simpleCase, Bool.and_eq_true, bne_iff_ne] at simple
  exact simple.1.1.1.1.1

theorem simpleCase.lower (simple : simpleCase c = true) : lowerChar c = [lowerOne c] := by
  simp only [simpleCase, Bool.and_eq_true, beq_iff_eq] at simple
  exact simple.1.1.1.1.2

theorem simpleCase.lower_lower (simple : simpleCase c = true) :
    lowerChar (lowerOne c) = [lowerOne c] := by
  simp only [simpleCase, Bool.and_eq_true, beq_iff_eq] at simple
  exact simple.1.1.1.2

theorem simpleCase.upper (simple : simpleCase c = true) :
    upperChar (lowerOne c) = upperChar c := by
  simp only [simpleCase, Bool.and_eq_true, beq_iff_eq] at simple
  exact simple.1.1.2

theorem simpleCase.alphabetic (simple : simpleCase c = true) :
    isAlphabetic (lowerOne c) = isAlphabetic c := by
  simp only [simpleCase, Bool.and_eq_true, beq_iff_eq] at simple
  exact simple.1.2

theorem simpleCase.alphanumeric (simple : simpleCase c = true) :
    isAlphanumeric (lowerOne c) = isAlphanumeric c := by
  simp only [simpleCase, Bool.and_eq_true, beq_iff_eq] at simple
  exact simple.2

end Simple

theorem simpleCase_underscore : simpleCase '_' = true := by decide

theorem lowerOne_underscore : lowerOne '_' = '_' := by decide

/-- Without a capital sigma, lowercasing a text needs no context. -/
theorem lowerWithContext_plain (cs : List Char) (noSigma : 'Σ' ∉ cs) :
    ∀ before, lowerWithContext before cs = cs.flatMap lowerChar := by
  induction cs with
  | nil => intro before; rfl
  | cons c rest inductionHypothesis =>
    intro before
    have here : c ≠ 'Σ' := fun same => noSigma (same ▸ List.mem_cons_self)
    rw [lowerWithContext, if_neg here, List.flatMap_cons,
      inductionHypothesis fun member => noSigma (List.mem_cons_of_mem _ member)]

theorem flatMap_lowerChar (cs : List Char) (simple : ∀ c ∈ cs, simpleCase c = true) :
    cs.flatMap lowerChar = cs.map lowerOne := by
  induction cs with
  | nil => rfl
  | cons c rest inductionHypothesis =>
    rw [List.flatMap_cons, simpleCase.lower (simple c List.mem_cons_self),
      inductionHypothesis fun d member => simple d (List.mem_cons_of_mem _ member)]
    rfl

theorem flatMap_lowerChar_lowered (cs : List Char) (simple : ∀ c ∈ cs, simpleCase c = true) :
    (cs.map lowerOne).flatMap lowerChar = cs.map lowerOne := by
  induction cs with
  | nil => rfl
  | cons c rest inductionHypothesis =>
    rw [List.map_cons, List.flatMap_cons, simpleCase.lower_lower (simple c List.mem_cons_self),
      inductionHypothesis fun d member => simple d (List.mem_cons_of_mem _ member)]
    rfl

/-- A text of characters with simple case mappings lowercases character by character. -/
theorem lowerText_simple (s : String) (simple : ∀ c ∈ s.toList, simpleCase c = true) :
    lowerText s = String.ofList (s.toList.map lowerOne) := by
  unfold lowerText
  rw [lowerWithContext_plain s.toList
      (fun member => simpleCase.not_sigma (simple 'Σ' member) rfl),
    flatMap_lowerChar s.toList simple]

end Unicode

namespace Naming

open Unicode

/-! ## Marking the words of a name

The two passes that mark words insert `_` and nothing else, and never in front. -/

theorem mem_markWords (cs : List Char) : ∀ c ∈ markWords cs, c ∈ cs ∨ c = '_' := by
  fun_induction markWords cs with
  | case1 a b c rest _ lowers inductionHypothesis =>
    intro d member
    simp only [List.cons_append, List.mem_cons, List.mem_append] at member
    rcases member with rfl | rfl | rfl | rfl | taken | later
    · exact .inl List.mem_cons_self
    · exact .inr rfl
    · simp
    · simp
    · exact .inl (by simp [(List.takeWhile_sublist _).subset taken])
    · rcases inductionHypothesis d later with dropped | underscore
      · exact .inl (by simp [List.mem_of_mem_drop dropped])
      · exact .inr underscore
  | case2 a b c rest _ inductionHypothesis =>
    intro d member
    rcases List.mem_cons.mp member with rfl | later
    · exact .inl List.mem_cons_self
    · rcases inductionHypothesis d later with earlier | underscore
      · exact .inl (List.mem_cons_of_mem _ earlier)
      · exact .inr underscore
  | case3 cs _ => exact fun d member => .inl member

theorem markWords_head? (cs : List Char) : (markWords cs).head? = cs.head? := by
  rw [markWords.eq_def]
  split
  · split <;> rfl
  · rfl

theorem mem_markCapitals (cs : List Char) : ∀ c ∈ markCapitals cs, c ∈ cs ∨ c = '_' := by
  fun_induction markCapitals cs with
  | case1 a b rest _ inductionHypothesis =>
    intro d member
    simp only [List.mem_cons] at member
    rcases member with rfl | rfl | rfl | later
    · exact .inl List.mem_cons_self
    · exact .inr rfl
    · simp
    · rcases inductionHypothesis d later with earlier | underscore
      · exact .inl (by simp [earlier])
      · exact .inr underscore
  | case2 a b rest _ inductionHypothesis =>
    intro d member
    rcases List.mem_cons.mp member with rfl | later
    · exact .inl List.mem_cons_self
    · rcases inductionHypothesis d later with earlier | underscore
      · exact .inl (List.mem_cons_of_mem _ earlier)
      · exact .inr underscore
  | case3 cs _ => exact fun d member => .inl member

theorem markCapitals_head? (cs : List Char) : (markCapitals cs).head? = cs.head? := by
  rw [markCapitals.eq_def]
  split
  · split <;> rfl
  · rfl

/-- The words of a name are its characters with `_` between some of them. -/
theorem mem_spaced {name : String} {c : Char} (member : c ∈ (spaced name).toList) :
    c ∈ name.toList ∨ c = '_' := by
  unfold spaced at member
  rw [String.toList_ofList] at member
  rcases mem_markCapitals _ c member with marked | underscore
  · exact mem_markWords _ c marked
  · exact .inr underscore

theorem spaced_head? (name : String) : (spaced name).toList.head? = name.toList.head? := by
  unfold spaced
  rw [String.toList_ofList, markCapitals_head?, markWords_head?]

/-! ## Joining lowercased words -/

theorem mem_underscorePieces {w : List Char} {c : Char} :
    ∀ {cs : List Char}, w ∈ underscorePieces cs → c ∈ w → c ∈ cs := by
  intro cs
  induction cs generalizing w with
  | nil =>
    intro piece member
    simp [underscorePieces] at piece
    simp [piece] at member
  | cons d rest inductionHypothesis =>
    intro piece member
    unfold underscorePieces at piece
    split at piece
    · rcases List.mem_cons.mp piece with rfl | later
      · cases member
      · exact List.mem_cons_of_mem _ (inductionHypothesis later member)
    · split at piece
      · next w' ws pieces =>
        rcases List.mem_cons.mp piece with rfl | later
        · rcases List.mem_cons.mp member with rfl | inner
          · exact List.mem_cons_self
          · exact List.mem_cons_of_mem _
              (inductionHypothesis (pieces ▸ List.mem_cons_self) inner)
        · exact List.mem_cons_of_mem _ (inductionHypothesis (pieces ▸ List.mem_cons_of_mem _ later) member)
      · next pieces =>
        simp only [List.mem_singleton] at piece
        subst piece
        rcases List.mem_singleton.mp member with rfl
        exact List.mem_cons_self

/-- Mapping characters in a way that keeps `_` and keeps away from it maps each piece. -/
theorem underscorePieces_map {L : Char → Char} :
    ∀ {cs : List Char}, (∀ c ∈ cs, (L c = '_') = (c = '_')) →
      underscorePieces (cs.map L) = (underscorePieces cs).map (·.map L) := by
  intro cs
  induction cs with
  | nil => intro _; rfl
  | cons c rest inductionHypothesis =>
    intro keeps
    have here := keeps c List.mem_cons_self
    have rest' := inductionHypothesis fun d member => keeps d (List.mem_cons_of_mem _ member)
    simp only [List.map_cons, underscorePieces, here, rest']
    split
    · rfl
    · cases underscorePieces rest <;> rfl

/-- Capitalizing a word of characters with simple case mappings gives the same as
capitalizing its lowercase. -/
theorem capitalize_lowered {w : List Char} (simple : ∀ c ∈ w, simpleCase c = true) :
    capitalize (String.ofList (w.map lowerOne)) = capitalize (String.ofList w) := by
  cases w with
  | nil => rfl
  | cons c rest =>
    unfold capitalize
    simp only [String.toList_ofList, List.map_cons]
    have restSimple : ∀ d ∈ rest, simpleCase d = true :=
      fun d member => simple d (List.mem_cons_of_mem _ member)
    -- each later character lowercases to itself once lowercased
    have again : (rest.map lowerOne).flatMap lowerChar = rest.flatMap lowerChar := by
      rw [flatMap_lowerChar_lowered rest restSimple, flatMap_lowerChar rest restSimple]
    rw [simpleCase.upper (simple c List.mem_cons_self), again]

/-- The lowercase of marked words of simple characters joins as the words do. -/
theorem pascalJoin_lowered {cs : List Char} (simple : ∀ c ∈ cs, simpleCase c = true)
    (apart : ∀ c ∈ cs, (lowerOne c = '_') = (c = '_')) :
    pascalJoin (String.ofList (cs.map lowerOne)) = pascalJoin (String.ofList cs) := by
  unfold pascalJoin
  rw [String.toList_ofList, String.toList_ofList, underscorePieces_map apart, List.map_map]
  congr 1
  exact List.map_congr_left fun w piece =>
    capitalize_lowered fun c member => simple c (mem_underscorePieces piece member)

/-! ## Converting back -/

theorem mem_insertSorted_self (name : String) :
    ∀ names : List String, name ∈ SpecialNames.insertSorted name names := by
  intro names
  induction names with
  | nil => exact List.mem_singleton_self name
  | cons n rest inductionHypothesis =>
    unfold SpecialNames.insertSorted
    split
    · exact List.mem_cons_self
    · split
      · next same => rw [same]; exact List.mem_cons_self
      · exact List.mem_cons_of_mem _ inductionHypothesis

/-- What converting a name finds when it splits the name into words. -/
theorem splitWords_some {name words : String} {special s : SpecialNames}
    (split : splitWords name special true = (some words, s)) :
    words = spaced name ∧ s = special ∧ isIdentifier name = true ∧
      name.toList.contains '_' = false ∧ pascalJoin (spaced name) = name := by
  unfold splitWords at split
  by_cases leaves : (!isIdentifier name || special.contains name) = true
  · rw [if_pos leaves] at split
    cases split
  rw [if_neg leaves] at split
  by_cases underscore : name.toList.contains '_' = true
  · rw [if_pos underscore] at split
    cases split
  rw [if_neg underscore] at split
  by_cases differs : (true && pascalJoin (spaced name) != name) = true
  · simp only [if_pos differs] at split
    cases split
  simp only [if_neg differs, Prod.mk.injEq, Option.some.injEq] at split
  simp only [Bool.or_eq_true, Bool.not_eq_true', not_or, Bool.not_eq_false] at leaves
  simp only [Bool.true_and, bne_iff_ne, ne_eq, Decidable.not_not] at differs
  exact ⟨split.1.symm, split.2.symm, leaves.1, Bool.eq_false_iff.mpr underscore, differs⟩

/-- A name that converting does not split is no identifier, or special afterwards. -/
theorem splitWords_none {name : String} {special s : SpecialNames}
    (split : splitWords name special true = (none, s)) :
    isIdentifier name = false ∨ s.contains name = true := by
  have inserted : (special.insert name).contains name = true :=
    contains_eq_true.mpr (mem_insertSorted_self name special.names)
  unfold splitWords at split
  by_cases leaves : (!isIdentifier name || special.contains name) = true
  · rw [if_pos leaves] at split
    cases split
    simpa only [Bool.or_eq_true, Bool.not_eq_true'] using leaves
  rw [if_neg leaves] at split
  by_cases underscore : name.toList.contains '_' = true
  · rw [if_pos underscore] at split
    cases split
    exact .inr inserted
  rw [if_neg underscore] at split
  by_cases differs : (true && pascalJoin (spaced name) != name) = true
  · simp only [if_pos differs] at split
    cases split
    exact .inr inserted
  simp only [if_neg differs] at split
  cases split

/-- The characters of the words of an identifier without `_`: the first is a letter, and
every one is `_` or a letter or digit with a simple case mapping when the name's are. -/
theorem spaced_chars {name : String} (ident : isIdentifier name = true)
    (noUnderscore : name.toList.contains '_' = false)
    (simple : ∀ c ∈ name.toList, simpleCase c = true) :
    ∃ first more, (spaced name).toList = first :: more ∧ isAlphabetic first = true ∧
      ∀ c ∈ (spaced name).toList, c = '_' ∨ (isAlphanumeric c = true ∧ simpleCase c = true) := by
  cases named : name.toList with
  | nil => simp [isIdentifier, named] at ident
  | cons first rest =>
    have own : ∀ c ∈ name.toList, isAlphanumeric c = true ∧ simpleCase c = true := by
      intro c member
      have notUnderscore : c ≠ '_' := fun same => by
        simp only [List.contains_iff_mem, Bool.eq_false_iff, ne_eq] at noUnderscore
        exact noUnderscore (same ▸ member)
      simp only [isIdentifier, named, Bool.and_eq_true, Bool.or_eq_true, List.all_eq_true,
        decide_eq_true_eq] at ident
      rw [named] at member
      rcases List.mem_cons.mp member with rfl | later
      · rcases ident.1 with letter | underscore
        · exact ⟨by simp [isAlphanumeric, letter], simple _ (named ▸ List.mem_cons_self)⟩
        · exact absurd underscore notUnderscore
      · rcases ident.2 c later with alphanumeric | underscore
        · exact ⟨alphanumeric, simple _ (named ▸ List.mem_cons_of_mem _ later)⟩
        · exact absurd underscore notUnderscore
    have starts := spaced_head? name
    rw [named] at starts
    cases spacedNamed : (spaced name).toList with
    | nil => simp [spacedNamed] at starts
    | cons first' more =>
      rw [spacedNamed] at starts
      cases starts
      refine ⟨first, more, rfl, ?_, fun c member => ?_⟩
      · simp only [isIdentifier, named, Bool.and_eq_true, Bool.or_eq_true,
          decide_eq_true_eq] at ident
        rcases ident.1 with letter | underscore
        · exact letter
        · exact absurd (underscore ▸ named ▸ List.mem_cons_self : '_' ∈ name.toList)
            (by simpa [List.contains_iff_mem] using noUnderscore)
      · rcases mem_spaced (spacedNamed ▸ member) with original | underscore
        · exact .inr (own c original)
        · exact .inl underscore

section Spaced

variable {name : String} (ident : isIdentifier name = true)
  (noUnderscore : name.toList.contains '_' = false)
  (simple : ∀ c ∈ name.toList, simpleCase c = true)
include ident noUnderscore simple

theorem spaced_simple : ∀ c ∈ (spaced name).toList, simpleCase c = true := by
  obtain ⟨-, -, -, -, chars⟩ := spaced_chars ident noUnderscore simple
  intro c member
  rcases chars c member with rfl | ⟨-, simple'⟩
  · exact simpleCase_underscore
  · exact simple'

/-- Lowercasing the spaced form keeps `_` and every other character away from it. -/
theorem spaced_lower_apart : ∀ c ∈ (spaced name).toList, (lowerOne c = '_') = (c = '_') := by
  obtain ⟨-, -, -, -, chars⟩ := spaced_chars ident noUnderscore simple
  intro c member
  rcases chars c member with rfl | ⟨alphanumeric, simple'⟩
  · simp [lowerOne_underscore]
  · have lowered : isAlphanumeric (lowerOne c) = true :=
      (simpleCase.alphanumeric simple').trans alphanumeric
    have notLowered : lowerOne c ≠ '_' := fun same => by
      rw [same] at lowered
      exact absurd lowered (by decide)
    have notOriginal : c ≠ '_' := fun same => by
      rw [same] at alphanumeric
      exact absurd alphanumeric (by decide)
    simp [notLowered, notOriginal]

/-- The spaced form lowercased character by character is an identifier again. -/
theorem spaced_lowered_identifier :
    isIdentifier (String.ofList ((spaced name).toList.map lowerOne)) = true := by
  obtain ⟨first, more, spacedNamed, letter, chars⟩ := spaced_chars ident noUnderscore simple
  have spacedSimple := spaced_simple ident noUnderscore simple
  unfold isIdentifier
  rw [String.toList_ofList, spacedNamed, List.map_cons]
  simp only [Bool.and_eq_true, Bool.or_eq_true, List.all_eq_true, decide_eq_true_eq]
  refine ⟨.inl ((simpleCase.alphabetic (spacedSimple first
    (spacedNamed ▸ List.mem_cons_self))).trans letter), fun d member => ?_⟩
  obtain ⟨c, original, rfl⟩ := List.mem_map.mp member
  rcases chars c (spacedNamed ▸ List.mem_cons_of_mem _ original) with rfl | ⟨alnum, simple'⟩
  · exact .inr lowerOne_underscore
  · exact .inl ((simpleCase.alphanumeric simple').trans alnum)

end Spaced

/-- One step of growth of the special names: converting some name. -/
def Converts (special special' : SpecialNames) : Prop :=
  ∃ name, (pascalToSnake name special).2 = special'

/-- Converting names only adds special names. -/
theorem converts_keeps {special special' : SpecialNames}
    (grows : Relation.ReflTransGen Converts special special') :
    ∀ x ∈ special.names, x ∈ special'.names := by
  induction grows with
  | refl => exact fun _ member => member
  | tail _ step inductionHypothesis =>
    obtain ⟨name, rfl⟩ := step
    intro x member
    rcases pascalToSnake_adds name _ with same | ⟨inserted, -⟩
    · rw [same]
      exact inductionHypothesis x member
    · rw [inserted]
      exact mem_insertSorted_of_mem (inductionHypothesis x member)

/-- Converting a name and converting the result back gives the name again, whatever names are
converted in between, unless the converted name has become special, in which case it comes
back as it is; for names of characters with simple case mappings. -/
theorem snake_round_trip (special later : SpecialNames) (name : String)
    (simple : ∀ c ∈ name.toList, simpleCase c = true)
    (grows : Relation.ReflTransGen Converts (pascalToSnake name special).2 later) :
    snakeToPascal (pascalToSnake name special).1 later =
      if later.contains (pascalToSnake name special).1 then (pascalToSnake name special).1
      else name := by
  have grown := converts_keeps grows
  rw [pascalToSnake_eq] at grown ⊢
  cases split : splitWords name special true with
  | mk words s =>
    rw [split] at grown
    cases words with
    | none =>
      -- the name is left as it is: it is no identifier, or special from then on
      simp only [Option.map_none, Option.getD_none]
      unfold snakeToPascal
      rcases splitWords_none split with notIdentifier | known
      · simp [notIdentifier]
      · have stays : later.contains name = true :=
          contains_eq_true.mpr (grown name (contains_eq_true.mp known))
        simp [stays]
    | some w =>
      obtain ⟨rfl, rfl, identifier, noUnderscore, joins⟩ := splitWords_some split
      have spacedSimple := spaced_simple identifier noUnderscore simple
      have snakeIdentifier := spaced_lowered_identifier identifier noUnderscore simple
      simp only [Option.map_some, Option.getD_some]
      rw [lowerText_simple _ spacedSimple]
      unfold snakeToPascal
      by_cases known : later.contains (String.ofList ((spaced name).toList.map lowerOne)) = true
      · simp [known]
      · simp only [snakeIdentifier, known, Bool.not_true, Bool.or_false, Bool.false_eq_true,
          if_false]
        rw [pascalJoin_lowered spacedSimple (spaced_lower_apart identifier noUnderscore simple),
          String.ofList_toList, joins]

end Naming

theorem sample_mass_round_trip :
    (∀ c ∈ "SampleMass".toList, Unicode.simpleCase c = true) ∧
      Naming.snakeToPascal (Naming.pascalToSnake "SampleMass" {}).1
          (Naming.pascalToSnake "sample_mass" (Naming.pascalToSnake "SampleMass" {}).2).2 =
        if (Naming.pascalToSnake "sample_mass" (Naming.pascalToSnake "SampleMass" {}).2).2.contains
            (Naming.pascalToSnake "SampleMass" {}).1
        then (Naming.pascalToSnake "SampleMass" {}).1 else "SampleMass" := by
  have simple : ∀ c ∈ "SampleMass".toList, Unicode.simpleCase c = true :=
    List.all_eq_true.mp (by decide +kernel)
  exact ⟨simple, Naming.snake_round_trip {} _ "SampleMass" simple (.single ⟨"sample_mass", rfl⟩)⟩

/-- `id` does not join back into itself, so converting it makes it special; `Id` still
converts to `id`, which then comes back as `id`. -/
theorem snake_form_turns_special :
    Relation.ReflTransGen Naming.Converts {} (Naming.pascalToSnake "id" {}).2 ∧
      Naming.isIdentifier "Id" = true ∧
      Naming.snakeToPascal (Naming.pascalToSnake "Id" (Naming.pascalToSnake "id" {}).2).1
        (Naming.pascalToSnake "Id" (Naming.pascalToSnake "id" {}).2).2 ≠ "Id" :=
  ⟨.single ⟨"id", rfl⟩, by decide +kernel, by decide +kernel⟩

/-- The dotted capital I slips through the check: it lowercases to `i` and a combining dot,
which is no identifier and so does not convert back. -/
example : Unicode.simpleCase 'İ' = false ∧
    Naming.snakeToPascal (Naming.pascalToSnake "İ" {}).1 (Naming.pascalToSnake "İ" {}).2 ≠ "İ" := by
  decide +kernel

end SchemaTypes
