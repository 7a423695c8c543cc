import SchemaTypes.Schema.Definition

/-! # Reference names undo pointer escaping

A reference such as `#/$defs/A~1B~0C` names a definition by the last segment of a JSON
pointer, in which a name is written with every `~` as `~0` and then every `/` as `~1`
(`pointerSegment`). This module shows that `referenceName` reads every such segment back,
after any pointer before it: `referenceName (path ++ "/" ++ pointerSegment name) = name`.

Two orders matter. The escaped segment holds no `/`, so the last segment is the whole of it.
And the reading replaces `~1` before `~0`: in an escaped segment a `~` is always the start of
one of the two pairs, so the first pass turns exactly the written `/`s back and leaves every
`~0` whole, even one followed by a `1` of the name (`~01` for the name `~1`).
-/

namespace SchemaTypes

/-- Replaces every occurrence of one character by a text. -/
def replaceChar (c : Char) (rep : List Char) (cs : List Char) : List Char :=
  cs.flatMap fun x => if x = c then rep else [x]

/-- A name written as one segment of a JSON pointer: every `~` becomes `~0`, and then every
`/` becomes `~1`. -/
def pointerSegment (name : String) : String :=
  String.ofList (replaceChar '/' ['~', '1'] (replaceChar '~' ['~', '0'] name.toList))

/-! ## Replacing pairs -/

section ReplacePair

variable {a b : Char} {rep : List Char}

theorem replacePair_pair (rest : List Char) :
    replacePair a b rep (a :: b :: rest) = rep ++ replacePair a b rep rest := by
  simp [replacePair]

theorem replacePair_cons_of_ne {x : Char} (other : x ≠ a) (rest : List Char) :
    replacePair a b rep (x :: rest) = x :: replacePair a b rep rest := by
  cases rest with
  | nil => simp [replacePair]
  | cons y rest => simp [replacePair, other]

theorem replacePair_unpaired {y : Char} (other : y ≠ b) (rest : List Char) :
    replacePair a b rep (a :: y :: rest) = a :: replacePair a b rep (y :: rest) := by
  simp [replacePair, other]

end ReplacePair

/-! ## The two passes of reading -/

/-- How one character of a name is escaped. -/
def escapeChar (c : Char) : List Char :=
  if c = '~' then ['~', '0'] else if c = '/' then ['~', '1'] else [c]

/-- The two replacements of escaping act on each character at once. -/
theorem replaceChar_escape (cs : List Char) :
    replaceChar '/' ['~', '1'] (replaceChar '~' ['~', '0'] cs) = cs.flatMap escapeChar := by
  induction cs with
  | nil => rfl
  | cons c cs ih =>
    simp only [replaceChar, List.flatMap_cons] at ih ⊢
    rw [List.flatMap_append, ih]
    by_cases tilde : c = '~'
    · simp [tilde, escapeChar]
    · by_cases slash : c = '/' <;> simp [tilde, slash, escapeChar]

/-- Reading `~1` as `/` undoes the escaping of `/` and keeps every `~0`. -/
theorem replacePair_slash (cs : List Char) :
    replacePair '~' '1' ['/'] (cs.flatMap escapeChar) = replaceChar '~' ['~', '0'] cs := by
  induction cs with
  | nil => simp [replacePair, replaceChar]
  | cons c cs ih =>
    simp only [replaceChar, List.flatMap_cons] at ih ⊢
    by_cases tilde : c = '~'
    · -- `~0` is no `~1`, and its `0` starts no pair
      subst tilde
      simp only [escapeChar, List.cons_append, List.nil_append, if_true]
      rw [replacePair_unpaired (by decide), replacePair_cons_of_ne (by decide), ih]
    · by_cases slash : c = '/'
      · subst slash
        simp only [escapeChar, List.cons_append, List.nil_append, if_neg tilde, if_true]
        rw [replacePair_pair, ih]
        rfl
      · simp only [escapeChar, if_neg tilde, if_neg slash, List.cons_append, List.nil_append]
        rw [replacePair_cons_of_ne tilde, ih]

/-- Reading `~0` as `~` undoes the escaping of `~`. -/
theorem replacePair_tilde (cs : List Char) :
    replacePair '~' '0' ['~'] (replaceChar '~' ['~', '0'] cs) = cs := by
  induction cs with
  | nil => simp [replacePair, replaceChar]
  | cons c cs ih =>
    simp only [replaceChar, List.flatMap_cons] at ih ⊢
    by_cases tilde : c = '~'
    · subst tilde
      simp only [if_true, List.cons_append, List.nil_append]
      rw [replacePair_pair, ih]
      rfl
    · simp only [if_neg tilde, List.cons_append, List.nil_append]
      rw [replacePair_cons_of_ne tilde, ih]

/-! ## The last segment -/

/-- An escaped name holds no `/`. -/
theorem slash_not_mem_escape (cs : List Char) : '/' ∉ cs.flatMap escapeChar := by
  simp only [List.mem_flatMap, not_exists, not_and]
  intro c _
  unfold escapeChar
  split
  · decide
  · split
    · decide
    · simpa using fun same => ‹¬c = '/'› same.symm

/-- The last segment of a pointer that ends in an escaped name is that escaped name. -/
theorem lastSegment_pointer (path name : String) :
    ((path ++ "/" ++ pointerSegment name).toList.reverse.takeWhile (· ≠ '/')).reverse =
      name.toList.flatMap escapeChar := by
  have segment : (pointerSegment name).toList = name.toList.flatMap escapeChar := by
    rw [pointerSegment, String.toList_ofList, replaceChar_escape]
  have kept : ∀ c ∈ (name.toList.flatMap escapeChar).reverse, decide (c ≠ '/') = true := by
    intro c member
    have inside : c ∈ name.toList.flatMap escapeChar := List.mem_reverse.mp member
    have other : c ≠ '/' := fun same => slash_not_mem_escape name.toList (same ▸ inside)
    simpa using other
  simp only [String.toList_append, segment, List.reverse_append, List.append_assoc]
  rw [List.takeWhile_append_of_pos kept]
  simp

/-- The name a reference refers to is the name its pointer escaped last, whatever comes
before it. -/
theorem referenceName_pointer (path name : String) :
    referenceName (path ++ "/" ++ pointerSegment name) = name := by
  simp only [referenceName, lastSegment_pointer, replacePair_slash, replacePair_tilde,
    String.ofList_toList]

/-- The name `~1` is escaped as `~01`, whose `1` does not pair with the `~` before it. -/
example : referenceName "#/$defs/~01" = "~1" := by cbv

end SchemaTypes
