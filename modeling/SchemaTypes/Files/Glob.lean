import SchemaTypes.Files.Tree

/-! # Glob patterns

A glob pattern names files by the shape of their paths. Within a name, `?` stands for one
character, `*` for any run of characters, `[abc]` and `[a-z]` for one character of a set,
and `[!abc]` for one character outside it; every other character stands for itself, `{` and
`}` included. A whole component `**` stands for any number of directories.

A pattern is compiled before use, and three shapes are refused with the position of the
fault: three stars or more, a `**` that is not a whole component, and a `[` that no `]`
closes.

Expanding a pattern walks the tree component by component from the working directory. A
component without wildcards is taken as a name to look up; any other is matched against the
entries of the directory, in the order of their names, the first match being followed to
the end before the next is tried. A pattern that ends in a slash keeps only directories.
-/

namespace SchemaTypes.Files

/-- A character or a range of characters in a set. -/
inductive CharSpan where
  | single (c : Char)
  | range (lo hi : Char)

/-- One piece of a compiled pattern. -/
inductive GlobToken where
  | literal (c : Char)
  | anyChar
  | anySequence
  | anyDirectories
  | oneOf (spans : List CharSpan)
  | noneOf (spans : List CharSpan)

/-- A compiled pattern; `recursive` when it contains a whole component `**`. -/
structure GlobPattern where
  tokens : List GlobToken
  recursive : Bool

/-- A refused pattern: where the fault was found, counted in characters, and why. -/
structure GlobSyntaxError where
  position : Nat
  reason : String

/-- The wording of a refused pattern. -/
def GlobSyntaxError.message (e : GlobSyntaxError) : String :=
  "Pattern syntax error near position " ++ toString e.position ++ ": " ++ e.reason

/-- Why three stars are refused. -/
def starsReason : String := "wildcards are either regular \x60*\x60 or recursive \x60**\x60"

/-- Why a `**` inside a component is refused. -/
def directoriesReason : String := "recursive wildcards must form a single path component"

/-- Why an unclosed set is refused. -/
def rangeReason : String := "invalid range pattern"

/-- The spans of a set: `a-b` is a range, any other character stands alone. -/
def spansOf : List Char → List CharSpan
  | a :: '-' :: b :: rest => .range a b :: spansOf rest
  | a :: rest => .single a :: spansOf rest
  | [] => []

theorem length_dropWhile_le {α : Type} (p : α → Bool) (l : List α) :
    (l.dropWhile p).length ≤ l.length := by
  induction l with
  | nil => exact Nat.le_refl _
  | cons a l ih =>
    unfold List.dropWhile
    split
    · exact Nat.le_succ_of_le ih
    · exact Nat.le_refl _

theorem length_tail_le {α : Type} (l : List α) : l.tail.length ≤ l.length := by
  cases l <;> simp

theorem length_drop_le {α : Type} (n : Nat) (l : List α) : (l.drop n).length ≤ l.length := by
  rw [List.length_drop]
  exact Nat.sub_le _ _

/-- Compiles the characters of a pattern from position `pos`; `prev` is the character
before them. -/
def compileFrom (pos : Nat) (prev : Option Char) (acc : List GlobToken) (recursive : Bool) :
    List Char → Except GlobSyntaxError GlobPattern
  | [] => .ok ⟨acc, recursive⟩
  | '?' :: rest => compileFrom (pos + 1) (some '?') (acc ++ [.anyChar]) recursive rest
  | '*' :: rest =>
    let run := rest.takeWhile (· == '*')
    let after := rest.dropWhile (· == '*')
    have : after.length < rest.length + 1 := Nat.lt_succ_of_le (length_dropWhile_le _ rest)
    if run.length ≥ 2 then .error ⟨pos + 2, starsReason⟩
    else if run.length = 1 then
      if pos = 0 ∨ prev = some '/' then
        let skip := match acc.getLast? with
          | some .anyDirectories => acc.length > 1
          | _ => false
        let acc' := if skip then acc else acc ++ [.anyDirectories]
        let recursive' := recursive || !skip
        match after.head? with
        | some '/' =>
          have : after.tail.length < rest.length + 1 :=
            Nat.lt_of_le_of_lt (length_tail_le after) this
          compileFrom (pos + 3) (some '/') acc' recursive' after.tail
        | none => .ok ⟨acc', recursive'⟩
        | _ => .error ⟨pos + 2, directoriesReason⟩
      else .error ⟨pos - 1, directoriesReason⟩
    else compileFrom (pos + 1) (some '*') (acc ++ [.anySequence]) recursive after
  | '[' :: rest =>
    if rest.head? = some '!' then
      let body := rest.drop 1
      if body.length ≥ 2 then
        match (body.drop 1).findIdx? (· == ']') with
        | some j =>
          have : (body.drop (j + 2)).length < rest.length + 1 :=
            Nat.lt_succ_of_le (Nat.le_trans (length_drop_le _ _) (length_drop_le _ _))
          compileFrom (pos + j + 4) (some ']') (acc ++ [.noneOf (spansOf (body.take (j + 1)))])
            recursive (body.drop (j + 2))
        | none => .error ⟨pos, rangeReason⟩
      else .error ⟨pos, rangeReason⟩
    else if rest.length ≥ 2 then
      match (rest.drop 1).findIdx? (· == ']') with
      | some j =>
        have : (rest.drop (j + 2)).length < rest.length + 1 :=
          Nat.lt_succ_of_le (length_drop_le _ _)
        compileFrom (pos + j + 3) (some ']') (acc ++ [.oneOf (spansOf (rest.take (j + 1)))])
          recursive (rest.drop (j + 2))
      | none => .error ⟨pos, rangeReason⟩
    else .error ⟨pos, rangeReason⟩
  | c :: rest => compileFrom (pos + 1) (some c) (acc ++ [.literal c]) recursive rest
termination_by cs => cs.length
decreasing_by all_goals first | exact Nat.lt_succ_self _ | assumption

namespace GlobPattern

/-- Compiles a pattern. -/
def compile (text : String) : Except GlobSyntaxError GlobPattern :=
  compileFrom 0 none [] false text.toList

/-- Whether a character lies in a set. -/
def inSpans (spans : List CharSpan) (c : Char) : Bool :=
  spans.any fun
    | .single d => c == d
    | .range lo hi => lo ≤ c && c ≤ hi

/-- Whether one piece that is not a run takes a character. -/
def takes (t : GlobToken) (c : Char) : Bool :=
  match t with
  | .literal d => c == d
  | .anyChar => true
  | .oneOf spans => inSpans spans c
  | .noneOf spans => !inSpans spans c
  | .anySequence | .anyDirectories => false

/-- Every suffix of a list, the list itself first. -/
def suffixes {α : Type} : List α → List (List α)
  | [] => [[]]
  | a :: rest => (a :: rest) :: suffixes rest

/-- The suffixes of a text that start right after a slash. -/
def afterSlashes : List Char → List (List Char)
  | [] => []
  | c :: rest => (if c == '/' then [rest] else []) ++ afterSlashes rest

/-- Whether pieces match a whole text: a run takes any number of characters, a `**` run ends
only after a slash or takes nothing. -/
def matchTokens : List GlobToken → List Char → Bool
  | [], cs => cs.isEmpty
  | .anySequence :: ts, cs => (suffixes cs).any (matchTokens ts)
  | .anyDirectories :: ts, cs => (cs :: afterSlashes cs).any (matchTokens ts)
  | t :: ts, c :: cs => takes t c && matchTokens ts cs
  | _ :: _, [] => false

/-- Whether the pattern matches a whole name. -/
def accepts (p : GlobPattern) (name : String) : Bool := matchTokens p.tokens name.toList

/-- The name a pattern without wildcards stands for. -/
def literalText? (p : GlobPattern) : Option String :=
  (p.tokens.mapM fun (t : GlobToken) =>
    match t with
    | .literal c => some c
    | _ => none).map String.ofList

end GlobPattern

/-! ## Expansion -/

/-- A path met while expanding, and whether it is a directory. -/
structure Candidate where
  path : String
  isDir : Bool

/-- Work left while expanding: a path found, or a path to match against the remaining
components. -/
inductive GlobStep where
  | found (c : Candidate)
  | visit (c : Candidate) (rest : List GlobPattern)

/-- The candidate of a path in a tree. -/
def candidateAt (t : FileTree) (path : String) : Candidate := ⟨path, t.isDirectory path⟩

/-- The work for the components `pats` below a directory candidate, in the order it is
taken up last to first: a name without wildcards is looked up at once, any other component
lists the directory; `.` and `..` are also tried when the component begins with a dot. -/
def descend (t : FileTree) (dir : Candidate) : List GlobPattern → List GlobStep
  | [] => []
  | p :: more =>
    let onward (c : Candidate) : List GlobStep :=
      if more.isEmpty then [.found c] else descend t c more
    let here := PathPart.isCurrent dir.path
    match p.literalText? with
    | some name =>
      let special := name = "." ∨ name = ".."
      let next := if here then name else PathPart.join dir.path name
      if (special ∧ dir.isDir) ∨ (¬special ∧ t.present next) then onward (candidateAt t next)
      else []
    | none =>
      if dir.isDir then
        let entries := (t.listing dir.path).mergeSort fun a b => decide (b.1 ≤ a.1)
        let children := entries.map fun (name, isDir) =>
          GlobStep.visit ⟨if here then name else PathPart.join dir.path name, isDir⟩ (p :: more)
        let dots :=
          match p.tokens.head? with
          | some (.literal '.') =>
            [".", ".."].flatMap fun name =>
              if p.accepts name then onward (candidateAt t (PathPart.join dir.path name)) else []
          | _ => []
        children ++ dots
      else []

/-- Takes up the work, last pushed first, and lists the paths found. -/
def drain (t : FileTree) (dirsOnly : Bool) : Nat → List GlobStep → List String
  | 0, _ => []
  | _ + 1, [] => []
  | n + 1, .found c :: stack =>
    (if dirsOnly && !c.isDir then [] else [c.path]) ++ drain t dirsOnly n stack
  | n + 1, .visit c pats :: stack =>
    let matchRest (rest : List GlobPattern) (stack : List GlobStep) : List String :=
      match rest, PathPart.fileName? c.path with
      | q :: more, some name =>
        if q.accepts name then
          if more.isEmpty then
            (if dirsOnly && !c.isDir then [] else [c.path]) ++ drain t dirsOnly n stack
          else drain t dirsOnly n ((descend t c more).reverse ++ stack)
        else drain t dirsOnly n stack
      | _, _ => drain t dirsOnly n stack
    match pats with
    | p :: _ =>
      if p.recursive then
        let runs := pats.takeWhile (·.recursive)
        let after := pats.dropWhile (·.recursive)
        let fromLast := runs.drop (runs.length - 1) ++ after
        if c.isDir then
          let stack' := (descend t c fromLast).reverse ++ stack
          if after.isEmpty then c.path :: drain t dirsOnly n stack'
          else matchRest after stack'
        else if after.isEmpty then drain t dirsOnly n stack
        else matchRest after stack
      else matchRest pats stack
    | [] => drain t dirsOnly n stack

/-- The components of a pattern's text, split at slashes; a final empty component is
dropped. -/
def componentsOf (text : String) : List String :=
  match (slashNames text).reverse with
  | "" :: rest => rest.reverse
  | all => all.reverse

/-- The paths of a tree that a pattern names, in the order they are found. -/
def expand (t : FileTree) (text : String) : Except GlobSyntaxError (List String) := do
  let _ ← GlobPattern.compile text
  let (scope, body) := if text.startsWith "/" then ("/", String.ofList (text.toList.drop 1)) else (".", text)
  let pats ← (componentsOf body).mapM GlobPattern.compile
  let pats := if body.isEmpty && scope == "/" then pats ++ [⟨[], false⟩] else pats
  let fuel := Nat.pow (t.size + 3) (pats.length + 2) * (t.depth + 2)
  .ok (drain t (text.endsWith "/") fuel ((descend t (candidateAt t scope) pats).reverse))

end SchemaTypes.Files
