/-! # Similar names

When a command line names something unknown, the known names most like it are offered
instead. Likeness is the Jaro similarity of the two texts, computed on characters in double
precision: characters match when they are equal and close enough in position, and the
similarity averages the share of matched characters in each text with the share of matches
that are in the same order. A name is offered when its similarity exceeds `0.7`; offers go
from the least to the most similar, ties in the order the names are known.
-/

namespace SchemaTypes.CommandLine

/-- Marks the first unmarked position of `bs` within `lo` and `hi` that holds `c`; the
result tells whether one was found. -/
def markMatch (bs : List Char) (c : Char) (lo hi : Nat) (marks : List Bool) : Bool × List Bool :=
  match (List.range' lo (hi - lo)).find? fun j => bs[j]? == some c && !marks.getD j false with
  | some j => (true, marks.set j true)
  | none => (false, marks)

/-- The Jaro similarity of two texts. -/
def jaro (a b : String) : Float :=
  let as := a.toList
  let bs := b.toList
  let la := as.length
  let lb := bs.length
  if la = 0 ∧ lb = 0 then 1.0
  else if la = 0 ∨ lb = 0 then 0.0
  else
    let reach := max la lb / 2 - 1
    let (aMarks, bMarks) := as.zipIdx.foldl (fun (aMarks, bMarks) (c, i) =>
      let (hit, bMarks') := markMatch bs c (i - reach) (min lb (i + reach + 1)) bMarks
      (aMarks ++ [hit], bMarks')) (([] : List Bool), List.replicate lb false)
    let picked (xs : List Char) (marks : List Bool) : List Char :=
      (xs.zip marks).filterMap fun (x, m) => if m then some x else none
    let aHits := picked as aMarks
    let bHits := picked bs bMarks
    let m := aHits.length
    let t := ((aHits.zip bHits).filter fun (x, y) => x != y).length / 2
    if m = 0 then 0.0
    else (m.toFloat / la.toFloat + m.toFloat / lb.toFloat + (m - t).toFloat / m.toFloat) / 3.0

/-- The known names like `name`, from the least to the most similar. -/
def similarNames (name : String) (known : List String) : List String :=
  let scored := (known.map fun k => (jaro name k, k)).filter fun (s, _) => s > 0.7
  (scored.mergeSort fun x y => x.1 ≤ y.1).map (·.2)

end SchemaTypes.CommandLine
