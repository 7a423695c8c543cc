/-!
# Code point tables

Unicode properties are kept as sorted lists of disjoint inclusive ranges of code points,
and case mappings as runs: a run maps every `stride`-th code point from `first` to `last`
by adding the same `shift`. Membership scans the ranges in order and stops at the first
range that starts above the code point, so a table is read exactly as it is written.
-/

namespace SchemaTypes.Unicode

/-- Whether code point `c` lies in one of the sorted, disjoint inclusive ranges. -/
def inRanges (c : Nat) : List (Nat × Nat) → Bool
  | [] => false
  | (lo, hi) :: rest => if c < lo then false else if c ≤ hi then true else inRanges c rest

/-- A run of a case mapping: the code points `first`, `first + stride`, … up to `last` each
map to the code point `shift` away. -/
structure CaseRun where
  first : Nat
  last : Nat
  stride : Nat
  shift : Int

/-- The image of `c` under the first run that covers it, if any. Runs are sorted by their
first code point, so the scan stops at a run that starts above `c`. -/
def mapByRuns (c : Nat) : List CaseRun → Option Nat
  | [] => none
  | r :: rest =>
    if c < r.first then none
    else if c ≤ r.last ∧ (c - r.first) % r.stride = 0 then some (Int.toNat (c + r.shift))
    else mapByRuns c rest

/-- The expansion listed for `c`, if any. -/
def lookupExpansion (c : Nat) : List (Nat × List Nat) → Option (List Nat)
  | [] => none
  | (k, v) :: rest => if k = c then some v else lookupExpansion c rest

end SchemaTypes.Unicode
