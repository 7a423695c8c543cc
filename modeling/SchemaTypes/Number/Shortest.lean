import SchemaTypes.Number.Binary

/-!
# Shortest decimal digits of a double

Every real number between the midpoints to a double's two neighbours reads back as that
double (the midpoints themselves do when the mantissa is even). The shortest decimal for the
double is found by trying grids of one, two, … seventeen significant digits: on each grid
only the two grid points around the value can lie in that interval, and the first grid with
one inside wins. Of two candidates the nearer wins; an exact tie is settled by a rule the
caller chooses. Seventeen digits always suffice for a double.

All arithmetic is on natural numbers: a comparison of `c * 10 ^ k` with `x * 2 ^ p` is
made after moving negative powers to the other side.
-/

namespace SchemaTypes.Number

/-- A decimal number `digits * 10 ^ exponent`. -/
structure Decimal where
  digits : Nat
  exponent : Int

/-- How an exact tie between two shortest candidates is settled. -/
inductive Tie where
  /-- the larger candidate wins -/
  | up
  /-- the candidate with an even last digit wins -/
  | even

/-- Compares `c * 10 ^ k` with `x * 2 ^ p`. -/
def compareScaled (c : Nat) (k : Int) (x : Nat) (p : Int) : Ordering :=
  compare (c * Nat.pow 10 k.toNat * Nat.pow 2 (-p).toNat)
    (x * Nat.pow 2 p.toNat * Nat.pow 10 (-k).toNat)

/-- Whether `c * 10 ^ k` lies between `lo * 2 ^ p` and `hi * 2 ^ p`, the ends included only
when `inclusive`. -/
def withinBounds (c : Nat) (k : Int) (lo hi : Nat) (p : Int) (inclusive : Bool) : Bool :=
  let above := match compareScaled c k lo p with
    | .gt => true
    | .eq => inclusive
    | .lt => false
  let below := match compareScaled c k hi p with
    | .lt => true
    | .eq => inclusive
    | .gt => false
  above && below

/-- The number of decimal digits of `n`. -/
def decimalLength (n : Nat) : Nat := (Nat.toDigits 10 n).length

/-- The exponent of the leading decimal digit of `m * 2 ^ q`, for `m > 0`. -/
def leadingExponent (m : Nat) (q : Int) : Int :=
  if q ≥ 0 then (decimalLength (m * Nat.pow 2 q.toNat) : Int) - 1
  else
    let d := Nat.pow 2 (-q).toNat
    if m ≥ d then (decimalLength (m / d) : Int) - 1
    else
      let j0 := decimalLength (d / m) - 1
      let j := if m * Nat.pow 10 j0 ≥ d then j0 else j0 + 1
      (-(j : Int))

/-- Removes trailing zero digits, raising the exponent to match. -/
def Decimal.normalize (d : Decimal) : Decimal :=
  if h : d.digits ≠ 0 ∧ d.digits % 10 = 0 then
    have : d.digits / 10 < d.digits := Nat.div_lt_self (Nat.pos_of_ne_zero h.1) (by decide)
    Decimal.normalize ⟨d.digits / 10, d.exponent + 1⟩
  else d
termination_by d.digits

/-- The candidate on the grid `10 ^ k` nearest the value `v * 2 ^ p` inside the bounds, if
either neighbour of the value on that grid lies inside. -/
def candidateOnGrid (v lo hi : Nat) (p k : Int) (inclusive : Bool) (tie : Tie) : Option Nat :=
  let below :=
    (v * Nat.pow 2 p.toNat * Nat.pow 10 (-k).toNat) / (Nat.pow 10 k.toNat * Nat.pow 2 (-p).toNat)
  let above := below + 1
  let inBelow := withinBounds below k lo hi p inclusive
  let inAbove := withinBounds above k lo hi p inclusive
  if inBelow && inAbove then
    match compareScaled (below + above) k (2 * v) p with
    | .gt => some below
    | .lt => some above
    | .eq =>
      match tie with
      | .up => some above
      | .even => some (if below % 2 = 0 then below else above)
  else if inBelow then some below
  else if inAbove then some above
  else none

/-- The first grid, from `digits` significant digits up to seventeen, with a candidate. -/
def searchGrids (v lo hi : Nat) (p e : Int) (inclusive : Bool) (tie : Tie) :
    (digits : Nat) → (fuel : Nat) → Decimal
  | digits, 0 =>
    let k := e - digits + 1
    ⟨(v * Nat.pow 2 p.toNat * Nat.pow 10 (-k).toNat) /
      (Nat.pow 10 k.toNat * Nat.pow 2 (-p).toNat), k⟩
  | digits, fuel + 1 =>
    let k := e - digits + 1
    match candidateOnGrid v lo hi p k inclusive tie with
    | some c => ⟨c, k⟩
    | none => searchGrids v lo hi p e inclusive tie (digits + 1) fuel

/-- The shortest decimal that reads back as the finite, nonzero double `b`, without its
sign and with no trailing zero digits. -/
def Binary.shortest (b : Binary) (tie : Tie) : Decimal :=
  let v := 4 * b.mantissa
  let hi := v + 2
  let lo := if b.narrowBelow then v - 1 else v - 2
  let p := b.exponent - 2
  let e := leadingExponent b.mantissa b.exponent
  (searchGrids v lo hi p e (b.mantissa % 2 = 0) tie 1 17).normalize

end SchemaTypes.Number
