/-!
# Doubles as exact binary numbers

A finite double is a sign, an integer mantissa and a power of two. This module reads those
parts off the bits of a `Float`, and builds the double nearest to a positive fraction
`num / den` in exact integer arithmetic, a tie going to the even mantissa. Reading and writing
decimal text both rest on these two conversions, so neither depends on how the platform
prints or parses numbers.
-/

namespace SchemaTypes.Number

/-- A finite double as `mantissa * 2 ^ exponent` with its sign. `narrowBelow` marks the bottom
of a binade, where the next smaller double is only half as far away as the next larger one. -/
structure Binary where
  negative : Bool
  mantissa : Nat
  exponent : Int
  narrowBelow : Bool

/-- The parts of a finite double, read from its bits. -/
def Binary.ofFloat (x : Float) : Binary :=
  let bits : Nat := x.toBits.toNat
  let negative := bits / Nat.pow 2 63 = 1
  let biased : Nat := (bits / Nat.pow 2 52) % 2048
  let fraction : Nat := bits % Nat.pow 2 52
  if biased = 0 then
    { negative, mantissa := fraction, exponent := -1074, narrowBelow := false }
  else
    { negative, mantissa := fraction + Nat.pow 2 52, exponent := (biased : Int) - 1075,
      narrowBelow := fraction = 0 ∧ biased > 1 }

/-- The number of binary digits of `n`. -/
def bitLength (n : Nat) : Nat := if n = 0 then 0 else Nat.log2 n + 1

/-- The double with the given sign, biased exponent and fraction bits. -/
def assemble (negative : Bool) (biased fraction : Nat) : Float :=
  Float.ofBits
    (UInt64.ofNat ((if negative then Nat.pow 2 63 else 0) + biased * Nat.pow 2 52 + fraction))

/-- Infinity with the given sign. -/
def infinity (negative : Bool) : Float := assemble negative 2047 0

/-- Zero with the given sign. -/
def signedZero (negative : Bool) : Float := assemble negative 0 0

/-- `num * 2 ^ (-e) / den` as a quotient and remainder, for any integer `e`. -/
def scaledDivMod (num den : Nat) (e : Int) : Nat × Nat :=
  let a := num * Nat.pow 2 (-e).toNat
  let b := den * Nat.pow 2 e.toNat
  (a / b, a % b)

/-- The double nearest to `num / den`, with a tie going to the even mantissa; beyond the
largest double it is infinity. -/
def ofRatio (negative : Bool) (num den : Nat) : Float :=
  if num = 0 ∨ den = 0 then signedZero negative
  else
    let estimate : Int := (bitLength num : Int) - (bitLength den : Int) - 53
    let e0 := if (scaledDivMod num den estimate).1 ≥ Nat.pow 2 53 then estimate + 1 else estimate
    let e := if e0 < -1074 then -1074 else e0
    let (q, r) := scaledDivMod num den e
    let b := den * Nat.pow 2 e.toNat
    let up := 2 * r > b ∨ (2 * r = b ∧ q % 2 = 1)
    let q := if up then q + 1 else q
    let (q, e) := if q = Nat.pow 2 53 then (Nat.pow 2 52, e + 1) else (q, e)
    if q < Nat.pow 2 52 then assemble negative 0 q
    else
      let biased := e + 1075
      if biased ≥ 2047 then infinity negative
      else assemble negative biased.toNat (q - Nat.pow 2 52)

/-- The double nearest to `digits * 10 ^ exponent`. Exponents far outside the range of
doubles give zero or infinity without computing the power. -/
def ofDecimal (negative : Bool) (digits : Nat) (exponent : Int) : Float :=
  let size : Int := (Nat.toDigits 10 digits).length
  if digits = 0 then signedZero negative
  else if exponent + size < -330 then signedZero negative
  else if exponent + size > 330 then infinity negative
  else if exponent ≥ 0 then ofRatio negative (digits * Nat.pow 10 exponent.toNat) 1
  else ofRatio negative digits (Nat.pow 10 (-exponent).toNat)

/-- The double nearest to `10 ^ k`. -/
def powerOfTen (k : Nat) : Float := ofRatio false (Nat.pow 10 k) 1

/-- A double scaled by a power of ten in double arithmetic: multiplied by the double nearest
to `10 ^ e`, or divided by the one nearest to `10 ^ -e`. Below `10 ^ -308` the division by
`1e308` is made first, as often as needed, and zero stops it early. None when a product
overflows, or a nonzero double meets a power above `10 ^ 308`. -/
def scaleByTen (f : Float) (e : Int) : Option Float :=
  if e.natAbs ≤ 308 then
    if e ≥ 0 then
      let g := f * powerOfTen e.natAbs
      if g.isInf then none else some g
    else some (f / powerOfTen e.natAbs)
  else if f == 0 then some f
  else if e ≥ 0 then none
  else scaleByTen (f / powerOfTen 308) (e + 308)
termination_by e.natAbs
decreasing_by omega

/-- The double that a decimal `significand * 10 ^ exponent` becomes when the significand is
first rounded to a double and then scaled by the power of ten in double arithmetic. This is
faster than rounding once and may miss the nearest double by a unit in the last place, as
`45 * 10 ^ 25` gives `4.5000000000000005e26`. -/
def scaledDecimal (significand : Nat) (exponent : Int) : Option Float :=
  scaleByTen (ofRatio false significand 1) exponent

end SchemaTypes.Number
