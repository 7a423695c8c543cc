import SchemaTypes.Number.Shortest

/-!
# Writing doubles as text

Two styles of text share the shortest digits of `Binary.shortest` and differ only in a few
decisions, kept as one record each: which exponents of the leading digit are written
positionally, whether a positive exponent carries a `+`, and how an exact tie between two
shortest candidates is settled. Positional text always shows a fractional part (`3.0`);
scientific text shows the digits with a point after the first (`1.5e-7`, `1e16`).
-/

namespace SchemaTypes.Number

/-- The decisions that tell one style of number text from another. -/
structure FloatStyle where
  /-- least exponent of the leading digit written positionally -/
  minPositional : Int
  /-- greatest exponent of the leading digit written positionally -/
  maxPositional : Int
  /-- whether a nonnegative exponent is written with a `+` -/
  plusSign : Bool
  /-- how a tie between two shortest candidates goes -/
  tie : Tie

/-- Debug text: positional from `1e-4` up to below `1e16`, a bare exponent, ties upwards. -/
def FloatStyle.debug : FloatStyle :=
  { minPositional := -4, maxPositional := 15, plusSign := false, tie := .up }

/-- JSON text: positional from `1e-5` up to below `1e16`, a signed exponent, ties to even. -/
def FloatStyle.json : FloatStyle :=
  { minPositional := -5, maxPositional := 15, plusSign := true, tie := .even }

/-- Plain text: positional at every magnitude, ties upwards; every double's leading digit has
an exponent between `-324` and `308`. -/
def FloatStyle.plain : FloatStyle :=
  { minPositional := -400, maxPositional := 400, plusSign := false, tie := .up }

/-- Digits `ds` scaled by `10 ^ k`, written with a decimal point and at least one fractional
digit. -/
def positionalText (ds : List Char) (k : Int) : List Char :=
  if k ≥ 0 then ds ++ List.replicate k.toNat '0' ++ ['.', '0']
  else
    let point : Int := ds.length + k
    if point > 0 then ds.take point.toNat ++ '.' :: ds.drop point.toNat
    else ['0', '.'] ++ List.replicate (-point).toNat '0' ++ ds

/-- Digits `ds` with the point after the first digit and the exponent `lead`. -/
def scientificText (ds : List Char) (lead : Int) (plusSign : Bool) : List Char :=
  let mantissa := match ds with
    | [] => ['0']
    | [d] => [d]
    | d :: rest => d :: '.' :: rest
  let sign := if lead < 0 then ['-'] else if plusSign then ['+'] else []
  mantissa ++ 'e' :: sign ++ Nat.toDigits 10 lead.natAbs

/-- The text of a double in the given style. Not-a-number is `NaN` and the infinities are
`inf` and `-inf`; zero keeps its sign. -/
def FloatStyle.render (style : FloatStyle) (x : Float) : String :=
  if x.isNaN then "NaN"
  else if x.isInf then (if x < 0 then "-inf" else "inf")
  else
    let b := Binary.ofFloat x
    let sign : List Char := if b.negative then ['-'] else []
    if b.mantissa = 0 then String.ofList (sign ++ ['0', '.', '0'])
    else
      let d := b.shortest style.tie
      let ds := Nat.toDigits 10 d.digits
      let lead : Int := d.exponent + ds.length - 1
      if style.minPositional ≤ lead ∧ lead ≤ style.maxPositional then
        String.ofList (sign ++ positionalText ds d.exponent)
      else String.ofList (sign ++ scientificText ds lead style.plusSign)

/-- Debug text of a double. -/
def debugText (x : Float) : String := FloatStyle.debug.render x

/-- Plain positional text of a double, always with a fractional part. -/
def plainText (x : Float) : String := FloatStyle.plain.render x

/-- JSON text of a finite double. -/
def jsonText (x : Float) : String := FloatStyle.json.render x

end SchemaTypes.Number
