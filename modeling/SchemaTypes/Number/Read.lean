import SchemaTypes.Number.Binary

/-!
# Reading decimal text as a double

The accepted text is an optional sign followed either by `inf`, `infinity` or `nan` in any
mix of case, or by a decimal number: digits with an optional point, at least one digit on
some side of it, and an optional exponent (`e` or `E`, an optional sign, digits). Nothing
else may stand before or after it. The value is the double nearest to the number written.
-/

namespace SchemaTypes.Number

/-- The quiet not-a-number. -/
def notANumber : Float := Float.ofBits 0x7FF8000000000000

/-- The value of a list of decimal digits. -/
def digitsValue (ds : List Char) : Nat :=
  ds.foldl (fun acc d => acc * 10 + (d.toNat - '0'.toNat)) 0

/-- Splits off the leading decimal digits. -/
def spanDigits (cs : List Char) : List Char × List Char :=
  (cs.takeWhile Char.isDigit, cs.dropWhile Char.isDigit)

/-- The exponent part: an optional sign and at least one digit, with nothing after it. -/
def readExponent (cs : List Char) : Option Int :=
  let (negative, rest) := match cs with
    | '+' :: r => (false, r)
    | '-' :: r => (true, r)
    | r => (false, r)
  let (ds, after) := spanDigits rest
  if ds.isEmpty || !after.isEmpty then none
  else
    let n : Int := digitsValue ds
    some (if negative then -n else n)

/-- The value of an unsigned decimal number, if the text is one. -/
def readUnsigned (negative : Bool) (cs : List Char) : Option Float :=
  let (whole, rest) := spanDigits cs
  let (fraction, rest) := match rest with
    | '.' :: r => spanDigits r
    | r => ([], r)
  if whole.isEmpty && fraction.isEmpty then none
  else
    let exponent : Option Int := match rest with
      | [] => some 0
      | c :: r => if c = 'e' ∨ c = 'E' then readExponent r else none
    exponent.map fun e =>
      ofDecimal negative (digitsValue (whole ++ fraction)) (e - fraction.length)

/-- Reads decimal text as the nearest double. -/
def readFloat (s : String) : Option Float :=
  let (negative, body) := match s.toList with
    | '+' :: r => (false, r)
    | '-' :: r => (true, r)
    | r => (false, r)
  let lower := String.ofList (body.map Char.toLower)
  if lower = "inf" ∨ lower = "infinity" then some (infinity negative)
  else if lower = "nan" then some notANumber
  else readUnsigned negative body

end SchemaTypes.Number
