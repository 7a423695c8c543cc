import SchemaTypes.Types.Handle
import SchemaTypes.Value.Text
import SchemaTypes.Number.Read
import SchemaTypes.Time.Parse
import SchemaTypes.Unicode.Whitespace

/-! # Conversions to native kinds

A value of the native kind itself is kept. Otherwise these conversions are made, and every
other value is refused:

* to a string: an integer in decimal, a double in its debug text, a boolean as
  `true`/`false`, a timestamp and a UUID in their texts;
* to an integer: a double with no fractional part in the signed 64-bit range, a string
  holding a signed decimal integer of that range (surrounding white space ignored), a
  boolean as 0 or 1;
* to a double: an integer, a string holding a decimal number or `inf`/`nan` in any case, a
  boolean as 0.0 or 1.0;
* to a boolean: a string reading `true` or `false` in any case of ASCII letters, the
  integers 0 and 1;
* to a timestamp: a string the lenient timestamp reader accepts;
* to a UUID: a string holding a UUID.
-/

namespace SchemaTypes

/-- The value of an optional sign and decimal digits, when it lies in the signed 64-bit
range. -/
def readInt64 (s : String) : Option Int :=
  let digits (cs : List Char) : Option Nat :=
    if !cs.isEmpty && cs.all Char.isDigit then
      some (cs.foldl (fun n d => n * 10 + (d.toNat - 48)) 0)
    else none
  let value : Option Int := match s.toList with
    | '+' :: cs => (digits cs).map Int.ofNat
    | '-' :: cs => (digits cs).map fun n => -(n : Int)
    | cs => (digits cs).map Int.ofNat
  value.filter Value.fitsInt

/-- The integer a finite double equals, when it has no fractional part. -/
def Float.integral? (x : Float) : Option Int :=
  if x.isNaN || x.isInf then none
  else
    let b := Number.Binary.ofFloat x
    let magnitude : Option Nat :=
      if b.exponent ≥ 0 then some (b.mantissa * Nat.pow 2 b.exponent.toNat)
      else if b.mantissa % Nat.pow 2 (-b.exponent).toNat = 0 then
        some (b.mantissa / Nat.pow 2 (-b.exponent).toNat)
      else none
    magnitude.map fun m => if b.negative then -(m : Int) else m

/-- ASCII letters in lower case, other characters kept. -/
def asciiLower (s : String) : String := s.map Char.toLower

namespace NativeType

/-- Whether a value is of the native kind already. -/
def admits : NativeType → Value → Bool
  | .string, .str _ | .integer, .int _ | .number, .number _ | .boolean, .bool _
  | .dateTime, .dateTime _ | .uuid, .uuid _ => true
  | _, _ => false

/-- The conversion of a value that is not of the native kind. -/
def convert : NativeType → Value → Option Value
  | .string, .int n => some (.str (toString n))
  | .string, .number x => some (.str (Number.debugText x))
  | .string, .bool b => some (.str (if b then "true" else "false"))
  | .string, .dateTime t => some (.str t.format)
  | .string, .uuid u => some (.str u.format)
  | .integer, .number x =>
    (Float.integral? x).bind fun n => if Value.fitsInt n then some (.int n) else none
  | .integer, .str s => (readInt64 (Unicode.trimWhiteSpace s)).map .int
  | .integer, .bool b => some (.int (if b then 1 else 0))
  | .number, .int n => some (.number (Value.intToFloat n))
  | .number, .str s => (Number.readFloat (Unicode.trimWhiteSpace s)).map .number
  | .number, .bool b => some (.number (if b then 1.0 else 0.0))
  | .boolean, .str s =>
    match asciiLower (Unicode.trimWhiteSpace s) with
    | "true" => some (.bool true)
    | "false" => some (.bool false)
    | _ => none
  | .boolean, .int 0 => some (.bool false)
  | .boolean, .int 1 => some (.bool true)
  | .dateTime, .str s => (Timestamp.parse s).map .dateTime
  | .uuid, .str s => (Uuid.parse (Unicode.trimWhiteSpace s)).map .uuid
  | _, _ => none

/-- A value made into the native kind: kept when it is of the kind, else converted. -/
def cast (t : NativeType) (v : Value) : Option Value :=
  if t.admits v then some v else t.convert v

end NativeType

end SchemaTypes
