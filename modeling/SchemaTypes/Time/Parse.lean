import SchemaTypes.Time.Timestamp
import SchemaTypes.Unicode.Whitespace

/-!
# Reading timestamps

Timestamps are read leniently, trying one reading after another on the text without
surrounding white space:

1. RFC 3339 (`2023-05-17T08:15:00.5+02:00`, with `T`, `t` or a space between date and time
   and `Z`, `z` or a signed `hh:mm` offset of at most 23:59);
2. layouts with an offset: date, time, optional fraction and a signed offset whose hours and
   minutes may be separated by colons or spaces (`2023-05-17 08:15:00+0200`);
3. after dropping one trailing `Z` or `z`, layouts without an offset, read as UTC;
4. a bare date, read as midnight UTC.

In a layout a year has up to four digits, or any number after an explicit sign; every other
field has one or two digits; white space may stand before a number or an offset. A fraction
is a point and one to nine digits, further digits being ignored. A second may be 60, a leap
second. The result keeps whole microseconds, the rest of the fraction being cut off.
-/

namespace SchemaTypes.Timestamp

open Unicode

/-- The numbered fields of a layout. -/
inductive Field where
  | year | month | day | hour | minute | second

/-- One piece of a layout. -/
inductive Piece where
  /-- exactly this character -/
  | literal (c : Char)
  /-- one space -/
  | space
  /-- a numbered field -/
  | field (f : Field)
  /-- an optional point followed by digits of a second -/
  | fraction
  /-- a signed offset from UTC, hours then minutes -/
  | offset

/-- What a layout has read. -/
structure Fields where
  year : Option Int := none
  month : Option Nat := none
  day : Option Nat := none
  hour : Option Nat := none
  minute : Option Nat := none
  second : Option Nat := none
  nanos : Option Nat := none
  offset : Option Int := none

/-- Whether a character is an ASCII digit. -/
def isDigit (c : Char) : Bool := '0' ≤ c ∧ c ≤ '9'

/-- The value of ASCII digits. -/
def digitsValue (ds : List Char) : Nat := ds.foldl (fun n d => n * 10 + (d.toNat - 48)) 0

/-- At least one and at most `width` leading digits, with their value. -/
def readDigits (width : Nat) (cs : List Char) : Option (Nat × List Char) :=
  let ds := (cs.take width).takeWhile isDigit
  if ds.isEmpty then none else some (digitsValue ds, cs.drop ds.length)

/-- Stores a field after checking its range. -/
def Fields.set (fs : Fields) (f : Field) (v : Int) : Option Fields :=
  match f with
  | .year => if -2147483648 ≤ v ∧ v ≤ 2147483647 then some { fs with year := v } else none
  | .month => if 1 ≤ v ∧ v ≤ 12 then some { fs with month := v.toNat } else none
  | .day => if 1 ≤ v ∧ v ≤ 31 then some { fs with day := v.toNat } else none
  | .hour => if 0 ≤ v ∧ v ≤ 23 then some { fs with hour := v.toNat } else none
  | .minute => if 0 ≤ v ∧ v ≤ 59 then some { fs with minute := v.toNat } else none
  | .second => if 0 ≤ v ∧ v ≤ 60 then some { fs with second := v.toNat } else none

/-- A numbered field of a layout. -/
def readField (f : Field) (cs : List Char) : Option (Int × List Char) :=
  let cs := trimStart cs
  match f, cs with
  | .year, '-' :: rest => (readDigits rest.length rest).map fun (v, r) => (-(v : Int), r)
  | .year, '+' :: rest => (readDigits rest.length rest).map fun (v, r) => ((v : Int), r)
  | .year, _ => (readDigits 4 cs).map fun (v, r) => ((v : Int), r)
  | _, _ => (readDigits 2 cs).map fun (v, r) => ((v : Int), r)

/-- The digits of a fraction after its point: one to nine digits as nanoseconds, further
digits dropped. -/
def readNanos (cs : List Char) : Option (Nat × List Char) :=
  match readDigits 9 cs with
  | none => none
  | some (v, rest) =>
    let used := cs.length - rest.length
    some (v * Nat.pow 10 (9 - used), rest.dropWhile isDigit)

/-- Two ASCII digits of an offset. -/
def twoDigits : List Char → Option (Nat × Nat × List Char)
  | a :: b :: rest => if isDigit a ∧ isDigit b then some (a.toNat - 48, b.toNat - 48, rest) else none
  | _ => none

/-- A signed offset in seconds; between hours and minutes `separator` is consumed. -/
def readOffset (separator : List Char → Option (List Char)) (cs : List Char) :
    Option (Int × List Char) := do
  let (negative, rest) ← match cs with
    | '+' :: r => some (false, r)
    | '-' :: r => some (true, r)
    | '−' :: r => some (true, r)
    | _ => none
  let (h1, h2, rest) ← twoDigits rest
  let rest ← separator rest
  let (m1, m2, rest) ← twoDigits rest
  if m1 > 5 then none
  let seconds : Int := (h1 * 10 + h2) * 3600 + (m1 * 10 + m2) * 60
  some (if negative then -seconds else seconds, rest)

/-- Any run of colons and white space. -/
def colonsOrSpaces (cs : List Char) : Option (List Char) :=
  some (cs.dropWhile fun c => c = ':' || isWhiteSpace c)

/-- Exactly one colon. -/
def oneColon : List Char → Option (List Char)
  | ':' :: rest => some rest
  | _ => none

/-- Reads text by a layout; all of the text must be used. -/
def readLayout : List Piece → List Char → Fields → Option Fields
  | [], [], fs => some fs
  | [], _ :: _, _ => none
  | .literal c :: ps, d :: rest, fs => if c = d then readLayout ps rest fs else none
  | .literal _ :: _, [], _ => none
  | .space :: ps, ' ' :: rest, fs => readLayout ps rest fs
  | .space :: _, _, _ => none
  | .field f :: ps, cs, fs => do
    let (v, rest) ← readField f cs
    let fs ← fs.set f v
    readLayout ps rest fs
  | .fraction :: ps, '.' :: rest, fs => do
    let (n, rest) ← readNanos rest
    readLayout ps rest { fs with nanos := n }
  | .fraction :: ps, cs, fs => readLayout ps cs fs
  | .offset :: ps, cs, fs => do
    let (o, rest) ← readOffset colonsOrSpaces (trimStart cs)
    readLayout ps rest { fs with offset := o }

/-- The timestamp of what a layout has read, with the offset it read or UTC. -/
def Fields.toTimestamp (fs : Fields) (needOffset : Bool) : Option Timestamp := do
  let y ← fs.year
  let m ← fs.month
  let d ← fs.day
  let h ← fs.hour
  let mi ← fs.minute
  let offset ← if needOffset then fs.offset else some 0
  if !isValidDate y m d then none
  if offset.natAbs ≥ 86400 then none
  ofLocal y m d h mi (fs.second.getD 0) (fs.nanos.getD 0) offset

/-- Exactly `n` leading digits, with their value. -/
def readExactDigits (n : Nat) (cs : List Char) : Option (Nat × List Char) :=
  let ds := cs.take n
  if ds.length = n ∧ ds.all isDigit then some (digitsValue ds, cs.drop n) else none

/-- The rest after one given character. -/
def expectChar (c : Char) : List Char → Option (List Char)
  | d :: rest => if d = c then some rest else none
  | [] => none

/-- The rest after what stands between a date and a time: `T`, `t` or a space. -/
def dateTimeSeparator : List Char → Option (List Char)
  | 'T' :: rest => some rest
  | 't' :: rest => some rest
  | ' ' :: rest => some rest
  | _ => none

/-- An optional fraction of a second: a point and its digits, as nanoseconds. -/
def readFraction (cs : List Char) : Option (Option Nat × List Char) :=
  match cs with
  | '.' :: rest => (readNanos rest).map fun (n, rest') => (some n, rest')
  | _ => some (none, cs)

/-- The offset of RFC 3339: `Z`, `z` or a signed `hh:mm`, in seconds. -/
def readZoneOffset (cs : List Char) : Option (Int × List Char) :=
  match cs with
  | 'Z' :: rest => some (0, rest)
  | 'z' :: rest => some (0, rest)
  | _ => readOffset oneColon cs

/-- Reads RFC 3339 text. -/
def readRfc3339 (cs : List Char) : Option Timestamp := do
  let (y, cs) ← readExactDigits 4 cs
  let cs ← expectChar '-' cs
  let (mo, cs) ← readExactDigits 2 cs
  let cs ← expectChar '-' cs
  let (d, cs) ← readExactDigits 2 cs
  let cs ← dateTimeSeparator cs
  let (h, cs) ← readExactDigits 2 cs
  let cs ← oneColon cs
  let (mi, cs) ← readExactDigits 2 cs
  let cs ← oneColon cs
  let (s, cs) ← readExactDigits 2 cs
  let (nanos, cs) ← readFraction cs
  let (offset, cs) ← readZoneOffset cs
  guard (offset.natAbs ≤ 23 * 3600 + 59 * 60 ∧ cs.isEmpty)
  let fs : Fields := {}
  let fs ← fs.set .year y
  let fs ← fs.set .month mo
  let fs ← fs.set .day d
  let fs ← fs.set .hour h
  let fs ← fs.set .minute mi
  let fs ← fs.set .second s
  { fs with nanos := nanos, offset := some offset }.toTimestamp true

/-- A date with the given separator. -/
def datePieces (sep : Char) : List Piece :=
  [.field .year, .literal sep, .field .month, .literal sep, .field .day]

/-- A time of day, with or without seconds and their fraction. -/
def clockPieces (withSeconds : Bool) : List Piece :=
  [.field .hour, .literal ':', .field .minute] ++
    (if withSeconds then [.literal ':', .field .second, .fraction] else [])

/-- Layouts with an offset, tried in order. -/
def offsetLayouts : List (List Piece) :=
  [ datePieces '-' ++ [.literal 'T'] ++ clockPieces true ++ [.offset],
    datePieces '-' ++ [.space] ++ clockPieces true ++ [.offset],
    datePieces '/' ++ [.space] ++ clockPieces true ++ [.offset] ]

/-- Layouts without an offset, tried in order. -/
def plainLayouts : List (List Piece) :=
  [ datePieces '-' ++ [.literal 'T'] ++ clockPieces true,
    datePieces '-' ++ [.space] ++ clockPieces true,
    datePieces '-' ++ [.literal 'T'] ++ clockPieces false,
    datePieces '-' ++ [.space] ++ clockPieces false,
    datePieces '/' ++ [.space] ++ clockPieces true ]

/-- The first layout that reads the text, as a timestamp. -/
def firstLayout (needOffset : Bool) (cs : List Char) : List (List Piece) → Option Timestamp
  | [] => none
  | l :: ls =>
    match (readLayout l cs {}).bind (·.toTimestamp needOffset) with
    | some t => some t
    | none => firstLayout needOffset cs ls

/-- Drops one trailing `Z` or `z`. -/
def dropZulu (cs : List Char) : List Char :=
  match cs.getLast? with
  | some 'Z' | some 'z' => cs.dropLast
  | _ => cs

/-- Reads a timestamp leniently. -/
def parse (raw : String) : Option Timestamp :=
  let cs := (trimWhiteSpace raw).toList
  match readRfc3339 cs with
  | some t => some t
  | none =>
    match firstLayout true cs offsetLayouts with
    | some t => some t
    | none =>
      let plain := dropZulu cs
      match firstLayout false plain plainLayouts with
      | some t => some t
      | none =>
        (readLayout (datePieces '-') plain {}).bind fun fs =>
          { fs with hour := some 0, minute := some 0 }.toTimestamp false

end SchemaTypes.Timestamp
