/-!
# UUIDs

A UUID is a 128-bit number. It is read from 32 hexadecimal digits, either plain or in the
hyphenated groups 8-4-4-4-12, the hyphenated form also inside braces or after `urn:uuid:`;
digits may be in either case. It is written in lowercase hyphenated form.
-/

namespace SchemaTypes

/-- A 128-bit UUID. -/
structure Uuid where
  value : Nat
  deriving DecidableEq

namespace Uuid

/-- The value of a hexadecimal digit. -/
def hexValue (c : Char) : Option Nat :=
  if '0' ≤ c ∧ c ≤ '9' then some (c.toNat - 48)
  else if 'a' ≤ c ∧ c ≤ 'f' then some (c.toNat - 87)
  else if 'A' ≤ c ∧ c ≤ 'F' then some (c.toNat - 55)
  else none

/-- The value of exactly 32 hexadecimal digits. -/
def ofHexDigits (cs : List Char) : Option Uuid :=
  if cs.length ≠ 32 then none
  else (cs.foldlM (fun acc c => (hexValue c).map (acc * 16 + ·)) 0).map Uuid.mk

/-- The digits of the hyphenated form, when the hyphens stand at their places. -/
def hyphenatedDigits (cs : List Char) : Option (List Char) :=
  if cs.length = 36 ∧ cs[8]? = some '-' ∧ cs[13]? = some '-' ∧ cs[18]? = some '-' ∧
      cs[23]? = some '-' then
    some (cs.take 8 ++ (cs.drop 9).take 4 ++ (cs.drop 14).take 4 ++ (cs.drop 19).take 4 ++
      cs.drop 24)
  else none

/-- Reads a UUID in one of its accepted forms. The forms are told apart by their length in
bytes, all of their characters but the digits being ASCII. -/
def parse (s : String) : Option Uuid :=
  let cs := s.toList
  match s.utf8ByteSize with
  | 32 => ofHexDigits cs
  | 36 => (hyphenatedDigits cs).bind ofHexDigits
  | 38 =>
    match cs.head?, cs.getLast? with
    | some '{', some '}' => (hyphenatedDigits (cs.drop 1).dropLast).bind ofHexDigits
    | _, _ => none
  | 45 =>
    if cs.take 9 = "urn:uuid:".toList then (hyphenatedDigits (cs.drop 9)).bind ofHexDigits
    else none
  | _ => none

/-- Lowercase hexadecimal digits of `n`, padded with zeros to `width`. -/
def hexPadded (width n : Nat) : String :=
  let ds := Nat.toDigits 16 n
  String.ofList (List.replicate (width - ds.length) '0' ++ ds)

/-- The lowercase hyphenated form. -/
def format (u : Uuid) : String :=
  let n := u.value
  hexPadded 8 (n / Nat.pow 2 96) ++ "-" ++
    hexPadded 4 (n / Nat.pow 2 80 % Nat.pow 2 16) ++ "-" ++
    hexPadded 4 (n / Nat.pow 2 64 % Nat.pow 2 16) ++ "-" ++
    hexPadded 4 (n / Nat.pow 2 48 % Nat.pow 2 16) ++ "-" ++
    hexPadded 12 (n % Nat.pow 2 48)

end Uuid

end SchemaTypes
