import SchemaTypes.Unicode.Alphanumeric
import SchemaTypes.Unicode.Case

/-!
# Names at the data boundary

Document keys are written in PascalCase, attributes in snake_case and enum members in
SCREAMING_SNAKE. A name is converted mechanically only when the conversion can be undone:
a name that is not an identifier stays as it is, and a name that contains `_`, or whose words
do not join back into it, is recorded in a set of special names and also stays as it is.
The set only grows, and a name found in it is never converted in either direction.

Words are found by two passes over the name, each inserting `_`: first before every
capitalised word (an ASCII capital followed by ASCII small letters) that has a character
before it, then between an ASCII small letter or digit and an ASCII capital. Each pass
scans from the left and does not look again at what it has just rewritten.
Joining capitalises each `_`-separated word: its first character in upper case, the rest in
lower case, with the full Unicode case mappings.
-/

namespace SchemaTypes

open Unicode

/-- A set of names exempt from case conversion, kept sorted. -/
structure SpecialNames where
  names : List String := []

namespace SpecialNames

/-- Whether the name is special. -/
def contains (s : SpecialNames) (name : String) : Bool := s.names.contains name

/-- Inserts into a sorted list of names, keeping it sorted and without repeats. -/
def insertSorted (name : String) : List String → List String
  | [] => [name]
  | n :: rest =>
    if name < n then name :: n :: rest
    else if name = n then n :: rest
    else n :: insertSorted name rest

/-- Adds a name to the set. -/
def insert (s : SpecialNames) (name : String) : SpecialNames := ⟨insertSorted name s.names⟩

/-- Adds every name of another set. -/
def union (s t : SpecialNames) : SpecialNames := t.names.foldl insert s

/-- The names in sorted order. -/
def toList (s : SpecialNames) : List String := s.names

/-- A set holding the given names. -/
def ofList (names : List String) : SpecialNames := names.foldl insert {}

end SpecialNames

namespace Naming

/-- Whether a character is an ASCII capital. -/
def isAsciiUpper (c : Char) : Bool := 'A' ≤ c ∧ c ≤ 'Z'

/-- Whether a character is an ASCII small letter. -/
def isAsciiLower (c : Char) : Bool := 'a' ≤ c ∧ c ≤ 'z'

/-- An identifier starts with a letter or `_` and continues with letters, digits or `_`,
letters and digits in the Unicode sense. -/
def isIdentifier (name : String) : Bool :=
  match name.toList with
  | [] => false
  | c :: rest =>
    (isAlphabetic c || c = '_') && rest.all (fun d => isAlphanumeric d || d = '_')

/-- Inserts `_` before each capitalised word that has a character before it. -/
def markWords (cs : List Char) : List Char :=
  match cs with
  | a :: b :: c :: rest =>
    if a ≠ '\n' ∧ isAsciiUpper b ∧ isAsciiLower c then
      let lowers := rest.takeWhile isAsciiLower
      a :: '_' :: b :: c :: lowers ++ markWords (rest.drop lowers.length)
    else a :: markWords (b :: c :: rest)
  | _ => cs
termination_by cs.length
decreasing_by
  all_goals simp_wf
  all_goals omega

/-- Inserts `_` between an ASCII small letter or digit and an ASCII capital after it. -/
def markCapitals : List Char → List Char
  | a :: b :: rest =>
    if (isAsciiLower a ∨ a.isDigit) ∧ isAsciiUpper b then a :: '_' :: b :: markCapitals rest
    else a :: markCapitals (b :: rest)
  | cs => cs
termination_by cs => cs.length

/-- The word boundaries of a name, marked by `_`. -/
def spaced (name : String) : String := String.ofList (markCapitals (markWords name.toList))

/-- A word with its first character in upper case and the rest in lower case. -/
def capitalize (word : String) : String :=
  match word.toList with
  | [] => ""
  | c :: rest => String.ofList (upperChar c ++ rest.flatMap lowerChar)

/-- The `_`-separated pieces of a name, empty pieces included. -/
def underscorePieces : List Char → List (List Char)
  | [] => [[]]
  | c :: cs =>
    if c = '_' then [] :: underscorePieces cs
    else
      match underscorePieces cs with
      | w :: ws => (c :: w) :: ws
      | [] => [[c]]

/-- Joins the `_`-separated words of a name, each capitalised. -/
def pascalJoin (snake : String) : String :=
  String.join ((underscorePieces snake.toList).map fun w => capitalize (String.ofList w))

/-- The words of a name marked by `_`, or none when the name stays as it is; a name that
cannot be converted is added to the special names. With `roundTrip`, a name whose words do
not join back into it cannot be converted. -/
def splitWords (name : String) (special : SpecialNames) (roundTrip : Bool) :
    Option String × SpecialNames :=
  if !isIdentifier name || special.contains name then (none, special)
  else if name.toList.contains '_' then (none, special.insert name)
  else
    let words := spaced name
    if roundTrip && pascalJoin words != name then (none, special.insert name)
    else (some words, special)

/-- `SampleMass` to `sample_mass`. -/
def pascalToSnake (name : String) (special : SpecialNames) : String × SpecialNames :=
  match splitWords name special true with
  | (some words, s) => (lowerText words, s)
  | (none, s) => (name, s)

/-- `sample_mass` to `SampleMass`, unless the name is special or not an identifier. -/
def snakeToPascal (name : String) (special : SpecialNames) : String :=
  if !isIdentifier name || special.contains name then name else pascalJoin name

/-- `TemperatureRamp` to `TEMPERATURE_RAMP`; member names need not convert back. -/
def pascalToScreamingSnake (name : String) (special : SpecialNames) :
    String × SpecialNames :=
  match splitWords name special false with
  | (some words, s) => (upperText words, s)
  | (none, s) => (name, s)

/-- `TEMPERATURE_RAMP` to `TemperatureRamp`. -/
def screamingSnakeToPascal (name : String) (special : SpecialNames) : String :=
  snakeToPascal name special

end Naming

end SchemaTypes
