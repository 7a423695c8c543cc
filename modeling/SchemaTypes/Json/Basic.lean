/-!
# JSON values

A JSON value as this library holds it: numbers are either integers of the 64-bit ranges
(signed or unsigned) or finite doubles, and an object is a list of members in the order they
were first written. Inserting a key that is already present replaces its value in place, so
an object never holds a key twice; reading text with a repeated key therefore keeps the first
position and the last value.

Two values are equal (`Json.equiv`) when they have the same shape and contents, objects being
compared as maps: the order of members does not matter there. Numbers compare as written
kinds: an integer never equals a double.
-/

namespace SchemaTypes

/-- A JSON value with ordered objects. -/
inductive Json where
  | null
  | bool (b : Bool)
  | int (n : Int)
  | float (x : Float)
  | str (s : String)
  | arr (items : List Json)
  | obj (members : List (String × Json))
  deriving Inhabited

namespace Json

/-- Sets `key` to `value`: in place if the key is present, else at the end. -/
def setMember (members : List (String × Json)) (key : String) (value : Json) :
    List (String × Json) :=
  if members.any (·.1 == key) then members.map fun m => if m.1 == key then (key, value) else m
  else members ++ [(key, value)]

/-- Builds an object from members in order, a repeated key keeping its first position and
its last value. -/
def ofMembers (members : List (String × Json)) : List (String × Json) :=
  members.foldl (fun acc m => setMember acc m.1 m.2) []

/-- The value of `key` in an object's members. -/
def lookup (members : List (String × Json)) (key : String) : Option Json :=
  (members.find? (·.1 == key)).map (·.2)

/-- The value of `key` when this is an object that has it. -/
def get? (v : Json) (key : String) : Option Json :=
  match v with
  | .obj ms => lookup ms key
  | _ => none

/-- The members when this is an object. -/
def members? : Json → Option (List (String × Json))
  | .obj ms => some ms
  | _ => none

/-- The items when this is an array. -/
def items? : Json → Option (List Json)
  | .arr xs => some xs
  | _ => none

/-- The text when this is a string. -/
def str? : Json → Option String
  | .str s => some s
  | _ => none

/-- Whether this is `null`. -/
def isNull : Json → Bool
  | .null => true
  | _ => false

mutual
/-- Equality of values, with objects compared as maps. -/
def equiv : Json → Json → Bool
  | .null, .null => true
  | .bool a, .bool b => a == b
  | .int a, .int b => a == b
  | .float a, .float b => a == b
  | .str a, .str b => a == b
  | .arr xs, .arr ys => equivItems xs ys
  | .obj xs, .obj ys => xs.length == ys.length && equivMembers xs ys
  | _, _ => false
/-- Item-wise equality of two arrays. -/
def equivItems : List Json → List Json → Bool
  | [], [] => true
  | x :: xs, y :: ys => equiv x y && equivItems xs ys
  | _, _ => false
/-- Every member of the first object is in the second with an equal value. -/
def equivMembers : List (String × Json) → List (String × Json) → Bool
  | [], _ => true
  | (k, v) :: rest, ys =>
    (match lookup ys k with
      | some w => equiv v w
      | none => false) && equivMembers rest ys
end

end Json

end SchemaTypes
