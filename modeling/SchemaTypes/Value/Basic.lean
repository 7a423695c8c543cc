import SchemaTypes.Json.Basic
import SchemaTypes.Number.Binary
import SchemaTypes.Time.Timestamp
import SchemaTypes.Uuid

/-! # Values

The values that casting and construction work on: the JSON kinds, with integers of the
signed 64-bit range apart from doubles, and beside them timestamps, UUIDs, members of
enumerations and instances of composite types. An instance is the name of its type with its
fields in the order they were assigned; a map keeps its keys in insertion order.

Equality (`Value.same`) compares doubles as numbers, so a not-a-number is unequal to
everything, and never equates an integer with a double; maps and the fields of instances
compare as maps, with order ignored.
-/

namespace SchemaTypes

/-- A member of an enumeration: its constant name, its id, an optional description, and the
JSON literal it was written as when it was not written as an object. -/
structure EnumMember where
  enumName : String
  name : String
  id : String
  description : Option String
  literal : Option Json

/-- Equality of members: every field, the literal compared as JSON. -/
def EnumMember.same (a b : EnumMember) : Bool :=
  a.enumName == b.enumName && a.name == b.name && a.id == b.id &&
    a.description == b.description &&
    match a.literal, b.literal with
    | none, none => true
    | some x, some y => Json.equiv x y
    | _, _ => false

/-- A value. -/
inductive Value where
  | null
  | bool (b : Bool)
  /-- an integer of the signed 64-bit range -/
  | int (n : Int)
  | number (x : Float)
  | str (s : String)
  | dateTime (t : Timestamp)
  | uuid (u : Uuid)
  | list (items : List Value)
  | map (entries : List (String × Value))
  /-- an instance: its type's name and its fields by attribute name -/
  | object (typeName : String) (fields : List (String × Value))
  | enum (member : EnumMember)
  deriving Inhabited

namespace Value

/-! ## Integers of 64 bits -/

/-- The least signed 64-bit integer. -/
def minInt : Int := -9223372036854775808

/-- The greatest signed 64-bit integer. -/
def maxInt : Int := 9223372036854775807

/-- Whether an integer lies in the signed 64-bit range. -/
def fitsInt (n : Int) : Bool := minInt ≤ n ∧ n ≤ maxInt

/-- The double nearest to an integer. -/
def intToFloat (n : Int) : Float := Number.ofDecimal (n < 0) n.natAbs 0

/-! ## Keyed entries -/

/-- The value under `key`. -/
def lookup (entries : List (String × Value)) (key : String) : Option Value :=
  (entries.find? (·.1 == key)).map (·.2)

/-- Sets `key` to `value`: in place if the key is present, else at the end. -/
def setEntry (entries : List (String × Value)) (key : String) (value : Value) :
    List (String × Value) :=
  if entries.any (·.1 == key) then entries.map fun e => if e.1 == key then (key, value) else e
  else entries ++ [(key, value)]

/-- Collects entries in order, a repeated key keeping its first position and last value. -/
def collect (entries : List (String × Value)) : List (String × Value) :=
  entries.foldl (fun acc e => setEntry acc e.1 e.2) []

/-- Removes `key`. -/
def removeEntry (entries : List (String × Value)) (key : String) : List (String × Value) :=
  entries.filter (·.1 != key)

/-! ## Kinds and accessors -/

/-- The name of a value's kind; an instance is named by its type, a member by its
enumeration. -/
def label : Value → String
  | .null => "null"
  | .bool _ => "boolean"
  | .int _ => "integer"
  | .number _ => "number"
  | .str _ => "string"
  | .dateTime _ => "date-time"
  | .uuid _ => "uuid"
  | .list _ => "array"
  | .map _ => "object"
  | .object name _ => name
  | .enum m => m.enumName

/-- Whether this is `null`. -/
def isNull : Value → Bool
  | .null => true
  | _ => false

/-- The text of a string. -/
def asStr? : Value → Option String
  | .str s => some s
  | _ => none

/-- The integer of an integer. -/
def asInt? : Value → Option Int
  | .int n => some n
  | _ => none

/-- The double of a number, or of an integer converted. -/
def asFloat? : Value → Option Float
  | .number x => some x
  | .int n => some (intToFloat n)
  | _ => none

/-- The truth value of a boolean. -/
def asBool? : Value → Option Bool
  | .bool b => some b
  | _ => none

/-- The timestamp of a date-time. -/
def asDateTime? : Value → Option Timestamp
  | .dateTime t => some t
  | _ => none

/-- The UUID of a UUID. -/
def asUuid? : Value → Option Uuid
  | .uuid u => some u
  | _ => none

/-- The items of a list. -/
def asList? : Value → Option (List Value)
  | .list xs => some xs
  | _ => none

/-- The entries of a map. -/
def asMap? : Value → Option (List (String × Value))
  | .map es => some es
  | _ => none

/-- The type name and fields of an instance. -/
def asObject? : Value → Option (String × List (String × Value))
  | .object name fields => some (name, fields)
  | _ => none

/-- The member of an enumeration member. -/
def asEnum? : Value → Option EnumMember
  | .enum m => some m
  | _ => none

/-! ## From JSON -/

mutual
/-- The value of a JSON value: integers of the signed 64-bit range stay integers, all other
numbers become doubles. -/
def ofJson : Json → Value
  | .null => .null
  | .bool b => .bool b
  | .int n => if fitsInt n then .int n else .number (intToFloat n)
  | .float x => .number x
  | .str s => .str s
  | .arr xs => .list (ofJsonItems xs)
  | .obj ms => .map (ofJsonMembers ms)
/-- The values of JSON items. -/
def ofJsonItems : List Json → List Value
  | [] => []
  | x :: xs => ofJson x :: ofJsonItems xs
/-- The values of JSON members. -/
def ofJsonMembers : List (String × Json) → List (String × Value)
  | [] => []
  | (k, v) :: ms => (k, ofJson v) :: ofJsonMembers ms
end

/-! ## Equality -/

mutual
/-- Equality of values. -/
def same : Value → Value → Bool
  | .null, .null => true
  | .bool a, .bool b => a == b
  | .int a, .int b => a == b
  | .number a, .number b => a == b
  | .str a, .str b => a == b
  | .dateTime a, .dateTime b => decide (a = b)
  | .uuid a, .uuid b => decide (a = b)
  | .list xs, .list ys => sameItems xs ys
  | .map xs, .map ys => xs.length == ys.length && sameEntries xs ys
  | .object n xs, .object m ys => n == m && xs.length == ys.length && sameEntries xs ys
  | .enum a, .enum b => a.same b
  | _, _ => false
/-- Item-wise equality. -/
def sameItems : List Value → List Value → Bool
  | [], [] => true
  | x :: xs, y :: ys => same x y && sameItems xs ys
  | _, _ => false
/-- Every entry of the first is in the second with an equal value. -/
def sameEntries : List (String × Value) → List (String × Value) → Bool
  | [], _ => true
  | (k, v) :: rest, ys =>
    (match lookup ys k with
      | some w => same v w
      | none => false) && sameEntries rest ys
end

/-- Equality of the entries of two maps, order ignored. -/
def sameMaps (xs ys : List (String × Value)) : Bool :=
  xs.length == ys.length && sameEntries xs ys

/-! ## Depth -/

mutual
/-- How deeply lists, maps and instances nest inside a value. -/
def depth : Value → Nat
  | .list xs => depthItems xs + 1
  | .map es => depthEntries es + 1
  | .object _ fs => depthEntries fs + 1
  | _ => 0
/-- The greatest depth of the items. -/
def depthItems : List Value → Nat
  | [] => 0
  | x :: xs => max (depth x) (depthItems xs)
/-- The greatest depth of the entries' values. -/
def depthEntries : List (String × Value) → Nat
  | [] => 0
  | (_, v) :: es => max (depth v) (depthEntries es)
end

end Value

/-- The map form of a member: its id and its description. -/
def EnumMember.toEntries (m : EnumMember) : List (String × Value) :=
  [("Id", .str m.id), ("Description", match m.description with
    | some d => .str d
    | none => .null)]

/-- The plain value of a member: its literal when it has one, else its map form. -/
def EnumMember.toPlain (m : EnumMember) : Value :=
  match m.literal with
  | some j => Value.ofJson j
  | none => .map m.toEntries

end SchemaTypes
