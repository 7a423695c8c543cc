import SchemaTypes.Value.Basic
import SchemaTypes.Error
import SchemaTypes.Number.Layout

/-! # Plain values and JSON

A value is made plain by turning every instance into the map of its fields under their
external names and every enumeration member into its literal or its map form; the same
walk writes a value as JSON, where timestamps and UUIDs become their texts. Only a double
that is not finite cannot be written, and the failure names the path to it.

Both walks need the external name of a field of an instance, which depends on the type of the
instance; it is passed in as `external typeName attribute`.
-/

namespace SchemaTypes

namespace Json

mutual
/-- A value as it comes back after being lifted to a `Value` and written again: integers
outside the signed 64-bit range turn into doubles. -/
def liftedIntegers : Json → Json
  | .int n => if Value.fitsInt n then .int n else .float (Value.intToFloat n)
  | .arr xs => .arr (liftedItems xs)
  | .obj ms => .obj (liftedMembers ms)
  | j => j
/-- Items as they come back. -/
def liftedItems : List Json → List Json
  | [] => []
  | x :: xs => liftedIntegers x :: liftedItems xs
/-- Members as they come back. -/
def liftedMembers : List (String × Json) → List (String × Json)
  | [] => []
  | (k, v) :: ms => (k, liftedIntegers v) :: liftedMembers ms
end

end Json

/-- The JSON of a member's plain value. -/
def EnumMember.toJson (m : EnumMember) : Json :=
  match m.literal with
  | some j => j.liftedIntegers
  | none => .obj [("Id", .str m.id), ("Description", match m.description with
      | some d => .str d
      | none => .null)]

namespace Value

mutual
/-- The plain form of a value. -/
def toPlain (external : String → String → String) : Value → Value
  | .object name fs => .map (collect (plainFields external name fs))
  | .enum m => m.toPlain
  | .list xs => .list (plainItems external xs)
  | .map es => .map (plainEntries external es)
  | v => v
/-- The plain forms of items. -/
def plainItems (external : String → String → String) : List Value → List Value
  | [] => []
  | x :: xs => toPlain external x :: plainItems external xs
/-- The plain forms of a map's values. -/
def plainEntries (external : String → String → String) :
    List (String × Value) → List (String × Value)
  | [] => []
  | (k, v) :: es => (k, toPlain external v) :: plainEntries external es
/-- The plain forms of an instance's fields under their external names. -/
def plainFields (external : String → String → String) (name : String) :
    List (String × Value) → List (String × Value)
  | [] => []
  | (k, v) :: fs => (external name k, toPlain external v) :: plainFields external name fs
end

/-- The map of an instance's fields under their external names, each made plain; two fields
with one external name keep the first position and the last value. -/
def instanceEntries (external : String → String → String) (name : String)
    (fields : List (String × Value)) : List (String × Value) :=
  collect (plainFields external name fields)

/-- The JSON of a double, refused when it is not finite. -/
def numberJson (x : Float) : Except Error Json :=
  if x.isNaN || x.isInf then
    .error (Error.serializationAt ("number " ++ Number.plainText x ++ " is not representable in JSON"))
  else .ok (.float x)

mutual
/-- The JSON of a value. -/
def toJson (external : String → String → String) : Value → Except Error Json
  | .null => .ok .null
  | .bool b => .ok (.bool b)
  | .int n => .ok (.int n)
  | .number x => numberJson x
  | .str s => .ok (.str s)
  | .dateTime t => .ok (.str t.format)
  | .uuid u => .ok (.str u.format)
  | .list xs => do
    let items ← jsonItems external 0 xs
    .ok (.arr items)
  | .map es => do
    let members ← jsonEntries external [] es
    .ok (.obj members)
  | .object name fs => do
    let members ← jsonFields external name [] fs
    .ok (.obj members)
  | .enum m => .ok m.toJson
/-- The JSON of items, a failure naming the position of the item. -/
def jsonItems (external : String → String → String) (ix : Nat) :
    List Value → Except Error (List Json)
  | [] => .ok []
  | x :: xs => do
    let j ← (toJson external x).mapError (·.atIndex ix)
    let js ← jsonItems external (ix + 1) xs
    .ok (j :: js)
/-- The JSON members of a map, added after `acc`, a failure naming the key. -/
def jsonEntries (external : String → String → String) (acc : List (String × Json)) :
    List (String × Value) → Except Error (List (String × Json))
  | [] => .ok acc
  | (k, v) :: es => do
    let j ← (toJson external v).mapError (·.atField k)
    jsonEntries external (Json.setMember acc k j) es
/-- The JSON members of an instance under external names, added after `acc`, a failure
naming the external name. -/
def jsonFields (external : String → String → String) (name : String)
    (acc : List (String × Json)) : List (String × Value) → Except Error (List (String × Json))
  | [] => .ok acc
  | (k, v) :: fs => do
    let key := external name k
    let j ← (toJson external v).mapError (·.atField key)
    jsonFields external name (Json.setMember acc key j) fs
end

end Value

end SchemaTypes
