/-! # Type handles

A type handle describes what a value must be to need no casting: anything, a native kind, a
list of one kind, one of several kinds, a kind or `null`, a member of a named enumeration, or
an instance of a named composite type (or of a type that inherits from it). It is written
like a type hint: `Optional[List[Union[Employee, date-time]]]`.

Making a handle optional never nests: an optional handle and `Any` stay as they are.
-/

namespace SchemaTypes

/-- The native kinds of value a schema names. -/
inductive NativeType where
  | string
  | integer
  | number
  | boolean
  | dateTime
  | uuid
  deriving DecidableEq

namespace NativeType

/-- The native kind of a schema type name; `array` and `object` are not native kinds. -/
def ofSchemaType : String → Option NativeType
  | "string" => some .string
  | "integer" => some .integer
  | "number" => some .number
  | "boolean" => some .boolean
  | _ => none

/-- The native kind a string format refines a string to. -/
def ofFormat : String → Option NativeType
  | "date-time" => some .dateTime
  | "uuid" => some .uuid
  | _ => none

/-- The name of a native kind. -/
def text : NativeType → String
  | .string => "string"
  | .integer => "integer"
  | .number => "number"
  | .boolean => "boolean"
  | .dateTime => "date-time"
  | .uuid => "uuid"

end NativeType

/-- What a value must be to be taken as it is. -/
inductive TypeHandle where
  | any
  | native (type : NativeType)
  | list (item : TypeHandle)
  | union (members : List TypeHandle)
  | optional (inner : TypeHandle)
  | enum (name : String)
  | composite (name : String)

namespace TypeHandle

mutual
/-- Whether two handles are the same. -/
def same : TypeHandle → TypeHandle → Bool
  | .any, .any => true
  | .native a, .native b => a == b
  | .list a, .list b => same a b
  | .union xs, .union ys => sameAll xs ys
  | .optional a, .optional b => same a b
  | .enum a, .enum b => a == b
  | .composite a, .composite b => a == b
  | _, _ => false
/-- Whether two lists of handles are the same, member by member. -/
def sameAll : List TypeHandle → List TypeHandle → Bool
  | [], [] => true
  | x :: xs, y :: ys => same x y && sameAll xs ys
  | _, _ => false
end

/-- The handle that also admits `null`. -/
def orNull : TypeHandle → TypeHandle
  | .optional inner => .optional inner
  | .any => .any
  | h => .optional h

/-- Whether `null` needs no casting. -/
def acceptsNull : TypeHandle → Bool
  | .any | .optional _ => true
  | _ => false

/-- The name of the composite type, for a composite handle. -/
def compositeName? : TypeHandle → Option String
  | .composite name => some name
  | _ => none

mutual
/-- The handle written as a type hint. -/
def text : TypeHandle → String
  | .any => "Any"
  | .native t => t.text
  | .list item => "List[" ++ text item ++ "]"
  | .union members => "Union[" ++ ", ".intercalate (texts members) ++ "]"
  | .optional inner => "Optional[" ++ text inner ++ "]"
  | .enum name => name
  | .composite name => name
/-- The hints of several handles. -/
def texts : List TypeHandle → List String
  | [] => []
  | h :: hs => text h :: texts hs
end

end TypeHandle

end SchemaTypes
