import SchemaTypes.Value.Basic
import SchemaTypes.Number.Layout
import SchemaTypes.Text.Debug
import SchemaTypes.Json.Writer

/-! # The text of a value

Two texts of a value. The display text is what messages and the text of an instance show:
strings are quoted with escapes, doubles take their debug form (`3.0`, `1e20`), lists are
`[a, b]`, maps `{"k": v}`, instances `Name(attr=value,...)` and members `Enum.MEMBER`. An
instance whose text would pass 200 characters is shown as `Name(...)`.

The debug text names every kind as a constructor (`Integer(3)`, `String("x")`) and shows an
instance as `Name { attr: Value }`, a record of its fields.
-/

namespace SchemaTypes

namespace Value

/-- The most characters the text of an instance may have before it is cut to `Name(...)`. -/
def reprLimit : Nat := 200

/-- The text of an instance from the texts of its fields. -/
def instanceText (typeName : String) (fields : List (String × String)) : String :=
  let full := typeName ++ "(" ++ ",".intercalate (fields.map fun (k, v) => k ++ "=" ++ v) ++ ")"
  if full.length > reprLimit then typeName ++ "(...)" else full

mutual
/-- The display text of a value. -/
def display : Value → String
  | .null => "null"
  | .bool b => if b then "true" else "false"
  | .int n => toString n
  | .number x => Number.debugText x
  | .str s => Text.debugQuote s
  | .dateTime t => t.format
  | .uuid u => u.format
  | .list xs => "[" ++ ", ".intercalate (displayItems xs) ++ "]"
  | .map es => "\x7b" ++ ", ".intercalate ((displayEntries es).map fun (k, v) =>
      Text.debugQuote k ++ ": " ++ v) ++ "\x7d"
  | .object name fs => instanceText name (displayEntries fs)
  | .enum m => m.enumName ++ "." ++ m.name
/-- The display texts of items. -/
def displayItems : List Value → List String
  | [] => []
  | x :: xs => display x :: displayItems xs
/-- The display texts of entries' values. -/
def displayEntries : List (String × Value) → List (String × String)
  | [] => []
  | (k, v) :: es => (k, display v) :: displayEntries es
end

end Value

/-! ## Debug text -/

/-- The debug text of a timestamp: the fraction of a second is left out when zero and else
shown in groups of three digits, as few as needed. -/
def Timestamp.debugText (t : Timestamp) : String :=
  let nanos := t.micros * 1000
  let fraction :=
    if nanos = 0 then ""
    else if nanos % 1000000 = 0 then "." ++ Timestamp.padded 3 (nanos / 1000000)
    else "." ++ Timestamp.padded 6 (nanos / 1000)
  Timestamp.yearText t.year ++ "-" ++ Timestamp.padded 2 t.month ++ "-" ++
    Timestamp.padded 2 t.day ++ "T" ++ Timestamp.padded 2 t.hour ++ ":" ++
    Timestamp.padded 2 t.minute ++ ":" ++ Timestamp.padded 2 t.second ++ fraction ++ "Z"

namespace Json

mutual
/-- The debug text of a JSON value. -/
def debugText : Json → String
  | .null => "Null"
  | .bool b => "Bool(" ++ (if b then "true" else "false") ++ ")"
  | .int n => "Number(" ++ toString n ++ ")"
  | .float x => "Number(" ++ Number.jsonText x ++ ")"
  | .str s => "String(" ++ Text.debugQuote s ++ ")"
  | .arr xs => "Array [" ++ ", ".intercalate (debugItems xs) ++ "]"
  | .obj ms => "Object \x7b" ++ ", ".intercalate (debugMembers ms) ++ "\x7d"
/-- The debug texts of items. -/
def debugItems : List Json → List String
  | [] => []
  | x :: xs => debugText x :: debugItems xs
/-- The debug texts of members, each as `"key": value`. -/
def debugMembers : List (String × Json) → List String
  | [] => []
  | (k, v) :: ms => (Text.debugQuote k ++ ": " ++ debugText v) :: debugMembers ms
end

end Json

/-- The debug text of an optional text. -/
def optionDebug {α : Type} (f : α → String) : Option α → String
  | some a => "Some(" ++ f a ++ ")"
  | none => "None"

/-- The debug text of a member, as a record of all its fields. -/
def EnumMember.debugText (m : EnumMember) : String :=
  "EnumMember \x7b enum_name: " ++ Text.debugQuote m.enumName ++ ", name: " ++
    Text.debugQuote m.name ++ ", id: " ++ Text.debugQuote m.id ++ ", description: " ++
    optionDebug Text.debugQuote m.description ++ ", literal: " ++
    optionDebug Json.debugText m.literal ++ " \x7d"

namespace Value

/-- The debug text of a record: its name alone when it has no fields. -/
def recordText (name : String) (fields : List (String × String)) : String :=
  match fields with
  | [] => name
  | fs => name ++ " \x7b " ++ ", ".intercalate (fs.map fun (k, v) => k ++ ": " ++ v) ++ " \x7d"

mutual
/-- The debug text of a value. -/
def debugText : Value → String
  | .null => "Null"
  | .bool b => "Bool(" ++ (if b then "true" else "false") ++ ")"
  | .int n => "Integer(" ++ toString n ++ ")"
  | .number x => "Number(" ++ Number.debugText x ++ ")"
  | .str s => "String(" ++ Text.debugQuote s ++ ")"
  | .dateTime t => "DateTime(" ++ t.debugText ++ ")"
  | .uuid u => "Uuid(" ++ u.format ++ ")"
  | .list xs => "List([" ++ ", ".intercalate (debugItems xs) ++ "])"
  | .map es => "Map(\x7b" ++ ", ".intercalate ((debugEntries es).map fun (k, v) =>
      Text.debugQuote k ++ ": " ++ v) ++ "\x7d)"
  | .object name fs => "Object(" ++ recordText name (debugEntries fs) ++ ")"
  | .enum m => "Enum(" ++ m.debugText ++ ")"
/-- The debug texts of items. -/
def debugItems : List Value → List String
  | [] => []
  | x :: xs => debugText x :: debugItems xs
/-- The debug texts of entries' values. -/
def debugEntries : List (String × Value) → List (String × String)
  | [] => []
  | (k, v) :: es => (k, debugText v) :: debugEntries es
end

/-- The debug text of an instance. -/
def instanceDebug (typeName : String) (fields : List (String × Value)) : String :=
  recordText typeName (debugEntries fields)

end Value

end SchemaTypes
