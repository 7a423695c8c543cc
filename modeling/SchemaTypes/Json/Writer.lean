import SchemaTypes.Json.Basic
import SchemaTypes.Number.Layout

/-!
# Writing JSON text

Compact text has no whitespace at all; pretty text puts every array item and object member
on a line of its own, indented by two spaces per level, with `": "` after a key, while an
empty array or object stays `[]` or `{}`. Strings escape the quote, the backslash and the
control characters below U+0020 (the usual short escapes where they exist, else
`\u00xx` in lowercase hexadecimal); every other character is written as it is. Doubles use
the JSON style of `Number.Layout`.
-/

namespace SchemaTypes.Json

/-- Two lowercase hexadecimal digits of a byte. -/
def hexByte (n : Nat) : List Char :=
  let digit (d : Nat) : Char := if d < 10 then Char.ofNat (48 + d) else Char.ofNat (87 + d)
  [digit (n / 16 % 16), digit (n % 16)]

/-- How one character of a string is written in JSON text. -/
def escapeChar (c : Char) : List Char :=
  if c = '"' then ['\\', '"']
  else if c = '\\' then ['\\', '\\']
  else if c = '\n' then ['\\', 'n']
  else if c = '\r' then ['\\', 'r']
  else if c = '\t' then ['\\', 't']
  else if c = '\x08' then ['\\', 'b']
  else if c = '\x0c' then ['\\', 'f']
  else if c.toNat < 0x20 then ['\\', 'u', '0', '0'] ++ hexByte c.toNat
  else [c]

/-- A string as JSON text, in double quotes. -/
def quote (s : String) : String := String.ofList ('"' :: s.toList.flatMap escapeChar ++ ['"'])

/-- The text of a JSON number that is an integer. -/
def intText (n : Int) : String := toString n

/-- Line break and indentation for the given depth of pretty text. -/
def newline (depth : Nat) : String := "\n" ++ String.ofList (List.replicate (2 * depth) ' ')

mutual
/-- The text of a value; pretty text is indented as for nesting depth `depth`. -/
def render (pretty : Bool) (depth : Nat) : Json → String
  | .null => "null"
  | .bool b => if b then "true" else "false"
  | .int n => intText n
  | .float x => Number.jsonText x
  | .str s => quote s
  | .arr [] => "[]"
  | .arr (x :: xs) =>
    "[" ++ renderItems pretty (depth + 1) true (x :: xs) ++
      (if pretty then newline depth else "") ++ "]"
  | .obj [] => "\x7b\x7d"
  | .obj (m :: ms) =>
    "\x7b" ++ renderMembers pretty (depth + 1) true (m :: ms) ++
      (if pretty then newline depth else "") ++ "\x7d"
/-- The items of an array, each after its separator. -/
def renderItems (pretty : Bool) (depth : Nat) (first : Bool) : List Json → String
  | [] => ""
  | x :: xs =>
    (if first then "" else ",") ++ (if pretty then newline depth else "") ++
      render pretty depth x ++ renderItems pretty depth false xs
/-- The members of an object, each after its separator. -/
def renderMembers (pretty : Bool) (depth : Nat) (first : Bool) : List (String × Json) → String
  | [] => ""
  | (k, v) :: ms =>
    (if first then "" else ",") ++ (if pretty then newline depth else "") ++
      quote k ++ (if pretty then ": " else ":") ++ render pretty depth v ++
      renderMembers pretty depth false ms
end

/-- Compact JSON text. -/
def compact (v : Json) : String := render false 0 v

/-- Pretty JSON text, indented by two spaces. -/
def pretty (v : Json) : String := render true 0 v

end SchemaTypes.Json
