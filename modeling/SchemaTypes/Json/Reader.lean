import SchemaTypes.Json.Lexical

/-!
# Reading JSON text against a shape

A value is read as the `Shape` expected at its place says. Any value is taken as it comes;
a string, a map or a record refuses a value of another kind with the problem
"invalid type", naming what was found (after reading it, when it is a scalar) and what was
expected. A record refuses a repeated known field and a missing required one; these problems
are reported where the reader stands after leaving the object.

The path of a problem names the keys and positions above it. A problem that arises before a
key of an object is known (a missing comma, a trailing comma, a key that is not a string) has
the unknown key `?` as its last step; a problem between the items of an array has the array's
own path. At most 127 arrays and objects may be open at once.

The reading of whole text (`Json.parse`) also refuses anything but whitespace after the value.
-/

namespace SchemaTypes.Json

/-- The offset where leaving an object stops after a problem inside it: past the closing
brace, or past a comma and the whitespace after it. -/
def endObjectOffset (c : Cursor) : Nat :=
  let c := c.skipBlank
  match c.peek with
  | some 125 => c.offset + 1
  | some 44 => c.bump.skipBlank.offset
  | _ => c.offset

/-- The offset where leaving an array stops after a problem inside it. -/
def endArrayOffset (c : Cursor) : Nat :=
  let c := c.skipBlank
  match c.peek with
  | some 93 => c.offset + 1
  | some 44 => c.bump.skipBlank.offset
  | _ => c.offset

/-- The problem for a value of the wrong kind at the cursor: the value is read when it is a
scalar, and the problem is reported after it. -/
def wrongKind (expected : String) (path : List PathStep) (c : Cursor) : Fault :=
  let found (v : Json) (c' : Cursor) : Fault :=
    Fault.at (.invalidType (describe v) expected) c'.offset path
  let literal (v : Json) (rest : List UInt8) : Fault :=
    match expectBytes path c.bump rest with
    | .ok c' => found v c'
    | .error f => f
  match c.peek with
  | some 110 => literal .null [117, 108, 108]
  | some 116 => literal (.bool true) [114, 117, 101]
  | some 102 => literal (.bool false) [97, 108, 115, 101]
  | some 45 =>
    match readNumber false path c.bump with
    | .ok (v, c') => found v c'
    | .error f => f
  | some 34 =>
    match readString path c.bump with
    | .ok (s, c') => found (.str s) c'
    | .error f => f
  | some 91 => Fault.at (.invalidType "sequence" expected) c.offset path
  | some 123 => Fault.at (.invalidType "map" expected) c.offset path
  | some b =>
    if isDigitByte b then
      match readNumber true path c with
      | .ok (v, c') => found v c'
      | .error f => f
    else Fault.at .expectedValue c.peekOffset path
  | none => Fault.at .eofValue c.peekOffset path

/-- Whether `shape` is a record with the known field `key`. -/
def Shape.hasField (shape : Shape) (key : String) : Bool :=
  match shape with
  | .record _ fields _ _ => fields.any (·.1 == key)
  | _ => false

/-- The required fields of a record shape. -/
def Shape.requiredFields : Shape → List String
  | .record _ _ required _ => required
  | _ => []

mutual
/-- Reads one value of the given shape. `depth` is how many more arrays and objects may be
opened plus one. -/
def readValue : Nat → Nat → Shape → List PathStep → Cursor → Except Fault (Json × Cursor)
  | 0, _, _, path, c => .error (Fault.at .eofValue c.offset path)
  | fuel + 1, depth, shape, path, c0 =>
    let c := c0.skipBlank
    match shape with
    | .ignored => do
      let c' ← skipValue path c
      .ok (.null, c')
    | .optional inner =>
      if c.peek == some 110 then do
        let c' ← expectBytes path c.bump [117, 108, 108]
        .ok (.null, c')
      else readValue fuel depth inner path c
    | .any =>
      match c.peek with
      | none => .error (Fault.at .eofValue c.peekOffset path)
      | some b =>
        if b == 110 then (fun c' => (.null, c')) <$> expectBytes path c.bump [117, 108, 108]
        else if b == 116 then
          (fun c' => (.bool true, c')) <$> expectBytes path c.bump [114, 117, 101]
        else if b == 102 then
          (fun c' => (.bool false, c')) <$> expectBytes path c.bump [97, 108, 115, 101]
        else if b == 45 then readNumber false path c.bump
        else if isDigitByte b then readNumber true path c
        else if b == 34 then (fun (s, c') => (.str s, c')) <$> readString path c.bump
        else if b == 91 then
          if depth ≤ 1 then .error (Fault.at .recursionLimit c.peekOffset path)
          else readItems fuel (depth - 1) path 0 true [] c.bump
        else if b == 123 then
          if depth ≤ 1 then .error (Fault.at .recursionLimit c.peekOffset path)
          else readObject fuel (depth - 1) shape path c.bump
        else .error (Fault.at .expectedValue c.peekOffset path)
    | .string =>
      match c.peek with
      | none => .error (Fault.at .eofValue c.peekOffset path)
      | some b =>
        if b == 34 then (fun (s, c') => (.str s, c')) <$> readString path c.bump
        else .error (wrongKind shape.expecting path c)
    | .mapOf _ =>
      match c.peek with
      | none => .error (Fault.at .eofValue c.peekOffset path)
      | some b =>
        if b == 123 then
          if depth ≤ 1 then .error (Fault.at .recursionLimit c.peekOffset path)
          else readObject fuel (depth - 1) shape path c.bump
        else .error (wrongKind shape.expecting path c)
    | .record name fields required keepRest =>
      match c.peek with
      | none => .error (Fault.at .eofValue c.peekOffset path)
      | some b =>
        if b == 123 then
          if depth ≤ 1 then .error (Fault.at .recursionLimit c.peekOffset path)
          else readObject fuel (depth - 1) shape path c.bump
        else if b == 91 && !keepRest then
          if depth ≤ 1 then .error (Fault.at .recursionLimit c.peekOffset path)
          else readFields fuel (depth - 1) name fields.length required path 0 true [] fields c.bump
        else .error (wrongKind shape.expecting path c)
/-- Reads the items of an array after its opening bracket, through the closing bracket. -/
def readItems : Nat → Nat → List PathStep → Nat → Bool → List Json → Cursor →
    Except Fault (Json × Cursor)
  | 0, _, path, _, _, _, c => .error (Fault.at .eofList c.offset path)
  | fuel + 1, depth, path, ix, first, acc, c0 => do
    let c := c0.skipBlank
    match c.peek with
    | none => .error (Fault.at .eofList c.peekOffset path)
    | some 93 => .ok (.arr acc.reverse, c.bump)
    | some b =>
      let c2 ← if b == 44 && !first then .ok c.bump.skipBlank
        else if first then .ok c
        else .error (Fault.at .expectedListCommaOrEnd c.peekOffset path)
      match c2.peek with
      | some 93 => .error (Fault.at .trailingComma c2.peekOffset path)
      | none => .error (Fault.at .eofValue c2.peekOffset path)
      | some _ =>
        let (v, c3) ← readValue fuel depth .any (path ++ [.index ix]) c2
        readItems fuel depth path (ix + 1) false (v :: acc) c3
/-- Reads the members of an object after its opening brace, through the closing brace. -/
def readObject : Nat → Nat → Shape → List PathStep → Cursor → Except Fault (Json × Cursor)
  | 0, _, _, path, c => .error (Fault.at .eofObject c.offset path)
  | fuel + 1, depth, shape, path, c => do
    let (members, c') ← readMembers fuel depth shape path true [] [] c
    match shape.requiredFields.find? (fun f => !(members.any (·.1 == f))) with
    | some f => .error (Fault.at (.missingField f) (endObjectOffset c') path)
    | none => .ok (.obj members, c'.skipBlank.bump)
/-- Reads members up to the closing brace, which is left unread. -/
def readMembers : Nat → Nat → Shape → List PathStep → Bool → List String →
    List (String × Json) → Cursor → Except Fault (List (String × Json) × Cursor)
  | 0, _, _, path, _, _, _, c => .error (Fault.at .eofObject c.offset path)
  | fuel + 1, depth, shape, path, first, seen, acc, c0 => do
    let c := c0.skipBlank
    let keyPath := path ++ [.unknownKey]
    match c.peek with
    | none => .error (Fault.at .eofObject c.peekOffset keyPath)
    | some 125 => .ok (acc, c)
    | some b =>
      let c2 ← if b == 44 && !first then .ok c.bump.skipBlank
        else if first then .ok c
        else .error (Fault.at .expectedObjectCommaOrEnd c.peekOffset keyPath)
      match c2.peek with
      | some 34 =>
        let (key, c3) ← readString keyPath c2.bump
        let known := shape.hasField key
        if known && seen.contains key then
          .error (Fault.at (.duplicateField key) (endObjectOffset c3) path)
        else
          let valuePath := path ++ [.key key]
          let c4 := c3.skipBlank
          match c4.peek with
          | some 58 =>
            let memberShape := shape.memberShape key
            let (v, c5) ← readValue fuel depth memberShape valuePath c4.bump
            let acc := match memberShape with
              | .ignored => acc
              | _ => setMember acc key v
            readMembers fuel depth shape path false (if known then key :: seen else seen) acc c5
          | some _ => .error (Fault.at .expectedColon c4.peekOffset valuePath)
          | none => .error (Fault.at .eofObject c4.peekOffset valuePath)
      | some 125 => .error (Fault.at .trailingComma c2.peekOffset keyPath)
      | none => .error (Fault.at .eofValue c2.peekOffset keyPath)
      | some _ => .error (Fault.at .keyMustBeString c2.peekOffset keyPath)
/-- Reads the fields of a record given as an array, one item per field in order, then the
end of the array. -/
def readFields : Nat → Nat → String → Nat → List String → List PathStep → Nat → Bool →
    List (String × Json) → List (String × Shape) → Cursor → Except Fault (Json × Cursor)
  | 0, _, _, _, _, path, _, _, _, _, c => .error (Fault.at .eofList c.offset path)
  | fuel + 1, depth, name, count, required, path, ix, first, acc, fields, c0 => do
    let c := c0.skipBlank
    let finish : Except Fault (Json × Cursor) :=
      match c.peek with
      | some 93 => .ok (.obj acc.reverse, c.bump)
      | some 44 =>
        let c' := c.bump.skipBlank
        if c'.peek == some 93 then .error (Fault.at .trailingComma c'.peekOffset path)
        else .error (Fault.at .trailingCharacters c'.peekOffset path)
      | some _ => .error (Fault.at .trailingCharacters c.peekOffset path)
      | none => .error (Fault.at .eofList c.peekOffset path)
    match fields with
    | [] => finish
    | (f, s) :: rest =>
      match c.peek with
      | none => .error (Fault.at .eofList c.peekOffset path)
      | some 93 =>
        match (f :: rest.map (·.1)).findIdx? (required.contains ·) with
        | some k =>
          .error (Fault.at (.invalidLength (ix + k) ("struct " ++ name ++ " with " ++
            toString count ++ " elements")) (endArrayOffset c) path)
        | none => finish
      | some b =>
        let c2 ← if b == 44 && !first then .ok c.bump.skipBlank
          else if first then .ok c
          else .error (Fault.at .expectedListCommaOrEnd c.peekOffset path)
        match c2.peek with
        | some 93 => .error (Fault.at .trailingComma c2.peekOffset path)
        | none => .error (Fault.at .eofValue c2.peekOffset path)
        | some _ =>
          let (v, c3) ← readValue fuel depth s (path ++ [.index ix]) c2
          readFields fuel depth name count required path (ix + 1) false ((f, v) :: acc) rest c3
end

/-! ## Whole texts -/

/-- A reading problem as reported: the problem, its line and column (when it was read from
text), and the path at which it arose. -/
structure ReadError where
  issue : Issue
  position : Option (Nat × Nat)
  path : List PathStep

/-- The text of a reading problem. -/
def ReadError.message (e : ReadError) : String :=
  match e.position with
  | some (line, column) =>
    e.issue.message ++ " at line " ++ toString line ++ " column " ++ toString column
  | none => e.issue.message

/-- The line (from one) and the column (in bytes, from zero) of a byte offset. -/
def lineColumn (bytes : List UInt8) (offset : Nat) : Nat × Nat :=
  let before := bytes.take offset
  (1 + before.count 10, (before.reverse.takeWhile (· != 10)).length)

/-- Reads a value of the given shape from bytes. With `whole`, only whitespace may follow
the value. With `streamed`, a position counts the bytes a reader of a stream has taken,
one more than those read when it holds the byte after a number. -/
def readBytesFrom (streamed : Bool) (shape : Shape) (whole : Bool) (bytes : List UInt8) :
    Except ReadError Json :=
  let located (f : Fault) : ReadError :=
    ⟨f.issue, some (lineColumn bytes (if streamed && f.lookahead then f.offset + 1 else f.offset)),
      f.path⟩
  match readValue (2 * bytes.length + 8) 128 shape [] ⟨bytes, 0⟩ with
  | .error f => .error (located f)
  | .ok (v, c) =>
    let c := c.skipBlank
    if whole && !c.rest.isEmpty then .error (located (Fault.at .trailingCharacters c.peekOffset []))
    else .ok v

/-- Reads a value of the given shape from the bytes of a text in memory. -/
def readBytes (shape : Shape) (whole : Bool) (bytes : List UInt8) : Except ReadError Json :=
  readBytesFrom false shape whole bytes

/-- Reads JSON text that holds one value and nothing else. -/
def parse (text : String) : Except ReadError Json := readBytes .any true text.toUTF8.toList

/-- Reads JSON text that holds one value and nothing else, as a reader of a stream of its
bytes does. -/
def parseStream (text : String) : Except ReadError Json :=
  readBytesFrom true .any true text.toUTF8.toList

/-- Checks a decoded value against a shape, reporting problems without a position. -/
def checkShape (shape : Shape) (v : Json) : Except ReadError Json :=
  match shape.check [] v with
  | .ok v => .ok v
  | .error e => .error ⟨e.issue, none, e.path⟩

end SchemaTypes.Json
