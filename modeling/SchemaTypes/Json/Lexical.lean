import SchemaTypes.Json.Shape
import SchemaTypes.Number.Binary

/-!
# The lexical level of JSON text

Text is read as UTF-8 bytes. The cursor keeps the byte count of what has been consumed; a
problem is reported at that count, or one byte further when the problem lies in a byte that
was looked at but not consumed. This module reads the tokens: literals, strings with their
escapes, and numbers, and it scans whole values that are to be dropped.

An integer that fits in 64 bits (unsigned, or signed when negative) stays an integer, and
`-0` is the double `-0.0`. Every other number keeps the digits that fit a 64-bit significand
and becomes that significand as a double, scaled by the power of ten in double arithmetic; one
beyond the largest double is the problem "number out of range", as is an exponent beyond the
32-bit range on a nonzero positive power.

Values that are dropped are only scanned: there the rules for numbers and commas are
looser, as a scanner needs to check less.
-/

namespace SchemaTypes.Json

/-! ## Bytes and characters -/

/-- The UTF-8 bytes of a code point. -/
def utf8Encode (n : Nat) : List UInt8 :=
  if n < 0x80 then [n.toUInt8]
  else if n < 0x800 then [(0xC0 + n / 64).toUInt8, (0x80 + n % 64).toUInt8]
  else if n < 0x10000 then
    [(0xE0 + n / 4096).toUInt8, (0x80 + n / 64 % 64).toUInt8, (0x80 + n % 64).toUInt8]
  else
    [(0xF0 + n / 262144).toUInt8, (0x80 + n / 4096 % 64).toUInt8,
      (0x80 + n / 64 % 64).toUInt8, (0x80 + n % 64).toUInt8]

/-- Characters of well-formed UTF-8 bytes; a malformed byte stands for U+FFFD. -/
def utf8Decode : List UInt8 → List Char
  | [] => []
  | b :: rest =>
    let n := b.toNat
    if n < 0x80 then Char.ofNat n :: utf8Decode rest
    else if n < 0xE0 then
      match rest with
      | b1 :: r => Char.ofNat ((n % 32) * 64 + b1.toNat % 64) :: utf8Decode r
      | [] => ['�']
    else if n < 0xF0 then
      match rest with
      | b1 :: b2 :: r =>
        Char.ofNat ((n % 16) * 4096 + (b1.toNat % 64) * 64 + b2.toNat % 64) :: utf8Decode r
      | _ => ['�']
    else
      match rest with
      | b1 :: b2 :: b3 :: r =>
        Char.ofNat ((n % 8) * 262144 + (b1.toNat % 64) * 4096 + (b2.toNat % 64) * 64 +
          b3.toNat % 64) :: utf8Decode r
      | _ => ['�']

/-- Whether a byte is an ASCII digit. -/
def isDigitByte (b : UInt8) : Bool := 48 ≤ b.toNat ∧ b.toNat ≤ 57

/-- The value of an ASCII digit byte. -/
def digitOf (b : UInt8) : Nat := b.toNat - 48

/-- The value of an ASCII hexadecimal digit byte. -/
def hexOf (b : UInt8) : Option Nat :=
  let n := b.toNat
  if 48 ≤ n ∧ n ≤ 57 then some (n - 48)
  else if 65 ≤ n ∧ n ≤ 70 then some (n - 55)
  else if 97 ≤ n ∧ n ≤ 102 then some (n - 87)
  else none

/-- Whether a byte is JSON whitespace. -/
def isBlankByte (b : UInt8) : Bool := b == 0x20 || b == 0x0A || b == 0x09 || b == 0x0D

/-! ## The cursor -/

/-- What is left of the input and how many bytes came before it. -/
structure Cursor where
  rest : List UInt8
  offset : Nat

/-- The next byte, not consumed. -/
def Cursor.peek (c : Cursor) : Option UInt8 := c.rest.head?

/-- Consumes one byte. -/
def Cursor.bump (c : Cursor) : Cursor :=
  match c.rest with
  | [] => c
  | _ :: r => ⟨r, c.offset + 1⟩

/-- Where a problem with the next byte is reported: just past it, or at the end. -/
def Cursor.peekOffset (c : Cursor) : Nat := if c.rest.isEmpty then c.offset else c.offset + 1

/-- Consumes whitespace. -/
def Cursor.skipBlank (c : Cursor) : Cursor :=
  let blank := c.rest.takeWhile isBlankByte
  ⟨c.rest.drop blank.length, c.offset + blank.length⟩

/-- Consumes digits, returning them. -/
def Cursor.takeDigits (c : Cursor) : List UInt8 × Cursor :=
  let ds := c.rest.takeWhile isDigitByte
  (ds, ⟨c.rest.drop ds.length, c.offset + ds.length⟩)

/-- A reading failure: the problem, the byte offset it is reported at, and the path.
`lookahead` tells that a reader of a stream already holds the byte after the offset, as it
does after a number, whose end it sees only by taking the next byte. -/
structure Fault where
  issue : Issue
  offset : Nat
  path : List PathStep
  lookahead : Bool := false

/-- A failure at an offset. -/
def Fault.at (issue : Issue) (offset : Nat) (path : List PathStep) : Fault :=
  { issue, offset, path }

/-- A failure right after a number, at the cursor that follows it. -/
def Fault.afterNumber (issue : Issue) (c : Cursor) (path : List PathStep) : Fault :=
  { issue, offset := c.offset, path, lookahead := !c.rest.isEmpty }

/-! ## Literals and strings -/

/-- Consumes the rest of a literal (`ull` of `null`, …). -/
def expectBytes (path : List PathStep) (c : Cursor) : List UInt8 → Except Fault Cursor
  | [] => .ok c
  | b :: bs =>
    match c.rest with
    | [] => .error (Fault.at .eofValue c.offset path)
    | x :: _ =>
      if x == b then expectBytes path c.bump bs
      else .error (Fault.at .expectedIdent c.bump.offset path)

/-- Four hexadecimal digits of an escape. -/
def readHex4 (path : List PathStep) (c : Cursor) : Except Fault (Nat × Cursor) :=
  match c.rest with
  | a :: b :: d :: e :: r =>
    let c' : Cursor := ⟨r, c.offset + 4⟩
    match hexOf a, hexOf b, hexOf d, hexOf e with
    | some x1, some x2, some x3, some x4 => .ok (((x1 * 16 + x2) * 16 + x3) * 16 + x4, c')
    | _, _, _, _ => .error (Fault.at .invalidEscape c'.offset path)
  | r => .error (Fault.at .eofString (c.offset + r.length) path)

/-- The bytes of a `\u` escape, a surrogate pair taking two escapes. -/
def readUnicodeEscape (path : List PathStep) (c : Cursor) : Except Fault (List UInt8 × Cursor) := do
  let (n, c) ← readHex4 path c
  if 0xDC00 ≤ n ∧ n ≤ 0xDFFF then throw (Fault.at .loneLeadingSurrogate c.offset path)
  if n < 0xD800 ∨ n > 0xDBFF then return (utf8Encode n, c)
  match c.peek with
  | none => throw (Fault.at .eofString c.offset path)
  | some b =>
    if b != 92 then throw (Fault.at .unexpectedEndOfHexEscape c.bump.offset path)
    let c := c.bump
    match c.peek with
    | none => throw (Fault.at .eofString c.offset path)
    | some b =>
      if b != 117 then throw (Fault.at .unexpectedEndOfHexEscape c.bump.offset path)
      let (n2, c) ← readHex4 path c.bump
      if n2 < 0xDC00 ∨ n2 > 0xDFFF then throw (Fault.at .loneLeadingSurrogate c.offset path)
      return (utf8Encode (((n - 0xD800) * 1024 + (n2 - 0xDC00)) + 0x10000), c)

/-- The bytes an escape stands for, after its backslash. -/
def readEscape (path : List PathStep) (c : Cursor) : Except Fault (List UInt8 × Cursor) :=
  match c.rest with
  | [] => .error (Fault.at .eofString c.offset path)
  | b :: _ =>
    let c' := c.bump
    if b == 34 then .ok ([34], c')
    else if b == 92 then .ok ([92], c')
    else if b == 47 then .ok ([47], c')
    else if b == 98 then .ok ([8], c')
    else if b == 102 then .ok ([12], c')
    else if b == 110 then .ok ([10], c')
    else if b == 114 then .ok ([13], c')
    else if b == 116 then .ok ([9], c')
    else if b == 117 then readUnicodeEscape path c'
    else .error (Fault.at .invalidEscape c'.offset path)

/-- The body of a string after its opening quote, as bytes in reverse. -/
def readStringBytes (path : List PathStep) : Nat → List UInt8 → Cursor →
    Except Fault (List UInt8 × Cursor)
  | 0, _, c => .error (Fault.at .eofString c.offset path)
  | fuel + 1, acc, c =>
    match c.rest with
    | [] => .error (Fault.at .eofString c.offset path)
    | b :: _ =>
      if b == 34 then .ok (acc, c.bump)
      else if b == 92 then do
        let (bytes, c') ← readEscape path c.bump
        readStringBytes path fuel (bytes.reverse ++ acc) c'
      else if b.toNat < 0x20 then .error (Fault.at .controlCharacter c.bump.offset path)
      else readStringBytes path fuel (b :: acc) c.bump

/-- A string after its opening quote. -/
def readString (path : List PathStep) (c : Cursor) : Except Fault (String × Cursor) := do
  let (bytes, c') ← readStringBytes path (c.rest.length + 1) [] c
  return (String.ofList (utf8Decode bytes.reverse), c')

/-! ## Numbers -/

/-- The largest unsigned 64-bit integer. -/
def u64Max : Nat := Nat.pow 2 64 - 1

/-- The value of decimal digit bytes. -/
def digitsValue (ds : List UInt8) : Nat := ds.foldl (fun acc d => acc * 10 + digitOf d) 0

/-- The number of leading digits whose value stays within the 32-bit signed range, or none
when all of them do. -/
def exponentOverflow (ds : List UInt8) : Option Nat :=
  let rec go : List UInt8 → Nat → Nat → Option Nat
    | [], _, _ => none
    | d :: rest, acc, k =>
      let next := acc * 10 + digitOf d
      if next > 2147483647 then some (k + 1) else go rest next (k + 1)
  go ds 0 0

/-- Consumes `k` bytes. -/
def Cursor.skip (c : Cursor) (k : Nat) : Cursor := ⟨c.rest.drop k, c.offset + k⟩

/-- Digits taken into a significand while it stays within 64 bits: the significand and how
many digits were taken. Taking stops at the first byte that is no digit or would overflow. -/
def absorbDigits : Nat → List UInt8 → Nat × Nat
  | sig, d :: rest =>
    if isDigitByte d ∧ sig * 10 + digitOf d ≤ u64Max then
      let (s, k) := absorbDigits (sig * 10 + digitOf d) rest
      (s, k + 1)
    else (sig, 0)
  | sig, [] => (sig, 0)

/-- The double of a significand scaled by a power of ten, with its sign, or the problem
"number out of range" at the cursor after the number. -/
def scaledValue (positive : Bool) (sig : Nat) (exponent : Int) (path : List PathStep)
    (c : Cursor) : Except Fault (Json × Cursor) :=
  match Number.scaledDecimal sig exponent with
  | some f => .ok (.float (if positive then f else -f), c)
  | none => .error (Fault.afterNumber .numberOutOfRange c path)

/-- The exponent part from its `e`, and the number it completes; `start` is the power of ten
the significand already carries. -/
def readExponentPart (positive : Bool) (sig : Nat) (start : Int) (path : List PathStep)
    (c : Cursor) : Except Fault (Json × Cursor) :=
  let c := c.bump
  let (positiveExp, c) := match c.peek with
    | some 43 => (true, c.bump)
    | some 45 => (false, c.bump)
    | _ => (true, c)
  match c.rest with
  | [] => .error (Fault.at .eofValue c.offset path)
  | b :: _ =>
    if !isDigitByte b then .error (Fault.at .invalidNumber c.bump.offset path)
    else
      let (ds, c') := c.takeDigits
      match exponentOverflow ds with
      | some used =>
        if sig ≠ 0 ∧ positiveExp then
          .error (Fault.at .numberOutOfRange (c.offset + used) path)
        else .ok (.float (if positive then 0.0 else -0.0), c')
      | none =>
        let e : Int := digitsValue ds
        scaledValue positive sig (if positiveExp then start + e else start - e) path c'

/-- What follows the digits of a fraction: an exponent part, or the end of the number. -/
def afterFraction (positive : Bool) (sig : Nat) (exponent : Int) (path : List PathStep)
    (c : Cursor) : Except Fault (Json × Cursor) :=
  match c.peek with
  | some 101 | some 69 => readExponentPart positive sig exponent path c
  | _ => scaledValue positive sig exponent path c

/-- The fraction from its point. Its digits join the significand while it stays within 64
bits, each lowering the power of ten; the digits after that are dropped. -/
def readFraction (positive : Bool) (sig : Nat) (start : Int) (path : List PathStep)
    (c : Cursor) : Except Fault (Json × Cursor) :=
  let c1 := c.bump
  let (sig', k) := absorbDigits sig c1.rest
  let c2 := c1.skip k
  let exponent := start - k
  match c2.peek with
  | some d =>
    if isDigitByte d then afterFraction positive sig' exponent path c2.takeDigits.2
    else if k = 0 then .error (Fault.at .invalidNumber c2.peekOffset path)
    else afterFraction positive sig' exponent path c2
  | none =>
    if k = 0 then .error (Fault.at .eofValue c2.peekOffset path)
    else afterFraction positive sig' exponent path c2

/-- The integer that ends a number without point or exponent: an integer when it fits the
64-bit ranges, else a double; `-0` is the double `-0.0`. -/
def integerValue (positive : Bool) (sig : Nat) : Json :=
  if positive then .int sig
  else if sig = 0 then .float (-0.0)
  else if sig ≤ Nat.pow 2 63 then .int (-(sig : Int))
  else .float (-(Number.ofRatio false sig 1))

/-- What follows the integer digits: a fraction, an exponent part, or the end of the number.
`dropped` counts the integer digits left out of the significand; when there are any, the
number is a double even without point or exponent. -/
def afterInteger (positive : Bool) (sig dropped : Nat) (path : List PathStep) (c : Cursor) :
    Except Fault (Json × Cursor) :=
  match c.peek with
  | some 46 => readFraction positive sig dropped path c
  | some 101 | some 69 => readExponentPart positive sig dropped path c
  | _ =>
    if dropped = 0 then .ok (integerValue positive sig, c)
    else scaledValue positive sig dropped path c

/-- A number after its optional minus sign. The significand keeps the digits that fit in 64
bits; integer digits beyond them each raise the power of ten, and the double is the
significand scaled by that power. -/
def readNumber (positive : Bool) (path : List PathStep) (c : Cursor) :
    Except Fault (Json × Cursor) :=
  match c.rest with
  | [] => .error (Fault.at .eofValue c.offset path)
  | b :: _ =>
    let c1 := c.bump
    if b == 48 then
      match c1.peek with
      | some d =>
        if isDigitByte d then .error (Fault.at .invalidNumber c1.peekOffset path)
        else afterInteger positive 0 0 path c1
      | none => afterInteger positive 0 0 path c1
    else if isDigitByte b then
      let (sig, k) := absorbDigits (digitOf b) c1.rest
      let (dropped, c2) := (c1.skip k).takeDigits
      afterInteger positive sig dropped.length path c2
    else .error (Fault.at .invalidNumber c1.offset path)

/-! ## Skipping a value -/

/-- Scans a number without computing it. -/
def skipNumber (path : List PathStep) (c : Cursor) : Except Fault Cursor :=
  let first := c.peek
  let c1 := c.bump
  let afterInt : Except Fault Cursor :=
    match first with
    | some 48 =>
      match c1.peek with
      | some d => if isDigitByte d then .error (Fault.at .invalidNumber c1.peekOffset path)
        else .ok c1
      | none => .ok c1
    | some d => if isDigitByte d then .ok c1.takeDigits.2
      else .error (Fault.at .invalidNumber c1.offset path)
    | none => .error (Fault.at .invalidNumber c.offset path)
  match afterInt with
  | .error f => .error f
  | .ok c2 =>
    let skipExponent (c : Cursor) : Except Fault Cursor :=
      let c := c.bump
      let c := match c.peek with
        | some 43 | some 45 => c.bump
        | _ => c
      match c.peek with
      | some d => if isDigitByte d then .ok c.bump.takeDigits.2
        else .error (Fault.at .invalidNumber c.bump.offset path)
      | none => .error (Fault.at .invalidNumber c.offset path)
    match c2.peek with
    | some 46 =>
      let (ds, c3) := c2.bump.takeDigits
      if ds.isEmpty then .error (Fault.at .invalidNumber c3.peekOffset path)
      else match c3.peek with
        | some 101 | some 69 => skipExponent c3
        | _ => .ok c3
    | some 101 | some 69 => skipExponent c2
    | _ => .ok c2

/-- Scans a string after its opening quote without decoding it. -/
def skipString (path : List PathStep) : Nat → Cursor → Except Fault Cursor
  | 0, c => .error (Fault.at .eofString c.offset path)
  | fuel + 1, c =>
    match c.rest with
    | [] => .error (Fault.at .eofString c.offset path)
    | b :: _ =>
      if b == 34 then .ok c.bump
      else if b == 92 then
        let c := c.bump
        match c.rest with
        | [] => .error (Fault.at .eofString c.offset path)
        | e :: _ =>
          if e == 117 then
            match readHex4 path c.bump with
            | .ok (_, c') => skipString path fuel c'
            | .error f => .error f
          else if e == 34 || e == 92 || e == 47 || e == 98 || e == 102 || e == 110 ||
              e == 114 || e == 116 then skipString path fuel c.bump
          else .error (Fault.at .invalidEscape c.bump.offset path)
      else if b.toNat < 0x20 then .error (Fault.at .controlCharacter c.offset path)
      else skipString path fuel c.bump

/-- Scans one value that is dropped, keeping a stack of the arrays and objects still open. -/
def skipValue (path : List PathStep) (c : Cursor) : Except Fault Cursor :=
  let rec scalarOrOpen (c : Cursor) : Except Fault (Option UInt8 × Cursor) :=
    let c := c.skipBlank
    match c.peek with
    | none => .error (Fault.at .eofValue c.peekOffset path)
    | some b =>
      if b == 110 then (fun c => (none, c)) <$> expectBytes path c.bump [117, 108, 108]
      else if b == 116 then (fun c => (none, c)) <$> expectBytes path c.bump [114, 117, 101]
      else if b == 102 then (fun c => (none, c)) <$> expectBytes path c.bump [97, 108, 115, 101]
      else if b == 45 then (fun c => (none, c)) <$> skipNumber path c.bump
      else if isDigitByte b then (fun c => (none, c)) <$> skipNumber path c
      else if b == 34 then (fun c => (none, c)) <$> skipString path (c.rest.length + 1) c.bump
      else if b == 91 || b == 123 then .ok (some b, c.bump)
      else .error (Fault.at .expectedValue c.peekOffset path)
  -- after a value or an opening bracket: close what can be closed, then expect the next value
  let rec settle : Nat → Bool → UInt8 → List UInt8 → Cursor →
      Except Fault (Option (UInt8 × List UInt8) × Cursor)
    | 0, _, _, _, c => .error (Fault.at .eofValue c.offset path)
    | fuel + 1, acceptComma, frame, stack, c =>
      let c := c.skipBlank
      match c.peek with
      | none => .error (Fault.at (if frame == 91 then .eofList else .eofObject) c.peekOffset path)
      | some b =>
        if b == 44 && acceptComma then .ok (some (frame, stack), c.bump)
        else if (b == 93 && frame == 91) || (b == 125 && frame == 123) then
          match stack with
          | [] => .ok (none, c.bump)
          | f :: fs => settle fuel true f fs c.bump
        else if acceptComma then
          .error (Fault.at (if frame == 91 then .expectedListCommaOrEnd
            else .expectedObjectCommaOrEnd) c.peekOffset path)
        else .ok (some (frame, stack), c)
  let keyAndColon (c : Cursor) : Except Fault Cursor := do
    let c := c.skipBlank
    match c.peek with
    | some 34 =>
      let c ← skipString path (c.rest.length + 1) c.bump
      let c := c.skipBlank
      match c.peek with
      | some 58 => .ok c.bump
      | some _ => .error (Fault.at .expectedColon c.peekOffset path)
      | none => .error (Fault.at .eofObject c.peekOffset path)
    | some _ => .error (Fault.at .keyMustBeString c.peekOffset path)
    | none => .error (Fault.at .eofObject c.peekOffset path)
  let rec loop : Nat → Option UInt8 → List UInt8 → Cursor → Except Fault Cursor
    | 0, _, _, c => .error (Fault.at .eofValue c.offset path)
    | fuel + 1, enclosing, stack, c => do
      let (opened, c) ← scalarOrOpen c
      let stack := match opened, enclosing with
        | some _, some e => e :: stack
        | _, _ => stack
      let next : Option (Bool × UInt8 × List UInt8) :=
        match opened, enclosing with
        | some f, _ => some (false, f, stack)
        | none, some e => some (true, e, stack)
        | none, none =>
          match stack with
          | [] => none
          | f :: fs => some (true, f, fs)
      match next with
      | none => .ok c
      | some (acceptComma, frame, stack) =>
        let (settled, c) ← settle (c.rest.length + 1) acceptComma frame stack c
        match settled with
        | none => .ok c
        | some (frame, stack) =>
          let c ← if frame == 123 then keyAndColon c else .ok c
          loop fuel (some frame) stack c
  loop (2 * c.rest.length + 2) none [] c

end SchemaTypes.Json
