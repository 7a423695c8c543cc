/-!
# White space

The characters with the Unicode property White_Space, and trimming them from both ends of a
text.
-/

namespace SchemaTypes.Unicode

/-- Characters with the property White_Space. -/
def isWhiteSpace (c : Char) : Bool :=
  let n := c.toNat
  (0x09 ≤ n ∧ n ≤ 0x0D) ∨ n = 0x20 ∨ n = 0x85 ∨ n = 0xA0 ∨ n = 0x1680 ∨
    (0x2000 ≤ n ∧ n ≤ 0x200A) ∨ n = 0x2028 ∨ n = 0x2029 ∨ n = 0x202F ∨ n = 0x205F ∨
    n = 0x3000

/-- Drops white space from the front. -/
def trimStart (cs : List Char) : List Char := cs.dropWhile isWhiteSpace

/-- Drops white space from both ends of a text. -/
def trimWhiteSpace (s : String) : String :=
  String.ofList (trimStart (trimStart s.toList).reverse).reverse

end SchemaTypes.Unicode
