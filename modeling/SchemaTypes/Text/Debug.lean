import SchemaTypes.Unicode.Printable

/-!
# Quoted debug text

Text is shown between double quotes with the quote, the backslash, the NUL character and the
tab, carriage return and line feed written as backslash escapes. Every character that extends
a grapheme, and every character that is not printable, is written as `\u{hex}` with lowercase
hexadecimal digits and no leading zeros. All other characters stand as they are. A path is
shown the same way, with its apostrophes escaped too.
-/

namespace SchemaTypes.Text

open SchemaTypes.Unicode

/-- Lowercase hexadecimal digits of `n`, without leading zeros. -/
def hexDigits (n : Nat) : List Char := Nat.toDigits 16 n

/-- The escape `\u{hex}` of a character. -/
def unicodeEscape (c : Char) : List Char := ['\\', 'u', '{'] ++ hexDigits c.toNat ++ ['}']

/-- How one character is written inside quoted debug text. -/
def debugChar (c : Char) : List Char :=
  if c = '\x00' then ['\\', '0']
  else if c = '\t' then ['\\', 't']
  else if c = '\r' then ['\\', 'r']
  else if c = '\n' then ['\\', 'n']
  else if c = '\\' then ['\\', '\\']
  else if c = '"' then ['\\', '"']
  else if isGraphemeExtend c then unicodeEscape c
  else if isPrintable c then [c]
  else unicodeEscape c

/-- Text in double quotes, escaped for debug display. -/
def debugQuote (s : String) : String :=
  String.ofList ('"' :: s.toList.flatMap debugChar ++ ['"'])

/-- How one character of a path is written inside quoted debug text: as in other text, and
the apostrophe escaped as well. -/
def pathDebugChar (c : Char) : List Char :=
  if c.toNat = 39 then ['\\', c] else debugChar c

/-- A path in double quotes, escaped for debug display. -/
def debugQuotePath (s : String) : String :=
  String.ofList ('"' :: s.toList.flatMap pathDebugChar ++ ['"'])

end SchemaTypes.Text
