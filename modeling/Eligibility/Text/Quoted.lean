import Eligibility.Text.Glyph

/-!
# Quoted texts

Shows a text between double quotes so that every character can be made out: the
quote, the backslash and the line controls by short escapes, and every other
character without a glyph of its own by its code point.
-/

namespace Eligibility

/-- A code point as an escape: hexadecimal digits in braces. -/
def codePointEscape (c : Char) : List Char :=
  '\\' :: 'u' :: '{' :: (Nat.toDigits 16 c.toNat ++ ['}'])

/-- A character as it is shown between the quotes. -/
def quoteChar (c : Char) : List Char :=
  if c = '\x00' then ['\\', '0']
  else if c = '\t' then ['\\', 't']
  else if c = '\r' then ['\\', 'r']
  else if c = '\n' then ['\\', 'n']
  else if c = '\\' then ['\\', '\\']
  else if c = '"' then ['\\', '"']
  else if hasGlyph c then [c]
  else codePointEscape c

/-- A text as it is shown. -/
def quoted (text : String) : String :=
  String.ofList ('"' :: (text.toList.flatMap quoteChar ++ ['"']))

end Eligibility
