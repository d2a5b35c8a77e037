import Asm65816.Radix
import Asm65816.Text.Printable

/-!
# Quoted text

A text is quoted so that every character of it can be read off a single line: a control or another
character that does not show is written as an escape of two, four or eight hexadecimal digits, a
line break and a tab by a letter. The quote is a single one, unless the text holds a single quote
and no double quote. The quote in use and the backslash are escaped, so the closing quote is the
only one that stands alone.
-/

namespace Asm65816.Text

/-- The code point of a character as lower-case hexadecimal digits, filled up with zeros. -/
def hexEscape (width : Nat) (c : Char) : List Char :=
  (padDigits width (digits 16 c.toNat)).map Nat.digitChar

/-- A character as it stands between the given quotes. -/
def escapeChar (quote c : Char) : List Char :=
  if c == quote || c == '\\' then ['\\', c]
  else if c == '\n' then ['\\', 'n']
  else if c == '\r' then ['\\', 'r']
  else if c == '\t' then ['\\', 't']
  else if isPrintable c then [c]
  else if c.toNat < 0x100 then '\\' :: 'x' :: hexEscape 2 c
  else if c.toNat < 0x10000 then '\\' :: 'u' :: hexEscape 4 c
  else '\\' :: 'U' :: hexEscape 8 c

/-- The quote for a text: a double one only where that saves escaping a single one. -/
def quoteFor (s : List Char) : Char :=
  if s.contains '\'' && !s.contains '"' then '"' else '\''

/-- A text in quotes, with escapes for all that does not show as itself. -/
def quoted (text : String) : String :=
  let quote := quoteFor text.toList
  String.ofList (quote :: text.toList.flatMap (escapeChar quote) ++ [quote])

end Asm65816.Text
