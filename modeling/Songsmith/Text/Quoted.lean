import Songsmith.Text.Printable

/-!
# Quoted texts

How a text stands in a message: between single quotes, or between double quotes when it holds a
single one and no double one. The quote in use and the backslash are escaped, tab and the two line
breaks have an escape of their own, and every other character that is not printable is written by
its code point, in two, four or eight hexadecimal digits.
-/

namespace Songsmith.Text

/-- The lowest `width` hexadecimal digits of a number. -/
def hexDigits : Nat → Nat → Text
  | 0, _ => []
  | width + 1, n => hexDigits width (n / 16) ++ [Nat.digitChar (n % 16)]

/-- The escape of a character that is not printable. -/
def escapeCodePoint (c : Char) : Text :=
  let n := c.toNat
  if n < 0x100 then '\\' :: 'x' :: hexDigits 2 n
  else if n < 0x10000 then '\\' :: 'u' :: hexDigits 4 n
  else '\\' :: 'U' :: hexDigits 8 n

/-- How one character is written between two `quote` characters. -/
def quoteChar (quote c : Char) : Text :=
  if c = quote ∨ c = '\\' then ['\\', c]
  else if c = '\n' then ['\\', 'n']
  else if c = '\r' then ['\\', 'r']
  else if c = '\t' then ['\\', 't']
  else if isPrintable c then [c]
  else escapeCodePoint c

/-- The quote that a text is written between. -/
def quoteFor (text : Text) : Char :=
  if text.contains '\'' && !text.contains '"' then '"' else '\''

/-- A text as it stands in a message. -/
def quoted (text : Text) : String :=
  let quote := quoteFor text
  String.ofList (quote :: text.flatMap (quoteChar quote) ++ [quote])

/-- The first `n` characters of a text as it stands in a message. -/
def quotedUpTo (n : Nat) (text : Text) : String := String.ofList (text.quoted.toList.take n)

end Songsmith.Text
