import OverloadTables.Text.Hex
import OverloadTables.Text.Printable

/-!
# Quoted literals

A text written as a literal between quotes.  Single quotes are taken unless the text holds a single
quote and no double quote.  Backslash and the quote in use are escaped, line feed, carriage return
and tab by a letter, other unprintable characters by their code point, and all else stands for
itself.

* `quoteMark cs`       the quote in use;
* `quotedChar q c`     one character inside the quotes;
* `quote s`            the literal of a text.
-/

namespace OverloadTables.Text

/-- The quote a text is written with. -/
def quoteMark (cs : List Char) : Char :=
  if cs.contains '\'' && !cs.contains '"' then '"' else '\''

/-- A code point in the shortest of the three escape forms: two, four or eight digits. -/
def codePointEscape (n : Nat) : List Char :=
  if n < 0x100 then '\\' :: 'x' :: hexDigits 2 n
  else if n < 0x10000 then '\\' :: 'u' :: hexDigits 4 n
  else '\\' :: 'U' :: hexDigits 8 n

/-- A character inside a literal with the quote `q`. -/
def quotedChar (q c : Char) : List Char :=
  if c = q ∨ c = '\\' then ['\\', c]
  else if c = '\n' then ['\\', 'n']
  else if c = '\r' then ['\\', 'r']
  else if c = '\t' then ['\\', 't']
  else if isPrintable c then [c]
  else codePointEscape c.toNat

def quoteChars (cs : List Char) : List Char :=
  quoteMark cs :: cs.flatMap (quotedChar (quoteMark cs)) ++ [quoteMark cs]

def quote (s : String) : String := String.ofList (quoteChars s.toList)

end OverloadTables.Text
