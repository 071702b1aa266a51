import TemplateScopes.Text.Basic
import TemplateScopes.Text.PrintableTable

/-!
# Quoted text

A text between quotes on one line.  Single quotes are used unless the
text holds a single quote and no double quote.  The quote itself and the
backslash get a backslash, tab, line feed and carriage return have
letters, and what cannot be printed is written by its code point with
two, four or eight hexadecimal digits.
-/

namespace TemplateScopes.Text

/-- The quote to put around a text. -/
def quoteFor (t : Text) : CodePoint :=
  if t.contains '\'' && !t.contains '"' then '"' else '\''

/-- A code point that cannot be printed, by its number. -/
def escapeByCode (c : CodePoint) : Text :=
  let n := c.toNat
  if n < 0x100 then '\\' :: 'x' :: hex 2 n
  else if n < 0x10000 then '\\' :: 'u' :: hex 4 n
  else '\\' :: 'U' :: hex 8 n

/-- One code point of a text between the given quotes. -/
def quotedChar (quote c : CodePoint) : Text :=
  if c = quote || c = '\\' then ['\\', c]
  else if c = '\t' then ['\\', 't']
  else if c = '\n' then ['\\', 'n']
  else if c = '\r' then ['\\', 'r']
  else if unprintableRanges.has c then escapeByCode c
  else [c]

/-- The text between quotes. -/
def quoted (t : Text) : Text :=
  let quote := quoteFor t
  quote :: t.flatMap (quotedChar quote) ++ [quote]

end TemplateScopes.Text
