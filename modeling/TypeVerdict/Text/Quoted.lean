import TypeVerdict.Text.Hex
import TypeVerdict.Text.Printable

/-!
# Quoted text

How a message shows a text that a user gave: between quotes, with everything that cannot be
shown as itself written as an escape.  Single quotes are used unless the text holds a single quote
and no double quote.

## Main definitions

* `quoteOf`: the quote that a text is put between
* `escape`: one character inside quotes
* `quoted`: a text between quotes
-/

namespace TypeVerdict.Text

/-- The quote that a text is put between. -/
def quoteOf (s : List Char) : Char :=
  if s.contains '\'' && !s.contains '"' then '"' else '\''

/-- One character inside quotes. -/
def escape (quote c : Char) : List Char :=
  let n := c.toNat
  if c = quote || c = '\\' then ['\\', c]
  else if c = '\t' then ['\\', 't']
  else if c = '\n' then ['\\', 'n']
  else if c = '\r' then ['\\', 'r']
  else if isPrintable c then [c]
  else if n < 0x100 then '\\' :: 'x' :: hex 2 n
  else if n < 0x10000 then '\\' :: 'u' :: hex 4 n
  else '\\' :: 'U' :: hex 8 n

/-- A text between quotes. -/
def quoted (s : List Char) : List Char :=
  let quote := quoteOf s
  quote :: s.flatMap (escape quote) ++ [quote]

end TypeVerdict.Text
