import TypeVerdict.Json.Basic
import TypeVerdict.Text.Hex

/-!
# Writing JSON

The written form of a value in ASCII alone, one field or item a line, indented by two spaces a
level.

## Main definitions

* `Json.escape`: a character inside a string
* `Json.pretty`: the written form of a value
-/

namespace TypeVerdict.Json

open Text

/-- The escape of one unit of 16 bits. -/
def escapeUnit (n : Nat) : List Char := '\\' :: 'u' :: hex 4 n

/-- A character inside a string: those above U+FFFF are written as a surrogate pair. -/
def escape (c : Char) : List Char :=
  let n := c.toNat
  if c = '"' || c = '\\' then ['\\', c]
  else if c = '\n' then ['\\', 'n']
  else if c = '\r' then ['\\', 'r']
  else if c = '\t' then ['\\', 't']
  else if n = 8 then ['\\', 'b']
  else if n = 12 then ['\\', 'f']
  else if 32 ≤ n ∧ n ≤ 126 then [c]
  else if n < 0x10000 then escapeUnit n
  else escapeUnit (0xD800 + (n - 0x10000) / 0x400) ++ escapeUnit (0xDC00 + (n - 0x10000) % 0x400)

/-- A string with its quotes. -/
def quote (s : String) : List Char := '"' :: s.toList.flatMap escape ++ ['"']

/-- A new line at a level of nesting. -/
def newLine (level : Nat) : List Char := '\n' :: List.replicate (2 * level) ' '

mutual

/-- The written form of a value that stands at a level of nesting. -/
def prettyAt (level : Nat) : Json → List Char
  | null => "null".toList
  | bool true => "true".toList
  | bool false => "false".toList
  | int n => (toString n).toList
  | real m e => s!"{m}e{e}".toList
  | nan => "NaN".toList
  | infinity false => "Infinity".toList
  | infinity true => "-Infinity".toList
  | text s => quote s
  | array [] => ['[', ']']
  | array (item :: items) =>
    '[' :: newLine (level + 1) ++ prettyAt (level + 1) item ++ prettyItems (level + 1) items ++
      newLine level ++ [']']
  | object [] => ['{', '}']
  | object ((key, value) :: fields) =>
    '{' :: newLine (level + 1) ++ quote key ++ [':', ' '] ++ prettyAt (level + 1) value ++
      prettyFields (level + 1) fields ++ newLine level ++ ['}']

/-- The items behind the first, each with the comma before it. -/
def prettyItems (level : Nat) : List Json → List Char
  | [] => []
  | item :: items => ',' :: newLine level ++ prettyAt level item ++ prettyItems level items

/-- The fields behind the first, each with the comma before it. -/
def prettyFields (level : Nat) : List (String × Json) → List Char
  | [] => []
  | (key, value) :: fields =>
    ',' :: newLine level ++ quote key ++ [':', ' '] ++ prettyAt level value ++
      prettyFields level fields

end

/-- The written form of a value. -/
def pretty (j : Json) : List Char := prettyAt 0 j

end TypeVerdict.Json
