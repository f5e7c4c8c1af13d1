import TypeVerdict.Position.Basic

/-!
# Index maps

The correspondence between the positions of a text and its offsets.  A line ends with `\n`, `\r\n`
or a lone `\r`; the characters of its break belong to it.  The position behind the last character
is included, so that a report at the end of a file has an offset too.

## Main definitions

* `IndexMap`: positions with their offsets
* `IndexMap.ofText`: the index map of a text
* `IndexMap.offset?`: the offset of a position
-/

namespace TypeVerdict

/-- Positions with their offsets.  A map that comes from elsewhere may hold any integers. -/
structure IndexMap where
  entries : List (Position × Int)
deriving Repr

namespace IndexMap

/-- The map of no text at all, not even an empty one. -/
def empty : IndexMap := ⟨[]⟩

/-- The positions of a text, given the line, column and offset at which it begins. -/
def entriesFrom (line column offset : Nat) : List Char → List (Position × Int)
  | [] => [(⟨line, column⟩, offset)]
  | '\r' :: '\n' :: r =>
    (⟨line, column⟩, offset) :: (⟨line, column + 1⟩, offset + 1) ::
      entriesFrom (line + 1) 1 (offset + 2) r
  | c :: r =>
    (⟨line, column⟩, offset) ::
      if c = '\r' ∨ c = '\n' then entriesFrom (line + 1) 1 (offset + 1) r
      else entriesFrom line (column + 1) (offset + 1) r

/-- The index map of a text. -/
def ofText (s : List Char) : IndexMap := ⟨entriesFrom 1 1 0 s⟩

/-- The offset of a position, if the text has it. -/
def offset? (m : IndexMap) (p : Position) : Option Int := m.entries.lookup p

end IndexMap

end TypeVerdict
