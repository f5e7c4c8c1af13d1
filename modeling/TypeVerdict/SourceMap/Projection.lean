import TypeVerdict.Position.Basic
import TypeVerdict.SourceMap.Basic

/-!
# Projecting positions

A position of the checked text is taken back to the authored text by the nearest mapping at or
before it on its line.  A position that no mapping covers stays as it is, and so does every
position when there is no map.

## Main definitions

* `SourceMap.bisect`: where a column falls among the columns of a line
* `SourceMap.lookup?`: the mapping that covers a place
* `Projection`: how positions are taken back
* `Projection.apply`: the authored position of a checked one

## Design notes

The columns of a line need not ascend.  Bisection is therefore part of the meaning of a map: a
place that is not the start of a mapping goes where halving the line leads.  A line before the
first one finds columns to halve, those of a line counted from the end, but no mapping starts
there.
-/

namespace TypeVerdict

namespace SourceMap

/-- Halving a list of columns between two bounds: the first index behind everything that is not
greater than the given column, if the columns ascend. -/
def bisectBetween (columns : Array Nat) (column : Int) (low high : Nat) : Nat :=
  if low < high then
    let middle := (low + high) / 2
    if column < (columns[middle]?.getD 0 : Nat) then bisectBetween columns column low middle
    else bisectBetween columns column (middle + 1) high
  else low
termination_by high - low

/-- Where a column falls among the columns of a line, by halving. -/
def bisect (columns : Array Nat) (column : Int) : Nat :=
  bisectBetween columns column 0 columns.size

/-- The column before the place where halving leads. -/
def columnBefore? (columns : List Nat) (column : Int) : Option Nat :=
  match bisect columns.toArray column with
  | 0 => none
  | i + 1 => columns[i]?

/-- The last mapping that starts at a place. -/
def startingAt? (lines : List (List Mapping)) (line column : Int) : Option Mapping :=
  lines.flatten.reverse.find? fun m => (m.line : Int) = line && (m.column : Int) = column

/-- The mappings of a line.  A negative number counts the lines from the end. -/
def lineAt? (lines : List (List Mapping)) : Int → Option (List Mapping)
  | .ofNat n => lines[n]?
  | .negSucc n => lines.reverse[n]?

/-- The mapping that covers a place of the generated text, counted from zero: one that starts
there, or else one that starts at the column of its line where halving leads. -/
def lookup? (lines : List (List Mapping)) (line column : Int) : Option Mapping :=
  startingAt? lines line column <|> do
    let mappings ← lineAt? lines line
    let before ← columnBefore? (mappings.map (·.column)) column
    startingAt? lines line before

end SourceMap

open SourceMap

/-- How positions are taken back to the authored text: by the lines of a source map, or not at
all. -/
structure Projection where
  lines? : Option (List (List Mapping))
deriving Repr

namespace Projection

/-- The projection of a collected source map: a malformed map counts as none. -/
def ofSource : Option Source → Except DecodeError Projection
  | none => .ok ⟨none⟩
  | some source => match decode source with
    | .ok lines => .ok ⟨some lines⟩
    | .error .malformed => .ok ⟨none⟩
    | .error e => .error e

/-- Whether there is a map. -/
def hasMap (t : Projection) : Bool := t.lines?.isSome

/-- The authored position of a checked one. -/
def apply (t : Projection) (p : Position) : Position :=
  match t.lines?.bind (lookup? · (p.line - 1) (p.column - 1)) with
  | some m =>
    if (m.line : Int) = p.line - 1 ∧ (m.column : Int) ≤ p.column - 1 then
      ⟨m.sourceLine + 1, m.sourceColumn + 1⟩
    else p
  | none => p

end Projection

end TypeVerdict
