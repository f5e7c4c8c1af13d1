/-!
# Positions

A position is a line and a column, both counted from one.  Positions come from tools and source
maps, so nothing bounds them: a column may be zero and a computed line may be negative.

## Main definitions

* `Position`: a line and a column
* `Position.key`: how a position is written
-/

namespace TypeVerdict

/-- A line and a column, both counted from one. -/
structure Position where
  line : Int
  column : Int
deriving DecidableEq, Repr, Hashable

/-- How a position is written: its line and its column with a colon between them. -/
def Position.key (p : Position) : String := s!"{p.line}:{p.column}"

end TypeVerdict
