/-!
# Ranges of code points

A character property of the Unicode standard is given as a table of inclusive ranges of code
points, in ascending order.  `Ranges.contains` asks whether one of the ranges holds a code point.

## Main definitions

* `Ranges`: a table of inclusive ranges
* `Ranges.contains`: membership of a code point
-/

namespace TypeVerdict.Text

/-- A table of inclusive ranges of code points, in ascending order. -/
structure Ranges where
  bounds : List (Nat × Nat)

namespace Ranges

/-- A code point belongs to a table when one of its ranges holds it. -/
def contains (r : Ranges) (n : Nat) : Bool :=
  r.bounds.any fun b => b.1 ≤ n && n ≤ b.2

end Ranges

end TypeVerdict.Text
