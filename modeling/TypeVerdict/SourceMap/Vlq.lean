/-!
# Variable-length quantities

A segment of a source map writes integers as groups of five bits, least significant first, one
base64 character a group; a sixth bit says that the quantity goes on, and the lowest bit of the
whole is its sign.

A character outside the alphabet but not above `z` reads as a group of all ones that goes on, so
the segment it stands in cannot end well unless more groups follow.

## Main definitions

* `SourceMap.group?`: the group that a character writes
* `SourceMap.quantities`: the integers of a segment
-/

namespace TypeVerdict.SourceMap

/-- Why a segment has no quantities. -/
inductive SegmentError where
  /-- A character above `z` writes no group at all. -/
  | foreignCharacter (c : Char)
  /-- The segment ends inside a quantity. -/
  | unfinished
deriving DecidableEq, Repr

/-- The index of a character in the base64 alphabet. -/
def base64Index? (c : Char) : Option Nat :=
  let n := c.toNat
  if 65 ≤ n && n ≤ 90 then some (n - 65)
  else if 97 ≤ n && n ≤ 122 then some (n - 71)
  else if 48 ≤ n && n ≤ 57 then some (n + 4)
  else if c = '+' then some 62
  else if c = '/' then some 63
  else none

/-- The five bits that a character writes and whether the quantity goes on. -/
def group? (c : Char) : Option (Nat × Bool) :=
  if 122 < c.toNat then none
  else match base64Index? c with
    | some i => some (i % 32, 32 ≤ i)
    | none => some (31, true)

/-- A quantity from its bits: the lowest one is the sign. -/
def signed (bits : Nat) : Int :=
  if bits % 2 = 1 then -((bits / 2 : Nat) : Int) else ((bits / 2 : Nat) : Int)

/-- The quantities of a segment, where the one under way has the given bits and width. -/
def quantitiesFrom (bits width : Nat) : List Char → Except SegmentError (List Int)
  | [] => if width = 0 then .ok [] else .error .unfinished
  | c :: r => match group? c with
    | none => .error (.foreignCharacter c)
    | some (v, true) => quantitiesFrom (bits + v <<< width) (width + 5) r
    | some (v, false) => do
      let rest ← quantitiesFrom 0 0 r
      return signed (bits + v <<< width) :: rest

/-- The quantities of a segment. -/
def quantities (segment : List Char) : Except SegmentError (List Int) := quantitiesFrom 0 0 segment

end TypeVerdict.SourceMap
