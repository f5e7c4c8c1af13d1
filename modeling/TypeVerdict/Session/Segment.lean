import TypeVerdict.Markers

/-!
# Cutting a watching checker's output

The output of a watching checker goes on without end.  Its markers cut it into passes: the text of a
pass reaches from the end of the pass before to the announcement of the next one, or as far as the
output has come.

## Main definitions

* `Segment`: what the beginning of an output calls for
* `Segment.next`: the decision for a buffered output
-/

namespace TypeVerdict

/-- What a buffered output calls for next. -/
inductive Segment where
  /-- A new pass was announced. -/
  | rerun
  /-- A pass is complete: its text, and what stays in the buffer. -/
  | pass (output rest : List Char)
  /-- No marker is left to act on. -/
  | wait
deriving DecidableEq, Repr

namespace Segment

/-- The text of a pass that a marker completes, and the rest: the cut is where the next
announcement behind the marker begins. -/
def cutBehind (markers : Markers) (buffer : List Char) (stop : Nat) : Segment :=
  match markers.nextRerun? buffer stop with
  | some (start, _) => pass (buffer.take start) (buffer.drop start)
  | none => pass buffer []

/-- The decision for a buffered output.  The announcement of a pass counts only if none has been
acted on since the last complete pass, and only before the next completion. -/
def next (markers : Markers) (rerunSeen : Bool) (buffer : List Char) : Segment :=
  let rerun? := if rerunSeen then none else markers.nextRerun? buffer
  match rerun?, markers.nextPassEnd? buffer with
  | none, none => wait
  | some _, none => rerun
  | none, some (_, stop) => cutBehind markers buffer stop
  | some (announced, _), some (completed, stop) =>
    if announced < completed then rerun else cutBehind markers buffer stop

end Segment

end TypeVerdict
