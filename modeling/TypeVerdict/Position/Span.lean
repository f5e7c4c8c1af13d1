import TypeVerdict.Position.IndexMap

/-!
# Definition spans

The stretch of a text that a definition occupies, from the offset of its first character to that of
its last.  A position belongs to the innermost definition around it: of the spans that contain
its offset the one that starts last, and among those the first in document order.

## Main definitions

* `Span`: an interval of offsets that carries what is defined there
* `Span.innermost?`: the innermost of several spans around an offset
* `Locator`: spans together with the index map of their text
* `Locator.locate?`: the innermost span around a position
-/

namespace TypeVerdict

/-- An interval of offsets, both ends included, with what is defined there. -/
structure Span (α : Type) where
  start : Nat
  stop : Nat
  target : α
  start_le_stop : start ≤ stop := by omega
deriving Repr

namespace Span

variable {α : Type}

/-- Bounds that are no interval of offsets. -/
structure InvalidBounds where
  start : Int
  stop : Int
deriving DecidableEq, Repr

/-- How bounds that are no interval are reported. -/
def InvalidBounds.message (e : InvalidBounds) : String :=
  s!"invalid definition span [{e.start}, {e.stop}]"

/-- The span with given bounds, which have to be an interval of offsets. -/
def ofBounds (start stop : Int) (target : α) : Except InvalidBounds (Span α) :=
  if h : 0 ≤ start ∧ start ≤ stop then .ok ⟨start.toNat, stop.toNat, target, by omega⟩
  else .error ⟨start, stop⟩

/-- Whether an offset lies in a span. -/
def contains (s : Span α) (offset : Int) : Bool := s.start ≤ offset && offset ≤ s.stop

/-- Spans by descending start; those with equal starts stay in document order. -/
def byStart (spans : List (Span α)) : List (Span α) :=
  spans.mergeSort fun a b => decide (b.start ≤ a.start)

/-- The innermost of several spans around an offset. -/
def innermost? (spans : List (Span α)) (offset : Int) : Option (Span α) :=
  (byStart spans).find? (·.contains offset)

end Span

/-- Spans together with the index map of their text. -/
structure Locator (α : Type) where
  spans : List (Span α)
  index : IndexMap

namespace Locator

variable {α : Type}

/-- The offset of a position, if it has one. -/
def offset? (l : Locator α) (p? : Option Position) : Option Int := p?.bind l.index.offset?

/-- The innermost span around a position, if the position has an offset and a span contains it. -/
def locate? (l : Locator α) (p? : Option Position) : Option (Span α) :=
  (l.offset? p?).bind (Span.innermost? l.spans)

end Locator

end TypeVerdict
