import TypeVerdict.Pattern.Basic

/-!
# Matching

A pattern is matched from a place in a text by trying its alternatives in order and going back when
what follows does not match.  The first way to match from the leftmost place is the match found.

## Main definitions

* `Pattern.Cursor`: a place in a text
* `Pattern.run`: the first way to match from a place
* `Pattern.find`: the leftmost match from an offset on

## Design notes

`run` is structural in the pattern: what follows is a function of the place reached.  A repetition
that has enough rounds makes another only if the place moved since the round before began, so the
number of rounds is bounded by the rest of the text.
-/

namespace TypeVerdict.Pattern

/-- A place in a text: its offset, the character before it, and the text behind it. -/
structure Cursor where
  offset : Nat
  before? : Option Char
  rest : List Char
deriving DecidableEq, Repr

namespace Cursor

/-- The start of a text. -/
def ofText (s : List Char) : Cursor := ⟨0, none, s⟩

/-- Whether a place lies on a border of words. -/
def isBoundary (c : Cursor) : Bool :=
  c.before?.any Text.isWord != c.rest.head?.any Text.isWord

/-- Whether the text is empty. -/
def isEmptyText (c : Cursor) : Bool := c.before?.isNone && c.rest.isEmpty

/-- Whether a place is of the kind that an anchor asks for. -/
def meets (c : Cursor) : Anchor → Bool
  | .start => c.before?.isNone
  | .lineEnd => c.rest = [] || c.rest = ['\n']
  | .stop => c.rest = []
  | .boundary => !c.isEmptyText && c.isBoundary
  | .inside => !c.isEmptyText && !c.isBoundary

end Cursor

/-- What is left to match, as a function of the place reached. -/
abbrev Next := Cursor → Option Cursor

/-- A fixed number of rounds. -/
def rounds (body : Next → Next) : Nat → Next → Next
  | 0, k => k
  | n + 1, k => body (rounds body n k)

/-- Whether another round is allowed: the count admits it and the place moved since the round
before began. -/
def mayRepeat (left? : Option Nat) (last? : Option Nat) (c : Cursor) : Bool :=
  left? != some 0 && last? != some c.offset

/-- As many further rounds as can be, then what follows. -/
def mostRounds (body : Next → Next) (k : Next) : Nat → Option Nat → Option Nat → Next
  | 0, _, _, c => k c
  | n + 1, left?, last?, c =>
    (if mayRepeat left? last? c then
      body (mostRounds body k n (left?.map (· - 1)) (some c.offset)) c
    else none) <|> k c

/-- As few further rounds as can be, then what follows. -/
def leastRounds (body : Next → Next) (k : Next) : Nat → Option Nat → Option Nat → Next
  | 0, _, _, c => k c
  | n + 1, left?, last?, c =>
    k c <|> if mayRepeat left? last? c then
      body (leastRounds body k n (left?.map (· - 1)) (some c.offset)) c
    else none

/-- The place behind a fixed number of rounds, none of which is gone back into. -/
def fixedRounds (round : Next) : Nat → Next
  | 0, c => some c
  | n + 1, c => (round c).bind (fixedRounds round n)

/-- The place behind as many further rounds as can be, none of which is gone back into. -/
def furthest (round : Next) : Nat → Option Nat → Option Nat → Cursor → Cursor
  | 0, _, _, c => c
  | n + 1, left?, last?, c =>
    if mayRepeat left? last? c then
      match round c with
      | some d => furthest round n (left?.map (· - 1)) (some c.offset) d
      | none => c
    else c

/-- The first way to match a pattern and what follows it from a place. -/
def run : Pattern → Next → Next
  | empty, k, c => k c
  | one cls, k, c => match c.rest with
    | [] => none
    | x :: r => if cls.holds x then k ⟨c.offset + 1, some x, r⟩ else none
  | anchor a, k, c => if c.meets a then k c else none
  | seq p q, k, c => run p (run q k) c
  | alt p q, k, c => run p k c <|> run q k c
  | group p, k, c => run p k c
  | atomic p, k, c => (run p some c).bind k
  | look negated p, k, c => if (run p some c).isSome != negated then k c else none
  | repeated greed min max? p, k, c =>
    let left? := max?.map (· - min)
    let budget (c : Cursor) : Nat := c.rest.length + 2
    match greed with
    | .greedy => rounds (run p) min (fun c => mostRounds (run p) k (budget c) left? none c) c
    | .lazy => rounds (run p) min (fun c => leastRounds (run p) k (budget c) left? none c) c
    | .possessive => (fixedRounds (run p some) min c).bind fun c =>
      k (furthest (run p some) (budget c) left? none c)

/-- The first match from a place or one behind it: its start and end. -/
def search (p : Pattern) (offset : Nat) (before? : Option Char) :
    List Char → Option (Nat × Nat)
  | [] => (run p some ⟨offset, before?, []⟩).map fun c => (offset, c.offset)
  | x :: r => match run p some ⟨offset, before?, x :: r⟩ with
    | some c => some (offset, c.offset)
    | none => search p (offset + 1) (some x) r

/-- The leftmost match at or behind an offset: its start and end.  An offset behind the text
counts as its end. -/
def find (p : Pattern) (s : List Char) (offset : Nat := 0) : Option (Nat × Nat) :=
  let n := min offset s.length
  search p n (if n = 0 then none else s[n - 1]?) (s.drop n)

end TypeVerdict.Pattern
