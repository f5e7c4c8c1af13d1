import TypeVerdict.Pattern.Escape

/-!
# Bracketed sets in patterns

A set lists characters, ranges and named classes between brackets.  A closing bracket that comes
first stands for itself, and so does a hyphen that comes last.

## Main definitions

* `Pattern.readSet`: the items of a set
-/

namespace TypeVerdict.Pattern

/-- The member of a set that a token, once it is taken, stands for. -/
def readMember (token : List Char) (s : Scan) : Except Error (Escaped × Scan) :=
  match token with
  | ['\\', c] => readSetEscape c s
  | [c] => .ok (.code c.toNat, s)
  | _ => .ok (.code 0, s)

/-- A member of a set as an item. -/
def Escaped.item : Escaped → SetItem
  | .code n => .range n n
  | .named name negated => .named name negated
  | .anchor _ => .range 1 0

/-- The items of a set up to its closing bracket, which as the first member stands for itself.
The set began at the given offset. -/
def readSet (start : Nat) (first : Bool) :
    Nat → Scan → Except Error (List SetItem × Scan)
  | 0, s => s.fault .unterminatedSet (s.offset - start)
  | n + 1, s => do
    let token := s.peek
    if token.isEmpty then s.fault .unterminatedSet (s.offset - start)
    let s ← s.take
    if token = [']'] && !first then return ([], s)
    let (low, s) ← readMember token s
    match ← s.accept? '-' with
    | none =>
      let (items, s) ← readSet start false n s
      return (low.item :: items, s)
    | some s =>
      let that := s.peek
      if that.isEmpty then s.fault .unterminatedSet (s.offset - start)
      let s ← s.take
      if that = [']'] then return ([low.item, .range 45 45], s)
      let (high, s) ← readMember that s
      match low, high with
      | .code a, .code b =>
        if b < a then s.fault (.badRange token that) (token.length + 1 + that.length)
        let (items, s) ← readSet start false n s
        return (.range a b :: items, s)
      | _, _ => s.fault (.badRange token that) (token.length + 1 + that.length)

end TypeVerdict.Pattern
