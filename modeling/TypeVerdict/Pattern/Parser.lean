import TypeVerdict.Pattern.Set

/-!
# Reading patterns

The usual notation for regular expressions: alternatives separated by `|`, groups in parentheses,
sets in brackets, repetitions by `*`, `+`, `?` and counts in braces, escapes by a backslash, and
the anchors `^` and `$`.

## Main definitions

* `Pattern.parse`: the pattern that a text writes, or its first fault

## Design notes

The readers count down a budget that `Pattern.parse` sets to more than the tokens can use, since a
reader that calls another has taken a token before every second call.
-/

namespace TypeVerdict.Pattern

/-- A bound of a repetition, if there are digits that write one. -/
def readBound? (digits : List Char) : Except Error (Option Nat) :=
  if digits.isEmpty then .ok none
  else match Text.readNumeral digits with
    | .error cause => .error (.limit (.digits cause))
    | .ok n => if roundLimit ≤ n then .error (.limit .rounds) else .ok (some n)

/-- The bounds of a repetition given in braces, behind the opening one; `none` if the braces hold no
bounds. -/
def readBounds (s : Scan) : Except Error (Option ((Nat × Option Nat) × Scan)) := do
  let start := s.offset
  if s.peek = ['\x7d'] then return none
  let (low, s) ← s.takeWhile Text.isAsciiDigit s.tokens.length
  let (high, s) ← match ← s.accept? ',' with
    | none => pure (low, s)
    | some s => s.takeWhile Text.isAsciiDigit s.tokens.length
  match ← s.accept? '\x7d' with
  | none => return none
  | some s =>
    let min? ← readBound? low
    let max? ← readBound? high
    let min := min?.getD 0
    if max?.any (· < min) then s.fault .minAboveMax (s.offset - start)
    return some ((min, max?), s)

/-- The bounds that a repetition's mark stands for, once it is taken. -/
def readRepeat (mark : Char) (s : Scan) : Except Error (Option ((Nat × Option Nat) × Scan)) :=
  match mark with
  | '?' => .ok (some ((0, some 1), s))
  | '*' => .ok (some ((0, none), s))
  | '+' => .ok (some ((1, none), s))
  | _ => readBounds s

/-- A repetition of the last item, in a chain given in reverse, by a mark that was at an offset. -/
def repeatLast (place : Nat) (bounds : Nat × Option Nat) (items : List Pattern) (s : Scan) :
    Except Error (List Pattern × Scan) := do
  match items with
  | [] => .error (.fault .nothingToRepeat place)
  | p :: more =>
    if p.isAnchor then .error (.fault .nothingToRepeat place)
    if p.isRepeated then .error (.fault .multipleRepeat place)
    let (greed, s) ← match ← s.accept? '?' with
      | some s => pure (Greed.lazy, s)
      | none => match ← s.accept? '+' with
        | some s => pure (Greed.possessive, s)
        | none => pure (Greed.greedy, s)
    return (repeated greed bounds.1 bounds.2 p :: more, s)

/-- A name up to the mark that closes it. -/
def readName : Nat → Scan → Except Error (List Char × Scan)
  | 0, s => s.fault .unterminatedName
  | n + 1, s => do
    let token := s.peek
    if token.isEmpty then s.fault .unterminatedName
    let s ← s.take
    if token = ['>'] then return ([], s)
    let (cs, s) ← readName n s
    return (token ++ cs, s)

/-- The name of a group. -/
def readGroupName (s : Scan) : Except Error (List Char × Scan) := do
  let start := s.offset
  if s.peek.isEmpty then s.fault .missingName
  match readName (s.tokens.length + 1) s with
  | .error (.fault .unterminatedName _) => .error (.fault .unterminatedName start)
  | .error e => .error e
  | .ok (name, after) =>
    if name.isEmpty then .error (.fault .missingName start)
    let wellFormed := name.all Text.isWord && !(name.head?.any Text.isDigit)
    if wellFormed then return (name, after)
    else after.fault (.badName name) (name.length + 1)

/-- A comment up to its closing parenthesis. -/
def skipComment (start : Nat) : Nat → Scan → Except Error Scan
  | 0, s => s.fault .unterminatedComment (s.offset - start)
  | n + 1, s => do
    if s.peek.isEmpty then s.fault .unterminatedComment (s.offset - start)
    let token := s.peek
    let s ← s.take
    if token = [')'] then return s else skipComment start n s

/-- What a group is for. -/
inductive GroupKind where
  | plain
  | atomic
  | look (negated : Bool)
  | comment
deriving DecidableEq, Repr

/-- The mark behind a group's opening parenthesis, if there is one. -/
def readGroupKind (s : Scan) : Except Error (GroupKind × Scan) := do
  match ← s.accept? '?' with
  | none => return (.plain, { s with groups := s.groups + 1 })
  | some s =>
    let mark := s.peek
    if mark.isEmpty then s.fault .unexpectedEnd
    let s ← s.take
    match mark with
    | [':'] => return (.plain, s)
    | ['>'] => return (.atomic, s)
    | ['='] => return (.look false, s)
    | ['!'] => return (.look true, s)
    | ['#'] => return (.comment, s)
    | ['P'] => match ← s.accept? '<' with
      | some s =>
        let (_, s) ← readGroupName s
        return (.plain, { s with groups := s.groups + 1 })
      | none =>
        let next := s.peek
        if next.isEmpty then s.fault .unexpectedEnd
        let s ← s.take
        s.fault (.unknownExtension ('P' :: next)) (next.length + 2)
    | ['<'] =>
      let next := s.peek
      if next.isEmpty then s.fault .unexpectedEnd
      let s ← s.take
      if next = ['='] || next = ['!'] then s.fault (.unsupported ('<' :: next)) (next.length + 2)
      else s.fault (.unknownExtension ('<' :: next)) (next.length + 2)
    | mark => s.fault (.unknownExtension mark) (mark.length + 1)

/-- The pattern of a group by what it is for. -/
def GroupKind.wrap (p : Pattern) : GroupKind → Pattern
  | plain | comment => group p
  | atomic => Pattern.atomic p
  | look negated => Pattern.look negated p

mutual

/-- Alternatives up to a closing parenthesis or the end, with room for some levels of groups. -/
def readAlternatives (budget levels : Nat) (s : Scan) : Except Error (Pattern × Scan) :=
  match budget with
  | 0 => s.fault .unexpectedEnd
  | n + 1 => do
    let (items, s) ← readItems n levels [] s
    let p := chain items.reverse
    match ← s.accept? '|' with
    | none => return (p, s)
    | some s =>
      let (q, s) ← readAlternatives n levels s
      return (alt p q, s)

/-- The items of one alternative in reverse, behind those read before. -/
def readItems (budget levels : Nat) (items : List Pattern) (s : Scan) :
    Except Error (List Pattern × Scan) :=
  match budget with
  | 0 => s.fault .unexpectedEnd
  | n + 1 => do
    let here := s.offset
    match s.peek with
    | [] | ['|'] | [')'] => return (items, s)
    | '\\' :: c :: _ =>
      let (e, s) ← readEscape c (← s.take)
      let p := match e with
        | .code n => one (.set false [.range n n])
        | .named name negated => one (.set false [.named name negated])
        | .anchor a => anchor a
      readItems n levels (p :: items) s
    | ['['] =>
      let s ← s.take
      let (negated, s) ← match ← s.accept? '^' with
        | some s => pure (true, s)
        | none => pure (false, s)
      let (set, s) ← readSet here true (s.tokens.length + 1) s
      readItems n levels (one (.set negated set) :: items) s
    | ['.'] => readItems n levels (one .any :: items) (← s.take)
    | ['^'] => readItems n levels (anchor .start :: items) (← s.take)
    | ['$'] => readItems n levels (anchor .lineEnd :: items) (← s.take)
    | ['('] =>
      let (kind, s) ← readGroupKind (← s.take)
      if kind = .comment then readItems n levels items (← skipComment here (s.tokens.length + 1) s)
      else
        if levels = 0 then .error (.limit .depth)
        let (p, s) ← readAlternatives n (levels - 1) s
        match ← s.accept? ')' with
        | none => s.fault .unterminatedGroup (s.offset - here)
        | some s => readItems n levels (kind.wrap p :: items) s
    | c :: _ =>
      let after ← s.take
      if c = '*' || c = '+' || c = '?' || c = '\x7b' then
        match ← readRepeat c after with
        | none => readItems n levels (char c :: items) after
        | some (bounds, s) =>
          let (items, s) ← repeatLast here bounds items s
          readItems n levels items s
      else readItems n levels (char c :: items) after

end

/-- The pattern that a text writes, or its first fault. -/
def parse (text : List Char) : Except Error Pattern := do
  let s ← Scan.check ⟨tokensFrom 0 text, text.length, 1⟩
  let (p, s) ← readAlternatives (2 * text.length + 2) depthLimit s
  if s.peek.isEmpty then return p else s.fault .unbalancedParenthesis

end TypeVerdict.Pattern
