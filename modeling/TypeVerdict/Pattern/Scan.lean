import TypeVerdict.Pattern.Error

/-!
# Tokens of a pattern's text

A text is cut into single characters and escapes before it is read.

## Main definitions

* `Pattern.Token`: a character or an escape with its offset
* `Pattern.Scan`: the tokens to come

## Main statements

* `Pattern.flatten_tokensFrom`: the tokens of a text are the text

## Design notes

A backslash at the end of a text is a fault as soon as the token before it has been taken, so
`Scan.take` looks one token ahead.
-/

namespace TypeVerdict.Pattern

/-- A character or an escape with its offset.  A lone backslash at the end of a text is an escape
of nothing. -/
structure Token where
  offset : Nat
  text : List Char
deriving DecidableEq, Repr

/-- The tokens of a text that begins at an offset. -/
def tokensFrom (offset : Nat) : List Char → List Token
  | [] => []
  | '\\' :: c :: r => ⟨offset, ['\\', c]⟩ :: tokensFrom (offset + 2) r
  | c :: r => ⟨offset, [c]⟩ :: tokensFrom (offset + 1) r

/-- Nothing of a text is lost. -/
theorem flatten_tokensFrom (offset : Nat) (s : List Char) :
    ((tokensFrom offset s).map (·.text)).flatten = s := by
  fun_induction tokensFrom offset s with
  | case1 => rfl
  | case2 offset c r ih => simp [ih]
  | case3 offset c r _ ih => simp [ih]

/-- The tokens to come and the length of the whole text. -/
structure Scan where
  tokens : List Token
  size : Nat
  groups : Nat := 1
deriving DecidableEq, Repr

namespace Scan

/-- The offset of the next token. -/
def offset (s : Scan) : Nat :=
  match s.tokens with
  | [] => s.size
  | t :: _ => t.offset

/-- A fault some characters before the next token. -/
def fault {α : Type} (s : Scan) (f : Fault) (back : Nat := 0) : Except Error α :=
  .error (.fault f (s.offset - back))

/-- The text of the next token, empty at the end. -/
def peek (s : Scan) : List Char :=
  match s.tokens with
  | [] => []
  | t :: _ => t.text

/-- A backslash that escapes nothing is a fault once it is next. -/
def check (s : Scan) : Except Error Scan :=
  if s.peek = ['\\'] then .error (.fault .danglingEscape (s.size - 1)) else .ok s

/-- The scan behind the next token. -/
def take (s : Scan) : Except Error Scan := check { s with tokens := s.tokens.tail }

/-- The scan behind the next token if that is the given character. -/
def accept? (s : Scan) (c : Char) : Except Error (Option Scan) :=
  if s.peek = [c] then some <$> s.take else .ok none

/-- The characters of the next tokens that are single and satisfy a test, at most a number of
them. -/
def takeWhile (test : Char → Bool) : Nat → Scan → Except Error (List Char × Scan)
  | 0, s => .ok ([], s)
  | n + 1, s => match s.peek with
    | [c] =>
      if test c then do
        let (cs, s) ← takeWhile test n (← s.take)
        return (c :: cs, s)
      else .ok ([], s)
    | _ => .ok ([], s)

end Scan

end TypeVerdict.Pattern
