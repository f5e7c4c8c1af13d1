import TypeVerdict.Text.Digit
import TypeVerdict.Text.Lines

/-!
# Faults of patterns

Why a text is no pattern, and where; and the limits of what is read as a pattern at all.

## Main definitions

* `Pattern.Fault`: the kinds of faults
* `Pattern.Limit`: the limits of patterns
* `Pattern.Error`: a fault at an offset of the text, or a limit that the text goes beyond
* `Pattern.Error.message`: how either is reported
-/

namespace TypeVerdict.Pattern

/-- The kinds of faults. -/
inductive Fault where
  | unterminatedGroup
  | unterminatedComment
  | unterminatedSet
  | unterminatedName
  | missingName
  | badName (name : List Char)
  | nothingToRepeat
  | multipleRepeat
  | unbalancedParenthesis
  | danglingEscape
  | badEscape (escape : List Char)
  | incompleteEscape (escape : List Char)
  | badRange (low high : List Char)
  | minAboveMax
  | unexpectedEnd
  | unknownExtension (mark : List Char)
  | invalidReference (number : Nat)
  | octalTooLarge (escape : List Char)
  /-- A construct that marker patterns have no use for. -/
  | unsupported (mark : List Char)
deriving DecidableEq, Repr

/-- The wording of a fault. -/
def Fault.message : Fault → String
  | unterminatedGroup => "missing ), unterminated subpattern"
  | unterminatedComment => "missing ), unterminated comment"
  | unterminatedSet => "unterminated character set"
  | unterminatedName => "missing >, unterminated name"
  | missingName => "missing group name"
  | badName name => "bad character in group name '" ++ String.ofList name ++ "'"
  | nothingToRepeat => "nothing to repeat"
  | multipleRepeat => "multiple repeat"
  | unbalancedParenthesis => "unbalanced parenthesis"
  | danglingEscape => "bad escape (end of pattern)"
  | badEscape escape => "bad escape " ++ String.ofList escape
  | incompleteEscape escape => "incomplete escape " ++ String.ofList escape
  | badRange low high => "bad character range " ++ String.ofList (low ++ '-' :: high)
  | minAboveMax => "min repeat greater than max repeat"
  | unexpectedEnd => "unexpected end of pattern"
  | unknownExtension mark => "unknown extension ?" ++ String.ofList mark
  | invalidReference number => "invalid group reference " ++ toString number
  | octalTooLarge escape =>
    "octal escape value " ++ String.ofList escape ++ " outside of range 0-0o377"
  | unsupported mark => "unsupported construct ?" ++ String.ofList mark

/-- The limits of patterns. -/
inductive Limit where
  /-- A bound of a repetition is `roundLimit` or more. -/
  | rounds
  /-- A bound of a repetition has too many digits. -/
  | digits (cause : Text.NumeralTooLong)
  /-- There are more than `depthLimit` groups around a place. -/
  | depth
deriving DecidableEq, Repr

/-- Every bound of a repetition is less than this. -/
def roundLimit : Nat := Nat.pow 2 32 - 1

/-- How many groups there can be around a place. -/
def depthLimit : Nat := 492

/-- How a limit is reported. -/
def Limit.message : Limit → String
  | rounds => "the repetition number is too large"
  | digits cause => cause.message
  | depth => "the groups are nested too deeply"

/-- Why a text is not taken as a pattern. -/
inductive Error where
  /-- It is none, which shows at an offset. -/
  | fault (cause : Fault) (position : Nat)
  /-- It goes beyond a limit. -/
  | limit (cause : Limit)
deriving DecidableEq, Repr

/-- How a fault at an offset of a text is reported; in a text of several lines with the line and the
column. -/
def Fault.messageAt (fault : Fault) (position : Nat) (text : List Char) : String :=
  let base := s!"{fault.message} at position {position}"
  if text.contains '\n' then
    let before := Text.splitAt '\n' (text.take position)
    s!"{base} (line {before.length}, column {(before.getLastD []).length + 1})"
  else base

/-- How it is reported that a text is not taken as a pattern. -/
def Error.message (text : List Char) : Error → String
  | fault cause position => cause.messageAt position text
  | limit cause => cause.message

end TypeVerdict.Pattern
