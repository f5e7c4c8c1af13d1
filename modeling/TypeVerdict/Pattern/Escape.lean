import TypeVerdict.Pattern.Basic
import TypeVerdict.Pattern.Scan
import TypeVerdict.Text.Digit
import TypeVerdict.Text.Hex

/-!
# Escapes in patterns

A backslash and what follows it stand for a character, a named class or an anchor.  Inside a set
`\b` is the backspace and there are no anchors and no numbers of groups.

## Main definitions

* `Pattern.Escaped`: what an escape stands for
* `Pattern.readEscape`: the meaning of an escape outside a set
* `Pattern.readSetEscape`: the meaning of an escape in a set
-/

namespace TypeVerdict.Pattern

/-- A digit of octal numerals. -/
def isOctalDigit (c : Char) : Bool := '0' ≤ c && c ≤ '7'

/-- The number that octal digits write. -/
def octal (s : List Char) : Nat := s.foldl (fun n c => 8 * n + (c.toNat - 48)) 0

/-- What an escape stands for. -/
inductive Escaped where
  | code (n : Nat)
  | named (name : ClassName) (negated : Bool)
  | anchor (a : Anchor)
deriving DecidableEq, Repr

/-- The named class of an escape. -/
def classEscape? : Char → Option Escaped
  | 'd' => some (.named .digit false)
  | 'D' => some (.named .digit true)
  | 'w' => some (.named .word false)
  | 'W' => some (.named .word true)
  | 's' => some (.named .blank false)
  | 'S' => some (.named .blank true)
  | _ => none

/-- The anchor of an escape. -/
def anchorEscape? : Char → Option Escaped
  | 'A' => some (.anchor .start)
  | 'Z' => some (.anchor .stop)
  | 'b' => some (.anchor .boundary)
  | 'B' => some (.anchor .inside)
  | _ => none

/-- The control character of an escape. -/
def controlEscape? : Char → Option Escaped
  | 'a' => some (.code 7)
  | 'f' => some (.code 12)
  | 'n' => some (.code 10)
  | 'r' => some (.code 13)
  | 't' => some (.code 9)
  | 'v' => some (.code 11)
  | '\\' => some (.code 92)
  | _ => none

/-- The number of hexadecimal digits that an escape takes. -/
def hexEscapeWidth? : Char → Option Nat
  | 'x' => some 2
  | 'u' => some 4
  | 'U' => some 8
  | _ => none

/-- An escape that gives a code in hexadecimal digits. -/
def readHexEscape (c : Char) (width : Nat) (s : Scan) : Except Error (Escaped × Scan) := do
  let (ds, s) ← s.takeWhile (fun c => (Text.hexValue? c).isSome) width
  let escape := '\\' :: c :: ds
  if ds.length ≠ width then s.fault (.incompleteEscape escape) escape.length
  let n := (Text.hexNumeral? ds).getD 0
  if n ≥ 0x110000 then s.fault (.badEscape escape) escape.length
  return (.code n, s)

/-- An escape of any other character stands for it, unless it is a letter or digit of ASCII. -/
def readPlainEscape (c : Char) (s : Scan) : Except Error (Escaped × Scan) :=
  if c.isAlpha then s.fault (.badEscape ['\\', c]) 2 else .ok (.code c.toNat, s)

/-- An escape that begins with a digit other than zero, outside a set: three octal digits, or the
number of a group. -/
def readNumberEscape (c : Char) (s : Scan) : Except Error (Escaped × Scan) := do
  let (second, s) ← s.takeWhile Text.isAsciiDigit 1
  let (third, s) ←
    if isOctalDigit c && !second.isEmpty && second.all isOctalDigit then s.takeWhile isOctalDigit 1
    else .ok ([], s)
  let ds := c :: second ++ third
  if !third.isEmpty then
    if octal ds > 0o377 then s.fault (.octalTooLarge ('\\' :: ds)) (ds.length + 1)
    return (.code (octal ds), s)
  let number := Text.numeral ds
  if number < s.groups then s.fault (.unsupported ds) ds.length
  s.fault (.invalidReference number) ds.length

/-- The meaning of an escape outside a set, once it is taken. -/
def readEscape (c : Char) (s : Scan) : Except Error (Escaped × Scan) :=
  match classEscape? c <|> anchorEscape? c <|> controlEscape? c with
  | some e => .ok (e, s)
  | none => match hexEscapeWidth? c with
    | some width => readHexEscape c width s
    | none =>
      if c = '0' then do
        let (ds, s) ← s.takeWhile isOctalDigit 2
        return (.code (octal ds), s)
      else if Text.isAsciiDigit c then readNumberEscape c s
      else readPlainEscape c s

/-- The meaning of an escape in a set, once it is taken. -/
def readSetEscape (c : Char) (s : Scan) : Except Error (Escaped × Scan) :=
  match (if c = 'b' then some (.code 8) else none) <|> controlEscape? c <|> classEscape? c with
  | some e => .ok (e, s)
  | none => match hexEscapeWidth? c with
    | some width => readHexEscape c width s
    | none =>
      if isOctalDigit c then do
        let (ds, s) ← s.takeWhile isOctalDigit 2
        let ds := c :: ds
        if octal ds > 0o377 then s.fault (.octalTooLarge ('\\' :: ds)) (ds.length + 1)
        return (.code (octal ds), s)
      else if Text.isAsciiDigit c then s.fault (.badEscape ['\\', c]) 2
      else readPlainEscape c s

end TypeVerdict.Pattern
