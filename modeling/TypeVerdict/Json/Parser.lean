import TypeVerdict.Json.Basic
import TypeVerdict.Text.Digit
import TypeVerdict.Text.Hex
import TypeVerdict.Text.Lines

/-!
# Reading JSON

The strict grammar of JSON with the three extra numbers `NaN`, `Infinity` and `-Infinity`.  Only
spaces, tabs, line feeds and carriage returns may stand between tokens, a string holds no control
characters, and the last of several equal keys counts.

## Main definitions

* `Json.ParseError`: why a text writes no value
* `Json.parse`: the value that a text writes

## Design notes

The readers of nested values count down a budget that `Json.parse` sets to more than the text can
use, since every second call consumes a character.
-/

namespace TypeVerdict.Json

open Text

/-- The blanks between tokens. -/
def isGap (c : Char) : Bool := c = ' ' || c = '\t' || c = '\n' || c = '\r'

/-- A text without the blanks at its start. -/
def skipGap (s : List Char) : List Char := s.dropWhile isGap

/-- Four hexadecimal digits at the start of a text, and what follows them. -/
def readUnit (s : List Char) : Option (Nat × List Char) :=
  if s.length < 4 then none else (hexNumeral? (s.take 4)).map (·, s.drop 4)

/-- The character of an escape that began with `\u`, and what follows it.  Two units that form a
surrogate pair make one character; a lone surrogate is replaced. -/
def readUnicode (s : List Char) : Option (Char × List Char) := do
  let (high, rest) ← readUnit s
  let lone := (Char.ofNat (if 0xD800 ≤ high ∧ high < 0xE000 then 0xFFFD else high), rest)
  match rest with
  | '\\' :: 'u' :: more =>
    if 0xD800 ≤ high ∧ high < 0xDC00 then
      let (low, after) ← readUnit more
      if 0xDC00 ≤ low ∧ low < 0xE000 then
        return (Char.ofNat (0x10000 + (high - 0xD800) * 0x400 + (low - 0xDC00)), after)
      else return lone
    else return lone
  | _ => return lone

/-- The character that a short escape stands for. -/
def shortEscape? : Char → Option Char
  | '"' => some '"'
  | '\\' => some '\\'
  | '/' => some '/'
  | 'b' => some '\x08'
  | 'f' => some '\x0c'
  | 'n' => some '\n'
  | 'r' => some '\r'
  | 't' => some '\t'
  | _ => none

/-- The rest of a string behind its opening quote, and what follows the closing one. -/
def readString (budget : Nat) (s : List Char) : Option (List Char × List Char) :=
  match budget, s with
  | 0, _ | _, [] => none
  | _ + 1, '"' :: r => some ([], r)
  | n + 1, '\\' :: 'u' :: r => do
    let (c, r) ← readUnicode r
    let (cs, r) ← readString n r
    return (c :: cs, r)
  | n + 1, '\\' :: e :: r => do
    let c ← shortEscape? e
    let (cs, r) ← readString n r
    return (c :: cs, r)
  | n + 1, c :: r => do
    if c.toNat < 32 || c = '\\' then none
    let (cs, r) ← readString n r
    return (c :: cs, r)

/-- The digits at the start of a text, and what follows them. -/
def spanDigits (s : List Char) : List Char × List Char :=
  (s.takeWhile isAsciiDigit, s.dropWhile isAsciiDigit)

/-- The digits of a fraction with its point, if there is one. -/
def readFraction : List Char → Option (List Char × List Char)
  | '.' :: s => match spanDigits s with
    | ([], _) => none
    | found => some found
  | _ => none

/-- An exponent with its mark, if there is one. -/
def readExponent : List Char → Option (Int × List Char)
  | e :: s =>
    if e = 'e' || e = 'E' then
      let (negative, s) := match s with
        | '-' :: r => (true, r)
        | '+' :: r => (false, r)
        | r => (false, r)
      match spanDigits s with
      | ([], _) => none
      | (ds, r) => some (if negative then -(numeral ds : Int) else numeral ds, r)
    else none
  | [] => none

/-- A number without its sign. -/
def readUnsigned (negative : Bool) (s : List Char) : Option (Json × List Char) := do
  let (whole, rest) := match s with
    | '0' :: r => (['0'], r)
    | _ => spanDigits s
  if whole.isEmpty then none
  let sign (n : Nat) : Int := if negative then -(n : Int) else n
  match readFraction rest, readExponent rest with
  | none, none => match readNumeral whole with
    | .ok n => return (.int (sign n), rest)
    | .error _ => none
  | none, some (e, r) => return (.real (sign (numeral whole)) e, r)
  | some (ds, r), _ =>
    let m := sign (numeral (whole ++ ds))
    match readExponent r with
    | some (e, r) => return (.real m (e - ds.length), r)
    | none => return (.real m (-(ds.length : Int)), r)

/-- A value that is a single word. -/
def readWord (s : List Char) : Option (Json × List Char) :=
  [("null", null), ("true", bool true), ("false", bool false), ("NaN", nan),
    ("Infinity", infinity false), ("-Infinity", infinity true)].findSome? fun (word, value) =>
      (stripPrefix? word.toList s).map (value, ·)

/-- Why a text writes no value. -/
inductive ParseError where
  | malformed
  /-- There are more than `depthLimit` arrays and objects around a place. -/
  | tooDeep
deriving DecidableEq, Repr

/-- How many arrays and objects there can be around a place. -/
def depthLimit : Nat := 985

/-- What was read, if anything was. -/
def wellFormed {α : Type} (read? : Option α) : Except ParseError α :=
  match read? with
  | some a => .ok a
  | none => .error .malformed

mutual

/-- A value at the start of a text, and what follows it.  There is room for some levels of arrays
and objects. -/
def readValue (budget levels : Nat) (s : List Char) : Except ParseError (Json × List Char) :=
  match budget with
  | 0 => .error .malformed
  | n + 1 =>
    match s with
    | '"' :: r => do
      let (cs, r) ← wellFormed (readString (r.length + 1) r)
      return (text (String.ofList cs), r)
    | '[' :: r => do
      if levels = 0 then .error .tooDeep
      match skipGap r with
      | ']' :: r => return (array [], r)
      | r =>
        let (items, r) ← readItems n (levels - 1) r
        return (array items, r)
    | '{' :: r => do
      if levels = 0 then .error .tooDeep
      match skipGap r with
      | '}' :: r => return (object [], r)
      | r =>
        let (fields, r) ← readFields n (levels - 1) [] r
        return (object fields, r)
    | s => wellFormed (readWord s <|> match s with
      | '-' :: r => readUnsigned true r
      | r => readUnsigned false r)

/-- The items of an array up to its closing bracket. -/
def readItems (budget levels : Nat) (s : List Char) :
    Except ParseError (List Json × List Char) :=
  match budget with
  | 0 => .error .malformed
  | n + 1 => do
    let (item, r) ← readValue n levels s
    match skipGap r with
    | ',' :: r =>
      let (items, r) ← readItems n levels (skipGap r)
      return (item :: items, r)
    | ']' :: r => return ([item], r)
    | _ => .error .malformed

/-- The fields of an object up to its closing brace, put into those read before. -/
def readFields (budget levels : Nat) (known : List (String × Json)) (s : List Char) :
    Except ParseError (List (String × Json) × List Char) :=
  match budget with
  | 0 => .error .malformed
  | n + 1 =>
    match s with
    | '"' :: r => do
      let (key, r) ← wellFormed (readString (r.length + 1) r)
      match skipGap r with
      | ':' :: r =>
        let (value, r) ← readValue n levels (skipGap r)
        let known := setField (String.ofList key) value known
        match skipGap r with
        | ',' :: r => readFields n levels known (skipGap r)
        | '}' :: r => return (known, r)
        | _ => .error .malformed
      | _ => .error .malformed
    | _ => .error .malformed

end

/-- The value that a text writes. -/
def parse (s : List Char) : Except ParseError Json := do
  let (value, rest) ← readValue (2 * s.length + 2) depthLimit (skipGap s)
  if (skipGap rest).isEmpty then return value else .error .malformed

end TypeVerdict.Json
