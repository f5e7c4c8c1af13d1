import TypeVerdict.Diagnostic.Basic
import TypeVerdict.Grouping
import TypeVerdict.Text.Blank
import TypeVerdict.Text.Digit
import TypeVerdict.Text.Lines

/-!
# Reading a checker's output

The output is cut into entries: a line that is not blank begins one, and the indented lines after
it continue its message.  The first line of an entry has one of three shapes,

    path(line,column): category TScode: message
    path: category TScode: message
    category TScode: message

where the code is optional in the first.  Anything else (banners, times, stray text) is skipped.

## Main definitions

* `Diagnostic.Head`: the parts of an entry's first line
* `Diagnostic.Head.of?`: the recogniser of the three shapes
* `Diagnostic.ofEntry`: the report that an entry makes
* `Diagnostic.parse`: the reports of a whole output, by path

## Design notes

The recognisers work on lists of characters without backtracking.  In the first shape the path is
as short as possible, so every opening parenthesis is tried from the left.
-/

namespace TypeVerdict

namespace Diagnostic

open Text

/-- The parts of an entry's first line, numbers still as digits. -/
structure Head where
  path? : Option (List Char)
  place? : Option (List Char × List Char)
  category : Category
  code? : Option (List Char)
  message : List Char
deriving DecidableEq, Repr

/-- A non-empty sequence of digits at the start of a text, and what follows it. -/
def scanDigits (s : List Char) : Option (List Char × List Char) :=
  match s.takeWhile isDigit with
  | [] => none
  | ds => some (ds, s.dropWhile isDigit)

/-- The word of a category at the start of a text, and what follows it. -/
def scanCategory (s : List Char) : Option (Category × List Char) :=
  [Category.error, .warning, .message].findSome? fun c =>
    (stripPrefix? (lit c.word) s).map (c, ·)

/-- A code with its tag at the start of a text, and what follows it. -/
def scanCode (s : List Char) : Option (List Char × List Char) :=
  (stripPrefix? (lit " TS") s).bind scanDigits

/-- The message after the colon that ends the description of a report; one blank after the colon
belongs to neither. -/
def scanMessage : List Char → Option (List Char)
  | ':' :: ' ' :: s => some s
  | ':' :: s => some s
  | _ => none

/-- The part of a positioned head that follows the opening parenthesis. -/
def placed? (path s : List Char) : Option Head := do
  let (line, s) ← scanDigits s
  let s ← stripPrefix? [','] s
  let (column, s) ← scanDigits s
  let s ← stripPrefix? (lit "): ") s
  let (category, s) ← scanCategory s
  let (code, s) := match scanCode s with
    | some (code, s) => (some code, s)
    | none => (none, s)
  let message ← scanMessage s
  return ⟨some (strip path), some (line, column), category, code, message⟩

/-- The head with the shortest path, where the characters before the cursor are given in reverse. -/
def positionedFrom? (before : List Char) : List Char → Option Head
  | [] => none
  | c :: s =>
    (if c = '(' && !before.isEmpty then placed? before.reverse s else none) <|>
      positionedFrom? (c :: before) s

/-- A head with a path and a position. -/
def positioned? (s : List Char) : Option Head := positionedFrom? [] s

/-- A category with a code and a message. -/
def coded? (path? : Option (List Char)) (s : List Char) : Option Head := do
  let (category, s) ← scanCategory s
  let (code, s) ← scanCode s
  let message ← scanMessage s
  return ⟨path?, none, category, some code, message⟩

/-- A head with a path that holds no colon, drive apart, and no position.  A closing parenthesis
at its end would be that of a position. -/
def unplacedAfter? (drive s : List Char) : Option Head :=
  match s with
  | [] => none
  | c :: _ =>
    let path := s.takeWhile (· ≠ ':')
    if isBlank c || c = ':' || path.getLast? = some ')' then none
    else (stripPrefix? (lit ": ") (s.dropWhile (· ≠ ':'))).bind (coded? (some (drive ++ path)))

/-- A letter of the Latin alphabet can name a drive. -/
def isDriveLetter (c : Char) : Bool := c.isAlpha

/-- A head with a path and no position. -/
def unplaced? (s : List Char) : Option Head :=
  (match s with
  | d :: ':' :: rest => if isDriveLetter d then unplacedAfter? [d, ':'] rest else none
  | _ => none) <|> unplacedAfter? [] s

/-- The parts of an entry's first line, if it has one of the three shapes. -/
def Head.of? (line : List Char) : Option Head :=
  let s := strip line
  positioned? s <|> unplaced? s <|> coded? none s

/-- The message of a report: that of its first line and the continuing lines, each stripped. -/
def joinMessage (first : List Char) (more : List (List Char)) : List Char :=
  strip (joinWith ['\n'] (strip first :: more.map strip))

/-- The report that an entry makes, given by its lines. -/
def ofLines (first : List Char) (more : List (List Char)) :
    Except NumeralTooLong (Option Diagnostic) := do
  match Head.of? first with
  | none => return none
  | some head =>
    let position? ← match head.place? with
      | none => pure none
      | some (line, column) => do
        let line ← readNumeral line
        let column ← readNumeral column
        pure (some ⟨line, column⟩)
    let message := joinMessage head.message more
    if message.isEmpty then return none
    let code? ← match head.code? with
      | none => pure none
      | some code => some <$> readNumeral code
    let path? := match head.path? with
      | none | some [] => none
      | some path => some (String.ofList path)
    return some ⟨path?, position?, head.category, code?, String.ofList message⟩

/-- The report that an entry makes, `none` if it is not a report. -/
def ofEntry (entry : List Char) : Except NumeralTooLong (Option Diagnostic) :=
  match splitAt '\n' entry with
  | [] => .ok none
  | first :: more => ofLines first more

/-- A line that begins with a space or a tab continues the entry before it. -/
def isContinuation : List Char → Bool
  | c :: _ => c = ' ' || c = '\t'
  | [] => false

/-- Lines gathered into entries, each its first line and the lines that continue it. -/
def gather (lines : List (List Char)) : List (List Char × List (List Char)) :=
  match lines with
  | [] => []
  | first :: rest =>
    (first, rest.takeWhile isContinuation) :: gather (rest.dropWhile isContinuation)
termination_by lines.length
decreasing_by
  have := (List.dropWhile_sublist (l := rest) isContinuation).length_le
  simp only [List.length_cons]
  omega

/-- The entries of an output. -/
def entries (output : List Char) : List (List Char × List (List Char)) :=
  gather ((splitLines output).filter fun line => !isBlankText line)

/-- The report of an entry, where one with a number that is too long is skipped. -/
def ofLines? (entry : List Char × List (List Char)) : Option Diagnostic :=
  match ofLines entry.1 entry.2 with
  | .ok d => d
  | .error _ => none

/-- The reports of an output, in order. -/
def parseAll (output : List Char) : List Diagnostic := (entries output).filterMap ofLines?

/-- The reports of an output by path, in the order in which the paths first come. -/
def parse (output : List Char) : Grouping (Option String) Diagnostic :=
  (parseAll output).foldl (fun g d => g.insert d.path? d) ⟨[]⟩

end Diagnostic

end TypeVerdict
