import TypeVerdict.Text.Blank
import TypeVerdict.Text.Lines

/-!
# Environment files

A file of assignments, one a line: `NAME=value`, perhaps after `export`, with blanks around the
sign.  A value in single quotes is literal, one in double quotes may hold escapes, both may span
lines, and any other value ends with the line or with a comment.  A name alone is known without a
value.  A line that is no assignment is skipped.  In a value, `$` before a name in braces stands
for the value of that name, and a default may follow the name after `:-`.

## Main definitions

* `EnvFile.Binding`: a name with its value
* `EnvFile.parse`: the assignments of a file
* `EnvFile.expand`: a value with its references replaced
* `EnvFile.definitions`: the names of a file with their values
-/

namespace TypeVerdict.EnvFile

open Text

/-- A name with its value, if it has one. -/
structure Binding where
  name : List Char
  value? : Option (List Char)
deriving DecidableEq, Repr

/-- A blank that does not end the line. -/
def isLineBlank (c : Char) : Bool := isBlank c && c ≠ '\n' && c ≠ '\r'

/-- A character that does not end the line. -/
def isLineChar (c : Char) : Bool := c ≠ '\n' && c ≠ '\r'

/-- What an escape in double quotes stands for. -/
def escaped? : Char → Option Char
  | '\\' => some '\\'
  | '\'' => some '\''
  | '"' => some '"'
  | 'a' => some '\x07'
  | 'b' => some '\x08'
  | 'f' => some '\x0c'
  | 'n' => some '\n'
  | 'r' => some '\r'
  | 't' => some '\t'
  | 'v' => some '\x0b'
  | _ => none

/-- The escapes that single quotes know. -/
def escapedInSingle? (c : Char) : Option Char :=
  if c = '\\' || c = '\'' then some c else none

/-- A quoted value with its escapes replaced; a backslash before any other character stays. -/
def unescape (escape? : Char → Option Char) : List Char → List Char
  | '\\' :: c :: r => match escape? c with
    | some x => x :: unescape escape? r
    | none => '\\' :: unescape escape? (c :: r)
  | c :: r => c :: unescape escape? r
  | [] => []

/-- The value behind an opening quote, and what follows the closing one: a backslash takes the
character behind it along, and the first quote left closes. -/
def quotedValue? (quote : Char) : List Char → Option (List Char × List Char)
  | [] => none
  | '\\' :: c :: r => (quotedValue? quote r).map fun (v, r) => ('\\' :: c :: v, r)
  | c :: r =>
    if c = quote then some ([], r)
    else if c = '\\' then none
    else (quotedValue? quote r).map fun (v, r) => (c :: v, r)

/-- A value without the comment that begins with a blank and `#`, the blanks before the comment
given so far. -/
def dropComment (blanks : List Char) : List Char → List Char
  | [] => blanks
  | c :: r =>
    if isBlank c then dropComment (blanks ++ [c]) r
    else if c = '#' && !blanks.isEmpty then []
    else blanks ++ c :: dropComment [] r

/-- The value of an assignment behind the sign and some blanks, and what follows it.  A comment may
begin right behind the blanks. -/
def readValue (blanks s : List Char) : Option (List Char × List Char) :=
  match s with
  | '\'' :: r => (quotedValue? '\'' r).map fun (v, r) => (unescape escapedInSingle? v, r)
  | '"' :: r => (quotedValue? '"' r).map fun (v, r) => (unescape escaped? v, r)
  | _ => some (strip (dropComment blanks (s.takeWhile isLineChar)), s.dropWhile isLineChar)

/-- A text behind the word `export` and the blanks after it, if it begins so. -/
def dropExport (s : List Char) : List Char :=
  match stripPrefix? (lit "export") s with
  | some (c :: r) => if isLineBlank c then r.dropWhile isLineBlank else s
  | _ => s

/-- The name of an assignment, and what follows it: none if the line is a comment.  Where no name
can be read, the text is given back. -/
def readName (s : List Char) : Except (List Char) (Option (List Char) × List Char) :=
  match s with
  | '#' :: _ => .ok (none, s)
  | '\'' :: r => match r.takeWhile (· ≠ '\''), r.dropWhile (· ≠ '\'') with
    | c :: cs, _ :: r => .ok (some (c :: cs), r)
    | _, _ => .error s
  | _ => match s.takeWhile fun c => c ≠ '=' && c ≠ '#' && !isBlank c with
    | [] => .error s
    | name => .ok (some name, s.drop name.length)

/-- A text behind a comment, if it begins with one. -/
def skipComment (s : List Char) : List Char :=
  match s.dropWhile isLineBlank with
  | '#' :: r => r.dropWhile isLineChar
  | _ => s

/-- A text behind the end of its line, if only blanks come before that. -/
def endOfLine? (s : List Char) : Option (List Char) :=
  match s.dropWhile isLineBlank with
  | [] => some []
  | c :: r => if isLineChar c then none else some r

/-- A text behind the rest of its line. -/
def skipLine (s : List Char) : List Char := (s.dropWhile isLineChar).drop 1

/-- The value of a name, if the sign follows. -/
def readAssigned (s : List Char) : Except (List Char) (Option (List Char) × List Char) :=
  match s.dropWhile isLineBlank with
  | '=' :: r =>
    let blanks := r.takeWhile isLineBlank
    let r := r.dropWhile isLineBlank
    match readValue blanks r with
    | some (v, r) => .ok (some v, r)
    | none => .error r
  | r => .ok (none, r)

/-- The first assignment of a text that does not begin with a blank, and what follows its line. -/
def readBinding (s : List Char) : Option Binding × List Char :=
  let read : Except (List Char) (Option Binding × List Char) := do
    let (name?, s) ← readName (dropExport s)
    let (value?, s) ← readAssigned s
    let s := skipComment s
    match endOfLine? s with
    | some r => return (name?.map (Binding.mk · value?), r)
    | none => throw s
  match read with
  | .ok found => found
  | .error s => (none, skipLine s)

/-- The assignments of a text, of which every one takes a character at least. -/
def bindings : Nat → List Char → List Binding
  | 0, _ => []
  | n + 1, s => match s.dropWhile isBlank with
    | [] => []
    | s =>
      let (b?, r) := readBinding s
      b?.toList ++ bindings n r

/-- A text without the byte order mark at its start. -/
def dropMark : List Char → List Char
  | '\uFEFF' :: s => s
  | s => s

/-- The assignments of a file, in order. -/
def parse (s : List Char) : List Binding :=
  let s := normalizeBreaks (dropMark s)
  bindings s.length s

/-- A reference at the start of a text, behind `$` and the brace: its name and default, and what
follows it. -/
def readReference (s : List Char) : Option ((List Char × List Char) × List Char) :=
  let stop (c : Char) : Bool := c = '\x7d' || c = ':'
  let name := s.takeWhile (!stop ·)
  match s.drop name.length with
  | '\x7d' :: r => some ((name, []), r)
  | ':' :: '-' :: r => match r.dropWhile (· ≠ '\x7d') with
    | _ :: rest => some ((name, r.takeWhile (· ≠ '\x7d')), rest)
    | [] => none
  | _ => none

/-- A value with its references replaced; at most a number of characters are looked at. -/
def expandWithin (value? : List Char → Option (List Char)) : Nat → List Char → List Char
  | 0, s => s
  | n + 1, s => match s with
    | [] => []
    | '$' :: '\x7b' :: r => match readReference r with
      | some ((name, default), rest) =>
        (value? name).getD default ++ expandWithin value? n rest
      | none => '$' :: expandWithin value? n ('\x7b' :: r)
    | c :: r => c :: expandWithin value? n r

/-- A value with its references replaced by the values of their names. -/
def expand (value? : List Char → Option (List Char)) (s : List Char) : List Char :=
  expandWithin value? s.length s

/-- A binding put behind others: a known name keeps its place and takes the new value. -/
def put (b : Binding) : List Binding → List Binding
  | [] => [b]
  | x :: more => if x.name = b.name then b :: more else x :: put b more

/-- The value of a name among bindings whose names are known already, or else in the environment.
A name without a value stands for nothing. -/
def valueIn (environment : List Binding) (known : List Binding) (name : List Char) :
    Option (List Char) :=
  match known.find? (·.name = name) with
  | some b => some (b.value?.getD [])
  | none => (environment.find? (·.name = name)).bind (·.value?)

/-- The names of a file with their values, in the order of their first assignments.  The last
assignment of a name counts, and a reference takes the value that its name has at that point. -/
def definitions (environment : List Binding) (s : List Char) : List Binding :=
  (parse s).foldl (fun known b =>
    put { b with value? := b.value?.map (expand (valueIn environment known)) } known) []

end TypeVerdict.EnvFile
