import TypeVerdict.Text.Digit
import TypeVerdict.Text.Lines
import TypeVerdict.Workspace.Program

/-!
# Words of scripts

A word is made of text and of parameters, whose values are known only when the command runs.  A
value that is not quoted falls apart at its blanks, so one word may stand for several fields or for
none.

## Main definitions

* `Script.Word`: a word
* `Script.Scope`: what the parameters' values depend on
* `Script.Word.fields`: the fields that a word stands for
* `Script.Word.assignment?`: a word as the assignment of a value to a name
-/

namespace TypeVerdict.Script

/-- A piece of a word. -/
inductive Piece where
  | text (quoted : Bool) (s : List Char)
  /-- The value of a parameter, or of its default if the value is empty. -/
  | parameter (quoted : Bool) (name : List Char) (default : List Char)
deriving DecidableEq, Repr

/-- A word: pieces without blanks between them. -/
abbrev Word := List Piece

/-- What the parameters' values depend on: the invocation, the assignments so far, and the status
of the last command. -/
structure Scope where
  invocation : Invocation
  assigned : List (List Char × List Char) := []
  last : Nat := 0

/-- The number that a text of digits writes. -/
def number? (s : List Char) : Option Nat :=
  if s ≠ [] ∧ s.all Char.isDigit then some (Text.numeral s) else none

/-- The text that stands for a script's own process. -/
def self : List Char := ['$', '$']

namespace Scope

/-- The scope at the start of a script. -/
def ofInvocation (i : Invocation) : Scope := ⟨i, [("PWD".toList, i.directory)], 0⟩

/-- The arguments of the script. -/
def arguments (s : Scope) : List (List Char) := s.invocation.arguments.drop 1

/-- The value of a name, empty if it has none. -/
def valueOf (s : Scope) (name : List Char) : List Char :=
  (s.assigned.lookup name <|> s.invocation.environment.lookup name).getD []

/-- The value of a parameter. -/
def parameter (s : Scope) (name : List Char) : List Char :=
  match name with
  | ['$'] => self
  | ['?'] => (toString s.last).toList
  | ['#'] => (toString s.arguments.length).toList
  | ['@'] | ['*'] => Text.joinWith [' '] s.arguments
  | _ => match number? name with
    | some n => s.invocation.arguments.getD n []
    | none => s.valueOf name

/-- The value of a parameter, or else a default. -/
def parameterOr (s : Scope) (name default : List Char) : List Char :=
  let value := s.parameter name
  if value.isEmpty then default else value

/-- A name with a new value. -/
def assign (s : Scope) (name value : List Char) : Scope :=
  { s with assigned := (name, value) :: s.assigned }

end Scope

/-- Fields under construction: those that are complete, and the one that may still grow. -/
structure Fields where
  complete : List (List Char) := []
  open? : Option (List Char) := none
deriving DecidableEq, Repr

namespace Fields

/-- The open field grows; it is begun if there is none. -/
def grow (f : Fields) (s : List Char) : Fields := { f with open? := some (f.open?.getD [] ++ s) }

/-- The open field is complete. -/
def close (f : Fields) : Fields := ⟨f.complete ++ f.open?.toList, none⟩

/-- A value that is not quoted: it falls apart at its blanks. -/
def split : List Char → Fields → Fields
  | [], f => f
  | c :: r, f => split r (if " \t\n".toList.contains c then f.close else f.grow [c])

/-- Several texts, the first of which belongs to the open field. -/
def spread : List (List Char) → Fields → Fields
  | [], f => f
  | [s], f => f.grow s
  | s :: more, f => spread more (f.grow s).close

/-- One more piece of a word. -/
def add (scope : Scope) (f : Fields) : Piece → Fields
  | .text _ s => f.grow s
  | .parameter true ['@'] _ => f.spread scope.arguments
  | .parameter true name default => f.grow (scope.parameterOr name default)
  | .parameter false name default => f.split (scope.parameterOr name default)

end Fields

namespace Word

/-- The fields that a word stands for. -/
def fields (w : Word) (scope : Scope) : List (List Char) :=
  (w.foldl (Fields.add scope) {}).close.complete

/-- The text that a word stands for where it cannot fall apart. -/
def value (w : Word) (scope : Scope) : List Char :=
  w.flatMap fun
    | .text _ s => s
    | .parameter _ name default => scope.parameterOr name default

end Word

/-- Whether a character may stand in a name. -/
def isNameChar (c : Char) : Bool := c.isAlphanum || c = '_'

/-- Whether a text is a name. -/
def isName (s : List Char) : Bool :=
  s.all isNameChar && s.head?.any fun c => !c.isDigit

/-- A word as the assignment of a value to a name, if it begins like one. -/
def Word.assignment? : Word → Option (List Char × Word)
  | .text false s :: more =>
    let name := s.takeWhile (· ≠ '=')
    if isName name && name.length < s.length then
      some (name, .text false (s.drop (name.length + 1)) :: more)
    else none
  | _ => none

end TypeVerdict.Script
