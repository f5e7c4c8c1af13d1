import TypeVerdict.Json.Basic
import TypeVerdict.Log
import TypeVerdict.Session.Options

/-!
# Settings

The configuration of the program, and what is wrong with one that is not valid.

## Main definitions

* `Settings`: a valid configuration
* `Settings.Problem`: what is wrong with a field
* `Settings.options`: the options of the session that a configuration asks for
-/

namespace TypeVerdict

namespace Settings

/-- The checkers that can be asked for. -/
inductive Checker where
  | tsc
  | vueTsc
deriving DecidableEq, Repr

/-- The name of a checker. -/
def Checker.word : Checker → String
  | tsc => "tsc"
  | vueTsc => "vue-tsc"

/-- All checkers. -/
def Checker.all : List Checker := [tsc, vueTsc]

/-- Why the value of a field is refused. -/
inductive Cause where
  | notText
  | notList
  /-- The field takes one of a few words only. -/
  | notListed
  | notTruthValue
  /-- A text or number that stands for no truth value. -/
  | unreadableTruthValue
  /-- No field has this name. -/
  | unknownName
  /-- The value has the right form and is still of no use. -/
  | rejected (reason : String)
deriving DecidableEq, Repr

/-- What is wrong with a field, or with one item of its value. -/
structure Problem where
  field : String
  index? : Option Nat := none
  cause : Cause
deriving DecidableEq, Repr

/-- Why a configuration cannot be used. -/
inductive LoadError where
  /-- A list given as text in the environment or a file is not JSON. -/
  | unreadableList
  /-- A list given as text, or a pattern, is nested too deeply. -/
  | tooDeep
  /-- A pattern asks for too many repetitions. -/
  | tooManyRounds
  /-- Some fields are not valid. -/
  | invalid (problems : List Problem)
deriving DecidableEq, Repr

end Settings

/-- A valid configuration. -/
structure Settings where
  root : String := "."
  checker : Settings.Checker := .tsc
  tsconfig? : Option String := none
  globs : List String := defaultGlobs
  allowJs : Bool := false
  watch : Bool := false
  markers : Markers := .standard
  logLevel : Log.Level := .info
  logFormat : Log.Format := .text

/-- The options of the session that a configuration asks for. -/
def Settings.options (s : Settings) : Options where
  root := s.root
  checker := s.checker.word
  tsconfig? := s.tsconfig?
  globs := s.globs
  allowJs := s.allowJs
  watch := s.watch
  markers := s.markers

end TypeVerdict
