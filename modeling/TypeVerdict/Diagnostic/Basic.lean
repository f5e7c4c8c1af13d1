import TypeVerdict.Position.Basic

/-!
# Diagnostics

What a type checker reports: a category, a message, and as far as they are known the file, the
position in it and the code of the report.

## Main definitions

* `Category`: how severe a report is
* `Diagnostic`: one report, as the checker wrote it
* `Frame`: a place in a file that an error points to
* `TypeError`: a report as a test runner shows it
-/

namespace TypeVerdict

/-- How severe a report is. -/
inductive Category where
  | error
  | warning
  | message
deriving DecidableEq, Repr

/-- The word for a category. -/
def Category.word : Category → String
  | .error => "error"
  | .warning => "warning"
  | .message => "message"

/-- One report of a checker.  The path is as the checker wrote it; a report about the whole project
has none. -/
structure Diagnostic where
  path? : Option String
  position? : Option Position
  category : Category
  code? : Option Nat
  message : String
deriving DecidableEq, Repr

/-- A place in a file that an error points to. -/
structure Frame where
  file : String
  line? : Option Int
  column? : Option Int
deriving DecidableEq, Repr

/-- A report as a test runner shows it: a message and the places it points to, nearest first. -/
structure TypeError where
  message : String
  frames : List Frame := []
deriving DecidableEq, Repr

/-- The place of an error, if it has one. -/
def TypeError.location? (e : TypeError) : Option Frame := e.frames.head?

end TypeVerdict
