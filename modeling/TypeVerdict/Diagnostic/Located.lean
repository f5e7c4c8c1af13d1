import TypeVerdict.Diagnostic.Parser
import TypeVerdict.Path

/-!
# Located diagnostics

The paths of a checker's output, resolved against the project's root, become the keys under which
diagnostics meet the files under test: different spellings of one file come together.

## Main definitions

* `LocatedDiagnostic`: a diagnostic with the error that shows it
* `Diagnostic.toError`: the error for a diagnostic of a given file
* `Diagnostic.locate`: diagnostics by resolved path
-/

namespace TypeVerdict

/-- A diagnostic with the error that shows it. -/
structure LocatedDiagnostic where
  diagnostic : Diagnostic
  error : TypeError
deriving DecidableEq, Repr

namespace Diagnostic

/-- The message of a diagnostic under its code. -/
def codedMessage (d : Diagnostic) : String :=
  match d.code? with
  | some code => s!"TS{code}: {d.message}"
  | none => d.message

/-- The error for a diagnostic of a given file; one about the whole project points nowhere. -/
def toError (d : Diagnostic) (file? : Option String) : TypeError where
  message := d.codedMessage
  frames := (file?.map fun file =>
    Frame.mk file (d.position?.map (·.line)) (d.position?.map (·.column))).toList

/-- Diagnostics by path, each path resolved against a root. -/
def locate (root : String) (diagnostics : Grouping (Option String) Diagnostic) :
    Grouping (Option String) LocatedDiagnostic :=
  diagnostics.groups.foldl (fun g (path?, ds) =>
    let file? := path?.map (Path.resolveText root)
    g.append file? (ds.map fun d => ⟨d, d.toError file?⟩)) ⟨[]⟩

/-- The diagnostics of an output by resolved path. -/
def ofOutput (root : String) (output : List Char) : Grouping (Option String) LocatedDiagnostic :=
  locate root (parse output)

end Diagnostic

end TypeVerdict
