import TypeVerdict.Snapshot.Basic
import TypeVerdict.Utf8
import TypeVerdict.Workspace.SystemError

/-!
# Collecting files without definitions

The simplest collector knows about a file that it exists and what it says.  It finds no definitions,
so every diagnostic of the file belongs to the file itself.

## Main definitions

* `Collector.readText`: the text of a file under test
* `Collector.collect`: what is known about a file under test
-/

namespace TypeVerdict.Collector

/-- Why a file under test cannot be collected. -/
inductive CollectError where
  | nullCharacter
  | refused (cause : SystemError) (path : List Char)
  | emptyPath
deriving DecidableEq, Repr

/-- The text of a file under test, its line breaks written alike; none if there is no such file or
its content is no text. -/
def readText (t : FileTree) (directory : Place) (path : List Char) :
    Except CollectError (Option (List Char)) :=
  let path := Path.tidy path
  match t.read directory path with
  | .ok content => .ok ((Utf8.decode? content).map Text.normalizeBreaks)
  | .error .notFound | .error .isDirectory => .ok none
  | .error .nullCharacter => .error .nullCharacter
  | .error cause => .error (.refused (.ofLookup cause) path)

/-- How a file is called in reports: by its path relative to the root. -/
def nameOf (directory : Place) (root path : List Char) : List Char :=
  let start : Path := ⟨false, directory⟩
  (start.within path).relativeTo (start.within root)

/-- What is known about a file under test, if there is one at a path. -/
def collect (t : FileTree) (directory : Place) (root path : List Char) :
    Except CollectError (Option Collected) := do
  match ← readText t directory path with
  | none => return none
  | some text =>
    let name := String.ofList (nameOf directory root path)
    let file ← (Task.ofFile name name (String.ofList path)).mapError fun _ => .emptyPath
    return some { forest := Forest.insertFile {} file, file := 0, spans := [], text }

end TypeVerdict.Collector
