import TypeVerdict.Workspace.SearchPath
import TypeVerdict.Workspace.SystemError

/-!
# Finding the checker

A project brings its checker along as a package; otherwise the checker is searched for where
programs are installed.

## Main definitions

* `Executable.inProject`: where a project's own checker stands
* `Executable.search`: the first installed program of a name
* `Executable.resolve`: the executable of a checker
-/

namespace TypeVerdict.Executable

/-- Where the executable of a project's own checker stands. -/
def inProject (root checker : List Char) : List Char :=
  Path.tidy (["node_modules".toList, ".bin".toList, checker].foldl Path.attach root)

/-- The first program of a name on a search path.  An empty search path has none, unless the name
holds a slash. -/
def search (t : FileTree) (directory : Place) (searched : SearchPath) (program : List Char) :
    Option (List Char) :=
  if searched.text = [] && !program.contains '/' then none
  else (searched.candidates program).find? (t.isExecutable directory)

/-- The package that holds a checker. -/
def packageOf (checker : List Char) : List Char :=
  if checker = "tsc".toList then "typescript".toList else checker

/-- Why there is no executable of a checker. -/
inductive ResolveError where
  | notInstalled (checker root : List Char)
  /-- The name is too long to be looked up in the project. -/
  | tooLong (cause : FileTree.NameTooLong)
deriving DecidableEq, Repr

/-- How a missing checker is reported. -/
def ResolveError.message : ResolveError → String
  | notInstalled checker root =>
    let package := String.ofList (packageOf checker)
    "Cannot find '" ++ String.ofList checker ++ "'. Install the '" ++ package ++ "' package in " ++
      String.ofList root ++ "."
  | tooLong cause => SystemError.nameTooLong.about cause.path

/-- The executable of a checker: the project's own, which must be a file, or else an installed
program. -/
def resolve (t : FileTree) (directory : Place) (searched : SearchPath)
    (root checker : List Char) : Except ResolveError (List Char) := do
  let own := inProject root checker
  if ← (t.testFile directory own).mapError .tooLong then return own
  match search t directory searched checker with
  | some found => return found
  | none => .error (.notInstalled checker root)

end TypeVerdict.Executable
