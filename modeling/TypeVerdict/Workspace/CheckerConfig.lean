import TypeVerdict.Json.Printer
import TypeVerdict.Workspace.SystemError

/-!
# The checker's configuration

A session checks with a configuration of its own, which stands beside the project's configuration,
extends it and says which files are checked.  The project's configuration is only referred to,
never read.

## Main definitions

* `CheckerConfig.locate`: the project's configuration
* `CheckerConfig.content`: what the session's configuration says
* `CheckerConfig.create`: the session's configuration in the tree
-/

namespace TypeVerdict.CheckerConfig

/-- The project's configuration unless another one is named. -/
def defaultName : List Char := "tsconfig.json".toList

/-- The written path of the configuration that a session extends; an empty name is none. -/
def basePath (root : List Char) (named? : Option (List Char))
    (baseName : List Char := defaultName) : List Char :=
  let name := match named? with
    | none | some [] => baseName
    | some name => name
  Path.tidy (Path.attach root name)

/-- Why there is no configuration to extend. -/
inductive LocateError where
  | notFound (path : List Char)
  | tooLong (cause : FileTree.NameTooLong)
deriving DecidableEq, Repr

/-- How a missing configuration is reported. -/
def LocateError.message : LocateError → String
  | notFound path => "Cannot find tsconfig file: " ++ String.ofList path
  | tooLong cause => SystemError.nameTooLong.about cause.path

/-- The place of the configuration that a session extends, links followed. -/
def locate (t : FileTree) (directory : Place) (base : List Char) : Except LocateError Place := do
  if ← (t.testFile directory base).mapError .tooLong then
    (t.locate directory base).mapError fun _ => .notFound base
  else .error (.notFound base)

/-- What the session's configuration says: it extends the one beside it, checks the given files,
and takes back a setting that cannot go together with checking alone. -/
def content (baseName : List Char) (globs : List String) : Json :=
  .object [
    ("extends", .text (String.ofList ("./".toList ++ baseName))),
    ("include", .array (globs.map .text)),
    ("compilerOptions", .object [("emitDeclarationOnly", .bool false)])]

/-- The written form of the session's configuration. -/
def text (baseName : List Char) (globs : List String) : List Char :=
  Json.pretty (content baseName globs) ++ ['\n']

/-- The name of a session's configuration. -/
def name (tag : List Char) : List Char := "tsconfig.".toList ++ tag ++ ".tmp.json".toList

/-- A session's configuration: its place and its text. -/
structure Created where
  place : Place
  text : List Char
deriving DecidableEq, Repr

/-- The session's configuration with a tag of its own, beside the one that it extends. -/
def create (t : FileTree) (directory : Place) (base tag : List Char) (globs : List String) :
    Except LocateError Created := do
  let place ← locate t directory base
  return ⟨place.dropLast ++ [name tag], text (place.getLastD []) globs⟩

/-- The tree that holds a session's configuration. -/
def Created.addTo (c : Created) (t : FileTree) : FileTree :=
  t.insert c.place (.file (String.ofList c.text).toUTF8.toList false)

end TypeVerdict.CheckerConfig
