import TypeVerdict.Path

/-!
# Search paths

The directories in which programs are searched for, written as one text with colons between them.
So a directory whose name holds a colon counts as two, and an empty text is the one directory
without a name, in which everything is found relative to the directory in use.

## Main definitions

* `SearchPath`: a search path
* `SearchPath.candidates`: what the name of a program may stand for
-/

namespace TypeVerdict

/-- A search path by its written form. -/
structure SearchPath where
  text : List Char := []
deriving DecidableEq, Repr

namespace SearchPath

/-- The search path of some directories. -/
def ofDirectories (directories : List (List Char)) : SearchPath :=
  ⟨Text.joinWith [':'] directories⟩

/-- The directories of a search path. -/
def directories (p : SearchPath) : List (List Char) := Text.splitAt ':' p.text

/-- The written paths that the name of a program may stand for, in order.  A name with a slash
stands for itself. -/
def candidates (p : SearchPath) (program : List Char) : List (List Char) :=
  if program.contains '/' then [program] else p.directories.map (Path.attach · program)

end SearchPath

end TypeVerdict
