import TypeVerdict.Position.Span
import TypeVerdict.SourceMap.Basic
import TypeVerdict.Task.Tree

/-!
# Snapshots

What is collected about the files under test, and the snapshot that a completed pass publishes:
one tree for every file, annotated with the type errors found in it, and the errors of all other
files.

## Main definitions

* `Collected`: what a collector knows about a file
* `Definitions`: the same, ready to take diagnostics
* `Snapshot`: the published outcome of a pass
-/

namespace TypeVerdict

/-- What a collector knows about a file: its tree, the spans of its definitions in a text, and how
the checked file maps to that text if they differ. -/
structure Collected where
  forest : Forest
  file : Key
  spans : List (Span Key)
  text : List Char
  sourceMap? : Option SourceMap.Source := none

/-- What is known about a file when its diagnostics are placed. -/
structure Definitions where
  forest : Forest
  file : Key
  spans : List (Span Key) := []
  sourceMap? : Option SourceMap.Source := none
  index : IndexMap := IndexMap.empty

/-- The definitions of a file, with the index map of the text that its spans refer to. -/
def Collected.definitions (c : Collected) : Definitions where
  forest := c.forest
  file := c.file
  spans := c.spans
  sourceMap? := c.sourceMap?
  index := IndexMap.ofText c.text

/-- The definitions of the files under test, by path. -/
abbrev DefinitionTable := List (String × Definitions)

/-- A file of a snapshot: a forest and the key of the file in it. -/
structure Record where
  forest : Forest
  file : Key
deriving DecidableEq, Repr

namespace Record

/-- The entry of the file. -/
def task? (r : Record) : Option Task := r.forest.get? r.file

/-- The file's tree. -/
def tree? (r : Record) : Option Tree := r.forest.tree? r.file

/-- Whether the file failed. -/
def hasFailed (r : Record) : Bool := r.task?.any (·.hasFailed)

end Record

/-- The path of a file with definitions. -/
def Definitions.path? (d : Definitions) : Option String := (d.forest.get? d.file).bind (·.path?)

/-- The published outcome of a pass: the requested files in order, and the errors of other files. -/
structure Snapshot where
  files : List Record := []
  sourceErrors : List TypeError := []
deriving DecidableEq, Repr

namespace Snapshot

/-- The snapshot of a session that has published nothing. -/
def empty : Snapshot := {}

/-- Whether a file failed or another file has an error. -/
def hasFailures (s : Snapshot) : Bool := !s.sourceErrors.isEmpty || s.files.any (·.hasFailed)

end Snapshot

end TypeVerdict
