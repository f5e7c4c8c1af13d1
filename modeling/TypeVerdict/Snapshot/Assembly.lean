import TypeVerdict.Diagnostic.Located
import TypeVerdict.Snapshot.Basic
import TypeVerdict.SourceMap.Projection

/-!
# Assembling snapshots

Every diagnostic of a requested file becomes a synthetic entry of the file's tree, owned by the
innermost definition around its authored position or else by the file.  Every other diagnostic
becomes a source error.

## Main definitions

* `Snapshot.requested`: the requested files without repetitions
* `Definitions.owner`: where a diagnostic belongs
* `Definitions.attachAll`: the tree of a file with its diagnostics
* `Snapshot.assemble`: the snapshot of a pass

## Design notes

The definitions of a file are a value, which a pass is judged by and which stays as it is without
being copied.  That a copy could fail, where groups are nested too deeply for it, is left out.
-/

namespace TypeVerdict

/-- Why a snapshot cannot be assembled. -/
inductive AssemblyError where
  /-- A file's source map cannot be judged. -/
  | sourceMap (cause : SourceMap.DecodeError)
  /-- The innermost definition around a diagnostic cannot own entries. -/
  | notASuite (key : Key)
  /-- A requested file has no path. -/
  | emptyPath
deriving DecidableEq, Repr

namespace Definitions

/-- The entry that a diagnostic belongs to: the innermost definition around its authored position,
or else the file. -/
def owner (d : Definitions) (projection : Projection) (diagnostic : Diagnostic) : Key :=
  match (Locator.mk d.spans d.index).locate? (diagnostic.position?.map projection.apply) with
  | some span => span.target
  | none => d.file

/-- A file's forest after a diagnostic. -/
def attachOne (d : Definitions) (projection : Projection) (forest : Forest)
    (located : LocatedDiagnostic) : Except NotASuite Forest :=
  forest.attach (d.owner projection located.diagnostic) d.file
    (located.diagnostic.code?.map Int.ofNat) located.error

/-- A file's forest after all its diagnostics, in order. -/
def attachAll (d : Definitions) (diagnostics : List LocatedDiagnostic) :
    Except AssemblyError Forest :=
  match diagnostics with
  | [] => .ok d.forest
  | _ => do
    let projection ← (Projection.ofSource d.sourceMap?).mapError AssemblyError.sourceMap
    (diagnostics.foldlM (d.attachOne projection) d.forest).mapError fun e => .notASuite e.key

/-- The definitions of a file that nothing was collected about: the file alone. -/
def bare (path : String) : Except AssemblyError Definitions := do
  let file ← (Task.ofFile path path path).mapError fun _ => AssemblyError.emptyPath
  return { forest := Forest.insertFile {} file, file := 0 }

end Definitions

namespace Snapshot

/-- The requested files without repetitions, in the order of their first request. -/
def requested (files : List String) : List String :=
  files.foldl (fun seen file => if seen.contains file then seen else seen ++ [file]) []

/-- The record of a requested file. -/
def record (diagnostics : Grouping (Option String) LocatedDiagnostic) (table : DefinitionTable)
    (path : String) : Except AssemblyError Record := do
  let d ← match table.lookup path with
    | some d => .ok d
    | none => Definitions.bare path
  let forest ← d.attachAll ((diagnostics.get? (some path)).getD [])
  return ⟨forest, d.file⟩

/-- The errors of the files that were not requested, and of the project as a whole. -/
def sourceErrorsOf (diagnostics : Grouping (Option String) LocatedDiagnostic)
    (files : List String) : List TypeError :=
  diagnostics.groups.flatMap fun (path?, located) =>
    if path?.any files.contains then [] else located.map (·.error)

/-- The snapshot of a pass: its diagnostics, the requested files, and what is known about them. -/
def assemble (diagnostics : Grouping (Option String) LocatedDiagnostic) (files : List String)
    (table : DefinitionTable) : Except AssemblyError Snapshot := do
  let files := requested files
  let records ← files.mapM (record diagnostics table)
  return ⟨records, sourceErrorsOf diagnostics files⟩

end Snapshot

end TypeVerdict
