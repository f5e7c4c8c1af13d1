import TypeVerdict.Session.Segment
import TypeVerdict.Session.Teardown

/-!
# The passes of a session

The output of a completed pass becomes a snapshot over the definitions of the files under test,
which are collected when the first pass needs them and given up when a new pass is announced.

## Main definitions

* `Session.collectAll`: the definitions of the files under test
* `Session.snapshotOf`: the snapshot for the output of a pass
* `Session.feed`: one piece of a watching checker's output

## Design notes

The loop over the markers of a buffer makes at most a given number of rounds, because markers that
match the empty text could keep it going for ever.
-/

namespace TypeVerdict.Session

/-- A listener is told something and waited for. -/
def notify (host : Host) (notice : Notice) : Act Unit := do
  reach (.told notice)
  match (← current).listeners.for? notice with
  | none => return
  | some listener =>
    record (.notify listener notice)
    await host (host.notify (← history) listener notice)

/-- The definitions of one file, if the collector finds any. -/
def collectFile (host : Host) (path : String) : Act (Option Definitions) := do
  record (.collect (← current).root path)
  let collected? ← await host (host.collect (← history) path)
  return collected?.map (·.definitions)

/-- What collecting gave for each of several files, all of which are asked. -/
def collectEach (host : Host) :
    List String → Act (List (String × Except Interruption (Option Definitions)))
  | [] => return []
  | path :: more => do
    let found ← attempt (collectFile host path)
    let rest ← collectEach host more
    return (path, found) :: rest

/-- The files with definitions, or the first interruption. -/
def gather : List (String × Except Interruption (Option Definitions)) →
    Except Interruption DefinitionTable
  | [] => .ok []
  | (_, .error e) :: _ => .error e
  | (path, .ok found?) :: more => do
    let rest ← gather more
    return match found? with
      | none => rest
      | some d => (path, d) :: rest

/-- The definitions of all files under test; they are kept only if every file could be asked. -/
def collectAll (host : Host) : Act DefinitionTable := do
  let found ← collectEach host (← current).files
  let table ← MonadExcept.ofExcept (gather found)
  update fun s => { s with table? := some table }
  return table

/-- The snapshot for some diagnostics, over some definitions. -/
def judge (diagnostics : Grouping (Option String) LocatedDiagnostic) (table : DefinitionTable) :
    Act Snapshot := do
  match Snapshot.assemble diagnostics (← current).files table with
  | .ok snapshot => return snapshot
  | .error cause => failWith (.assembly cause)

/-- The snapshot for some diagnostics, over the definitions collected before or now. -/
def assembleFrom (host : Host) (diagnostics : Grouping (Option String) LocatedDiagnostic) :
    Act Snapshot := do
  let table ← match (← current).table? with
    | some table => pure table
    | none => collectAll host
  judge diagnostics table

/-- The snapshot for the output of a pass. -/
def snapshotOf (host : Host) (output : List Char) : Act Snapshot := do
  assembleFrom host (Diagnostic.ofOutput (← current).root output)

/-- A snapshot becomes the session's result. -/
def publish (snapshot : Snapshot) : Act Unit := update fun s => { s with snapshot }

/-- A pass was announced: the last result and the collected definitions are out of date. -/
def beginRerun (host : Host) : Act Unit := do
  update fun s => { s with rerunSeen := true, snapshot := .empty, table? := none }
  notify host .rerun

/-- A pass is complete: its snapshot is published unless the session was closed meanwhile. -/
def finishPass (host : Host) (output : List Char) : Act Unit := do
  reach (.completed output)
  let snapshot ← snapshotOf host output
  if (← current).phase = .closed then return
  publish snapshot
  notify host (.published snapshot)

/-- The markers of the buffer are acted on, in at most a number of rounds. -/
def drain (host : Host) : Nat → Act Unit
  | 0 => throw .outOfRounds
  | rounds + 1 => do
    let s ← current
    if s.phase = .closed then return
    match Segment.next s.options.markers s.rerunSeen s.buffer with
    | .wait => return
    | .rerun =>
      beginRerun host
      drain host rounds
    | .pass output rest =>
      update fun s => { s with buffer := rest, rerunSeen := false }
      finishPass host output
      drain host rounds

/-- One piece of a watching checker's output. -/
def feed (host : Host) (rounds : Nat) (piece : List Char) : Act Unit := do
  update fun s => { s with buffer := s.buffer ++ piece }
  drain host rounds

end TypeVerdict.Session
