import TypeVerdict.Session.Passes

/-!
# The life of a session

A session finds, configures and starts the checker, tells its listeners, and reads the output to its
end: as the text of one pass, or piece by piece from a watching checker.

## Main definitions

* `Session.launch`: the checker is found, configured and started
* `Session.checkOnce`, `Session.checkOnChange`: the two ways to read its output
* `Session.start`: the session from its start to the end of the checker's output
-/

namespace TypeVerdict.Session

/-- Whether the process has stopped writing because it was told to terminate. -/
def hasStopped (output : Output) : Act Bool := do
  return output.heedsTermination && (← history).contains .terminate

/-- The rest of the output, from a piece on. -/
def readAll (host : Host) (output : Output) (index : Nat) :
    List (Reply String) → Act (List Char)
  | [] => do
    await host output.afterwards
    return []
  | reply :: more => do
    if ← hasStopped output then return []
    let piece ← await host reply
    record (.read index)
    let rest ← readAll host output (index + 1) more
    return piece.toList ++ rest

/-- The process is waited for; it need not be terminated any more. -/
def awaitExit (host : Host) : Act Int := do
  record .wait
  let status ← await host (host.wait (← history))
  update fun s => { s with holdsProcess := false }
  return status

/-- The statuses of a checker that did its work: it found nothing, or reported what it found. -/
def usualStatuses : List Int := [0, 1, 2]

/-- One run of the checker: its whole output makes one snapshot. -/
def checkOnce (host : Host) (process : Output) : Act Unit := do
  let output ← readAll host process 0 process.pieces
  let status ← awaitExit host
  let s ← current
  if s.phase = .closed then return
  let diagnostics := Diagnostic.ofOutput s.root output
  if !usualStatuses.contains status && diagnostics.groups.isEmpty then
    failWith (.checkerExit s.options.checker status output)
  let snapshot ← assembleFrom host diagnostics
  if (← current).phase = .closed then return
  publish snapshot
  enter .done
  notify host (.published snapshot)

/-- The pieces of a watching checker's output, until the session is closed. -/
def follow (host : Host) (rounds : Nat) (output : Output) (index : Nat) :
    List (Reply String) → Act Unit
  | [] => await host output.afterwards
  | reply :: more => do
    if ← hasStopped output then return
    let piece ← await host reply
    record (.read index)
    if (← current).phase = .closed then return
    feed host rounds piece.toList
    follow host rounds output (index + 1) more

/-- A watching checker, up to the end of its output. -/
def checkOnChange (host : Host) (rounds : Nat) (output : Output) : Act Unit := do
  follow host rounds output 0 output.pieces
  if (← current).phase = .closed then return
  let _ ← awaitExit host
  enter .done

/-- The checker is found, configured and started. -/
def launch (host : Host) : Act Output := do
  let s ← current
  record (.resolveExecutable s.root s.options.checker)
  let executable ← match host.resolveExecutable (← history) with
    | .ok executable => pure executable
    | .error cause => failWith cause
  record (.createConfig s.root s.options.tsconfig? s.options.globs)
  let config ← await host (host.createConfig (← history))
  update fun s => { s with config? := some config }
  record (.spawn (s.options.command executable config) s.root)
  let output ← await host (host.spawn (← history))
  update fun s => { s with holdsProcess := true }
  return output

/-- The started checker is followed to the end of its output. -/
def runChecker (host : Host) (rounds : Nat) (output : Output) : Act Unit := do
  notify host .started
  if (← current).options.watch then checkOnChange host rounds output else checkOnce host output

/-- The session from its start to the end of the checker's output.  After a failure it is torn
down, and the same after it was called off while the checker ran. -/
def start (host : Host) (rounds : Nat) : Act Unit := do
  let phase := (← current).phase
  if phase ≠ .idle then failWith (.notIdle phase)
  enter .starting
  match ← attempt (launch host) with
  | .error (.failure cause) =>
    stop host
    failWith cause
  | .error other => throw other
  | .ok output =>
    enter .running
    match ← attempt (runChecker host rounds output) with
    | .ok () => return
    | .error .outOfRounds => throw .outOfRounds
    | .error other =>
      stop host
      throw other

end TypeVerdict.Session
