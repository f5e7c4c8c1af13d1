import TypeVerdict.Session.Basic

/-!
# Tearing a session down

A session is stopped for good, or only its configuration is removed.  Either may be done by others
while the session waits for an answer.

## Main definitions

* `Session.clean`: the configuration is removed
* `Session.stop`: the session is closed
* `Session.await`: the session waits, and others may tear it down meanwhile
-/

namespace TypeVerdict.Session

/-- The temporary configuration is removed, if there is one. -/
def clean (host : Host) : Act Unit := do
  let config? := (← current).config?
  update fun s => { s with config? := none }
  match config? with
  | none | some "" => return
  | some path =>
    record (.removeConfig path)
    pause
    match host.removeConfig (← history) with
    | none => return
    | some cause => failWith cause

/-- The process is told to terminate. -/
def terminate (host : Host) : Act Unit := do
  record .terminate
  pause
  match host.terminate (← history) with
  | none => return
  | some cause => failWith cause

/-- The session is torn down: the process is terminated, the configuration removed. -/
def stop (host : Host) : Act Unit := do
  if (← current).phase = .closed then clean host
  else
    let holdsProcess := (← current).holdsProcess
    enter .closed
    update fun s => { s with holdsProcess := false }
    if holdsProcess then thenAlways (terminate host) (clean host) else clean host

/-- One of the two ways to tear a session down. -/
def tearDown (host : Host) : Teardown → Act Unit
  | .stop => stop host
  | .clean => clean host

/-- What others do to the session while it waits. -/
def interfere (host : Host) : List Interference → Act Unit
  | [] => pause
  | .within what :: more => do
    pause
    tearDown host what
    interfere host more
  | .beside what :: more => do
    pause
    let _ ← attempt (tearDown host what)
    interfere host more

/-- The session waits for an answer. -/
def await {α : Type} (host : Host) (reply : Reply α) : Act α := do
  interfere host reply.meanwhile
  match reply.ending with
  | .returns answer => return answer
  | .fails cause => failWith cause
  | .cancelled => throw .cancelled

end TypeVerdict.Session
