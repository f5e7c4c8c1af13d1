/-!
# Ending a process

To end a process, it is asked to terminate, and killed if it does not heed that in time.  Each time
the process is waited for, so that nothing of it is left.

## Main definitions

* `Shutdown.Situation`: a process that is to be ended
* `Shutdown.calls`: how it is ended
-/

namespace TypeVerdict.Shutdown

/-- What is asked of a process, or for it. -/
inductive Call where
  | terminate
  | wait
  | kill
deriving DecidableEq, Repr

/-- The word for a call. -/
def Call.word : Call → String
  | terminate => "terminate"
  | wait => "wait"
  | kill => "kill"

/-- A process that is to be ended. -/
structure Situation where
  /-- It is known to have ended. -/
  ended : Bool := false
  /-- It has ended without that being known. -/
  gone : Bool := false
  /-- It ends in time once it is asked to. -/
  heeds : Bool := true
deriving DecidableEq, Repr

/-- How a process is ended. -/
def calls (s : Situation) : List Call :=
  if s.ended then []
  else if s.gone then [.terminate]
  else if s.heeds then [.terminate, .wait]
  else [.terminate, .wait, .kill, .wait]

/-- The signal that asks a process to terminate. -/
def signal : Nat := 15

end TypeVerdict.Shutdown
