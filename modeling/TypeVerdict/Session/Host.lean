import TypeVerdict.Session.Options
import TypeVerdict.Snapshot.Assembly

/-!
# The surroundings of a session

A session deals with a checker process, the file that configures it, a collector of definitions and
its listeners.  What they do is given as data: each answers depending on everything that was
asked before, and while the session waits for an answer, others may tear it down.

## Main definitions

* `Event`: what a session asked its surroundings, or told them
* `Failure`: why a session cannot go on
* `Reply`: the answer to a call that the session waits for
* `Host`: the surroundings of a session

## Design notes

A teardown by others is one piece: it ends before the wait of the session does, and nobody else acts
on the session while the teardown waits in its turn.  Likewise the definitions of several files are
asked for one after the other, although a collector may work on all of them at the same time.
-/

namespace TypeVerdict

/-- The life of a session. -/
inductive Phase where
  | idle
  | starting
  | running
  | done
  | closed
deriving DecidableEq, Repr

/-- The word for a phase. -/
def Phase.word : Phase → String
  | idle => "idle"
  | starting => "starting"
  | running => "running"
  | done => "done"
  | closed => "closed"

/-- What a session tells its listeners. -/
inductive Notice where
  /-- The checker was started. -/
  | started
  /-- A pass was published. -/
  | published (snapshot : Snapshot)
  /-- A new pass was announced. -/
  | rerun
deriving DecidableEq, Repr

/-- What a session asked its surroundings, or told them. -/
inductive Event where
  | resolveExecutable (root checker : String)
  | createConfig (root : String) (tsconfig? : Option String) (globs : List String)
  | removeConfig (path : String)
  | spawn (command : List String) (directory : String)
  /-- The checker's output was read up to and including this piece. -/
  | read (index : Nat)
  | wait
  | terminate
  | collect (root path : String)
  | notify (listener : String) (notice : Notice)
deriving DecidableEq, Repr

/-- Everything that happened so far, oldest first. -/
abbrev Log := List Event

/-- Why a session cannot go on. -/
inductive Failure where
  /-- The checker is not installed or cannot be started. -/
  | checkerNotFound (message : String)
  /-- The checker's configuration cannot be found or written. -/
  | checkerConfig (message : String)
  /-- The checker ended in an unusual way and reported nothing. -/
  | checkerExit (checker : String) (status : Int) (output : List Char)
  /-- A session can be started only once. -/
  | notIdle (phase : Phase)
  /-- The operating system refused something. -/
  | system (message : String)
  /-- A collector or listener refused something. -/
  | refused (message : String)
  /-- The collected definitions cannot take the diagnostics. -/
  | assembly (cause : AssemblyError)
deriving DecidableEq, Repr

/-- How much of an output a failure shows. -/
def Failure.shownOutput : Nat := 500

/-- How a failure is reported. -/
def Failure.message : Failure → String
  | checkerNotFound m | checkerConfig m | system m | refused m => m
  | checkerExit checker status output =>
    s!"{checker} exited with status {status}: " ++
      String.ofList ((Text.strip output).take shownOutput)
  | notIdle phase => s!"Cannot start a session in {phase.word} state"
  | assembly (.notASuite _) => "the innermost definition cannot own entries"
  | assembly (.sourceMap _) => "the source map cannot be judged"
  | assembly .emptyPath => ({} : Task.EmptyPath).message

/-- How a session is torn down from outside: stopped for good, or only its configuration removed. -/
inductive Teardown where
  | stop
  | clean
deriving DecidableEq, Repr

/-- What others do to a session while it waits. -/
inductive Interference where
  /-- The one that the session waits for does it, and fails if that fails. -/
  | within (what : Teardown)
  /-- Somebody else does it. -/
  | beside (what : Teardown)
deriving DecidableEq, Repr

/-- How a wait of the session ends. -/
inductive Ending (α : Type) where
  | returns (answer : α)
  | fails (cause : Failure)
  /-- Whoever runs the session calls it off. -/
  | cancelled

/-- The answer to a call that the session waits for, and what happens meanwhile. -/
structure Reply (α : Type) where
  meanwhile : List Interference := []
  ending : Ending α

/-- An answer at once. -/
def Reply.pure {α : Type} (answer : α) : Reply α := ⟨[], .returns answer⟩

/-- A started checker, by what reading from it gives. -/
structure Output where
  /-- The pieces of the output in order. -/
  pieces : List (Reply String)
  /-- What waiting for more gives behind the last piece. -/
  afterwards : Reply Unit := Reply.pure ()
  /-- Whether the process stops writing once it was told to terminate. -/
  heedsTermination : Bool := true

/-- The surroundings of a session.  Answers may depend on everything that was asked before, the
question itself included. -/
structure Host where
  resolveExecutable : Log → Except Failure String
  createConfig : Log → Reply String
  removeConfig : Log → Option Failure
  spawn : Log → Reply Output
  wait : Log → Reply Int
  terminate : Log → Option Failure
  collect : Log → String → Reply (Option Collected)
  notify : Log → String → Notice → Reply Unit

end TypeVerdict
