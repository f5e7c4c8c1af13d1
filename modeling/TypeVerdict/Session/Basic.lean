import TypeVerdict.Session.Host

/-!
# Sessions

A session runs the checker once, or follows a watching checker, and publishes a snapshot for each
completed pass.  Here is its state, and what it means to act on it.

## Main definitions

* `Session`: the state of a session
* `Session.Milestone`: what a session goes through by itself
* `Session.World`: the state with everything that happened
* `Session.Act`: an action of a session
* `Session.pause`: control is given up

## Design notes

An action changes the state and the log and ends with a result or an interruption; what was changed
before an interruption stays changed.

An action also lists the worlds in which it waits.  Everything between two of them happens at once,
so they are the worlds in which others can look at the session while the action goes on.  Running an
action does not make use of the list.

The log holds what passes between a session and its surroundings.  The phases that a session enters
and the texts of its passes never leave it, so they stand in a course of their own, which nothing
reads back.
-/

namespace TypeVerdict

/-- The listeners of a session, by name. -/
structure Listeners where
  started? : Option String := none
  published? : Option String := none
  rerun? : Option String := none
deriving DecidableEq, Repr

/-- The listener for a notice. -/
def Listeners.for? (l : Listeners) : Notice → Option String
  | .started => l.started?
  | .published _ => l.published?
  | .rerun => l.rerun?

/-- The state of a session. -/
structure Session where
  options : Options
  /-- The root directory as an absolute path. -/
  root : String
  /-- The files under test as absolute paths, each once. -/
  files : List String
  listeners : Listeners := {}
  phase : Phase := .idle
  /-- The last published snapshot, unless a new pass was announced since. -/
  snapshot : Snapshot := .empty
  /-- The definitions of the files under test, once they are collected. -/
  table? : Option DefinitionTable := none
  /-- The configuration that is still to be removed. -/
  config? : Option String := none
  /-- Whether there is a process to be terminated. -/
  holdsProcess : Bool := false
  /-- The output since the last completed pass. -/
  buffer : List Char := []
  /-- Whether an announced pass has been acted on since the last completed pass. -/
  rerunSeen : Bool := false

namespace Session

/-- The session for some options and files. -/
def new (options : Options) (files : List String) (listeners : Listeners := {}) : Session :=
  let root := Path.resolveText "" options.root
  { options, root, listeners, files := Snapshot.requested (files.map (Path.resolveText root)) }

/-- What a session goes through by itself. -/
inductive Milestone where
  /-- The session entered a phase. -/
  | entered (phase : Phase)
  /-- The text of a completed pass was taken up. -/
  | completed (output : List Char)
  /-- A notice was due, whether or not somebody listens for it. -/
  | told (notice : Notice)
deriving DecidableEq, Repr

/-- The state of a session with everything that happened so far. -/
structure World where
  session : Session
  log : Log := []
  /-- The milestones of the session, oldest first. -/
  course : List Milestone := []

/-- Why an action did not end with a result. -/
inductive Interruption where
  | failure (cause : Failure)
  | cancelled
  /-- The loop over the markers used up its rounds. -/
  | outOfRounds
deriving DecidableEq, Repr

/-- An action of a session, as a function of the world that it begins in: what it comes to, and the
worlds in which it waits before that. -/
@[ext]
structure Act (α : Type) where
  run : World → Except Interruption α × World
  /-- The worlds in which the action waits, in order. -/
  waits : World → List World

namespace Act

variable {α : Type}

instance : CoeFun (Act α) fun _ => World → Except Interruption α × World := ⟨run⟩

/-- An action that does not wait. -/
def atOnce (run : World → Except Interruption α × World) : Act α := ⟨run, fun _ => []⟩

/-- An action, and then another one for what it came to. -/
def andThen {β : Type} (a : Act α) (next : Except Interruption α → Act β) : Act β where
  run w := let (r, w) := a.run w; (next r).run w
  waits w := let (r, v) := a.run w; a.waits w ++ (next r).waits v

instance : Monad Act where
  pure x := atOnce fun w => (.ok x, w)
  bind a f := a.andThen fun
    | .ok x => f x
    | .error e => atOnce fun w => (.error e, w)

instance : MonadExceptOf Interruption Act where
  throw e := atOnce fun w => (.error e, w)
  tryCatch a handle := a.andThen fun
    | .ok x => atOnce fun w => (.ok x, w)
    | .error e => handle e

end Act

/-- The session's state. -/
def current : Act Session := .atOnce fun w => (.ok w.session, w)

/-- A change of the session's state. -/
def update (change : Session → Session) : Act Unit :=
  .atOnce fun w => (.ok (), { w with session := change w.session })

/-- The log. -/
def history : Act Log := .atOnce fun w => (.ok w.log, w)

/-- An event for the log. -/
def record (e : Event) : Act Unit := .atOnce fun w => (.ok (), { w with log := w.log ++ [e] })

/-- A milestone for the course. -/
def reach (m : Milestone) : Act Unit :=
  .atOnce fun w => (.ok (), { w with course := w.course ++ [m] })

/-- Control is given up, and then taken back. -/
def pause : Act Unit := ⟨fun w => (.ok (), w), fun w => [w]⟩

/-- The session enters a phase. -/
def enter (phase : Phase) : Act Unit := do
  update fun s => { s with phase }
  reach (.entered phase)

/-- An action's result or interruption, as a value. -/
def attempt {α : Type} (a : Act α) : Act (Except Interruption α) := a.andThen pure

/-- A failure of the surroundings. -/
def failWith {α : Type} (cause : Failure) : Act α := throw (.failure cause)

/-- An action that is followed by another whatever it does; the other's interruption prevails. -/
def thenAlways (a b : Act Unit) : Act Unit := do
  let r ← attempt a
  b
  MonadExcept.ofExcept r

/-- The collected files without their results. -/
def testFiles (s : Session) : List Record :=
  (s.table?.getD []).map fun (_, d) =>
    ⟨d.forest.modify d.file fun t => { t with result? := none }, d.file⟩

end Session

end TypeVerdict
