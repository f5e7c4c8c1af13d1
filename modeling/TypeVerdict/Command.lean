import TypeVerdict.Report
import TypeVerdict.Session.Lifecycle
import TypeVerdict.Settings.Load
import TypeVerdict.Workspace.CheckerConfig
import TypeVerdict.Workspace.Collector
import TypeVerdict.Workspace.Executable
import TypeVerdict.Workspace.Launch

/-!
# The command

The command checks the files that it is given.  It is configured by the environment and a file in
its directory, runs one session, prints a report of every published snapshot, and says by its status
whether the last one has failures.

## Main definitions

* `Command.host`: a machine as the surroundings of a session
* `Command.printed`: what a session prints
* `Command.run`: the command from its arguments to its status
-/

namespace TypeVerdict

namespace Command

/-- The file that configures the command. -/
def settingsFile : List Char := ".env".toList

/-- The configuration of the command, if it is valid. -/
def settings? (m : Machine) (environment : List (String × String)) : Option Settings :=
  let file? : Option (Option String) :=
    if m.tree.isFile m.directory settingsFile then
      match m.tree.read m.directory settingsFile with
      | .ok content => (Utf8.decode? content).map fun text => some (String.ofList text)
      | .error _ => none
    else some none
  file?.bind fun file? => (Settings.load [] environment file?).toOption

/-! ### The surroundings of the session -/

/-- The session's configuration in a tree. -/
def configFor (m : Machine) (tag : List Char) (root : String) (tsconfig? : Option String)
    (globs : List String) : Except CheckerConfig.LocateError CheckerConfig.Created :=
  let base := CheckerConfig.basePath root.toList (tsconfig?.map String.toList)
  CheckerConfig.create m.tree m.directory base tag globs

/-- The machine after an event. -/
def afterEvent (tag : List Char) (m : Machine) : Event → Machine
  | .createConfig root tsconfig? globs =>
    match configFor m tag root tsconfig? globs with
    | .ok created => { m with tree := created.addTo m.tree }
    | .error _ => m
  | .removeConfig path => match m.tree.unlink m.directory path.toList with
    | .ok tree => { m with tree }
    | .error _ => m
  | _ => m

/-- The machine after everything that happened. -/
def after (tag : List Char) (m : Machine) (log : Log) : Machine := log.foldl (afterEvent tag) m

/-- The run of the checker, once it was asked for. -/
def checkerRun? (tag : List Char) (m : Machine) : Log → Option (Except LaunchError Run)
  | [] => none
  | .spawn command directory :: _ => some (m.launch (command.map String.toList) directory.toList)
  | e :: more => checkerRun? tag (afterEvent tag m e) more

/-- The process of a program's run, to be read from. -/
def outputOf (r : Run) : Output where
  pieces := (r.texts true).map fun text => Reply.pure (String.ofList text)

/-- The failure of a file under test that cannot be collected. -/
def collectFailure : Collector.CollectError → Failure
  | .nullCharacter => LaunchError.nullCharacter.failure
  | .refused cause path => .system (cause.about path)
  | .emptyPath => .refused ({} : Task.EmptyPath).message

/-- The failure of a checker that is not to be found. -/
def resolveFailure (e : Executable.ResolveError) : Failure :=
  match e with
  | .notInstalled .. => .checkerNotFound e.message
  | .tooLong _ => .system e.message

/-- The failure of a configuration that cannot be made. -/
def configFailure (e : CheckerConfig.LocateError) : Failure :=
  match e with
  | .notFound _ => .checkerConfig e.message
  | .tooLong _ => .system e.message

/-- A machine as the surroundings of a session, whose configuration has a tag of its own.  A
question is answered by what the machine has become until it is asked. -/
def host (m : Machine) (tag : List Char) : Host where
  resolveExecutable log :=
    match log.getLast? with
    | some (.resolveExecutable root checker) =>
      match Executable.resolve m.tree m.directory m.searched root.toList checker.toList with
      | .ok path => .ok (String.ofList path)
      | .error e => .error (resolveFailure e)
    | _ => .error (.checkerNotFound "")
  createConfig log :=
    match log.getLast? with
    | some (.createConfig root tsconfig? globs) =>
      match configFor (after tag m log.dropLast) tag root tsconfig? globs with
      | .ok created => .pure (String.ofList created.place.text)
      | .error e => { ending := .fails (configFailure e) }
    | _ => .pure ""
  removeConfig _ := none
  spawn log :=
    match checkerRun? tag m log with
    | some (.ok run) => .pure (outputOf run)
    | some (.error e) => { ending := .fails e.failure }
    | none => .pure { pieces := [] }
  wait log :=
    match checkerRun? tag m log with
    | some (.ok run) => .pure run.ending.status
    | _ => .pure 0
  terminate _ := none
  collect log path :=
    let m := after tag m log
    let root := match log.getLast? with
      | some (.collect root _) => root
      | _ => ""
    match Collector.collect m.tree m.directory root.toList path.toList with
    | .ok collected? => .pure collected?
    | .error e => { ending := .fails (collectFailure e) }
  notify _ _ _ := .pure ()

/-! ### The command -/

/-- What is printed when something happens. -/
def lineFor (verbose : Bool) : Event → String
  | .notify _ (.published snapshot) => Report.format verbose snapshot ++ "\n"
  | .notify _ .rerun => "Change detected, type checking again...\n"
  | _ => ""

/-- What a session prints. -/
def printed (verbose : Bool) (log : Log) : String := String.join (log.map (lineFor verbose))

/-- What the command leaves behind. -/
structure Outcome where
  status : Nat
  printed : String := ""
  machine : Machine
  log : Log := []

/-- The session is run, and its configuration removed in any case. -/
def session (host : Host) (rounds : Nat) : Session.Act Unit :=
  Session.thenAlways (Session.start host rounds) (Session.clean host)

/-- The one who listens to the session of the command. -/
def reporter : Listeners where
  published? := some "report"
  rerun? := some "report"

/-- The command on a machine, with the variables of its environment, a tag for its configuration, a
bound for the rounds of its session, and its arguments. -/
def run (m : Machine) (environment : List (String × String)) (tag : List Char) (rounds : Nat)
    (arguments : List String) : Outcome :=
  match settings? m environment with
  | none => { status := 1, machine := m }
  | some settings =>
    if arguments = [] then { status := 2, machine := m }
    else
      let options := settings.options
      let directory := String.ofList (Place.text m.directory)
      let options := { options with root := Path.resolveText directory options.root }
      let (ended, world) := session (host m tag) rounds
        { session := Session.new options arguments reporter }
      let failed := match ended with
        | .ok () => world.session.snapshot.hasFailures
        | .error _ => true
      { status := failed.toNat
        printed := printed (settings.logLevel = .debug) world.log
        machine := after tag m world.log
        log := world.log }

end Command

end TypeVerdict
