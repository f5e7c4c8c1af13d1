import TypeVerdict.Session.Host
import TypeVerdict.Utf8
import TypeVerdict.Workspace.SearchPath
import TypeVerdict.Workspace.Script.Run
import TypeVerdict.Workspace.SystemError

/-!
# Starting programs

A checker is started in a directory, with its channels joined, and read as text while it writes.

## Main definitions

* `Machine`: where programs run
* `LaunchError`: why a program cannot be started
* `Machine.launch`: the run of a command
* `Run.texts`: the texts that are read from a run
-/

namespace TypeVerdict

/-- Where programs run. -/
structure Machine where
  tree : FileTree
  /-- The directory that relative paths start from. -/
  directory : Place
  searched : SearchPath := {}
  environment : List (List Char × List Char) := []
  /-- What the programs do that are not scripts. -/
  programs : List (Place × Program) := []

/-- Why a command cannot be started. -/
inductive LaunchError where
  | emptyCommand
  /-- A part of the command holds a null character. -/
  | nullCharacter
  /-- The program is refused because of what a path stands for. -/
  | refused (program : List Char) (cause : SystemError) (path : List Char)
deriving DecidableEq, Repr

namespace LaunchError

/-- What a command that cannot be started means for a session: a checker that is missing or must
not be run is reported as such, anything else as it is. -/
def failure : LaunchError → Failure
  | emptyCommand => .refused "command must not be empty"
  | nullCharacter => .refused "embedded null byte"
  | refused program cause path =>
    if cause = .notFound ∨ cause = .notPermitted then
      .checkerNotFound ("Cannot start '" ++ String.ofList program ++ "': " ++ cause.about path)
    else .system (cause.about path)

end LaunchError

/-- How many octets of a checker's output are read at once. -/
def readSize : Nat := 65536

/-- What can be read from a program's run, if its channels are joined or only its output is kept. -/
def Run.octets (joined : Bool) (r : Run) : List UInt8 :=
  r.written.flatMap fun (channel, content) =>
    if joined ∨ channel = .output then content else []

/-- The texts that are read from a program's run. -/
def Run.texts (joined : Bool) (r : Run) : List (List Char) :=
  Utf8.texts (Utf8.reads (some readSize) (r.octets joined))

namespace Machine

/-- A program that every machine has. -/
def commonPrograms : List (String × Program) :=
  ("sh", Script.shell Utf8.decode) ::
    ["cat", "echo", "false", "printf", "pwd", "sleep", "true"].map fun name =>
      (name, Script.builtin name)

/-- A machine on which the common programs are installed. -/
def withCommonPrograms (m : Machine) : Machine :=
  commonPrograms.foldl (fun m (name, program) =>
    let place := ["bin".toList, name.toList]
    { m with
      tree := m.tree.insert place (.file [] true)
      programs := m.programs ++ [(place, program)] }) m

/-- The environment of a started program: it is told to write without colours, and where programs
are searched for. -/
def launchEnvironment (m : Machine) : List (List Char × List Char) :=
  let own := [("NO_COLOR".toList, ['1']), ("PATH".toList, m.searched.text)]
  own ++ m.environment

/-- The content of the file that a text stands for in a directory. -/
def readIn (m : Machine) (directory : Place) (s : List Char) : Option (List UInt8) :=
  (m.tree.read directory s).toOption

/-- The interpreter that the first line of a script names, and what stands behind its name. -/
def interpreterOf (content : List UInt8) : Option (List Char × List Char) :=
  match Utf8.decode content with
  | '#' :: '!' :: script =>
    let line := (script.takeWhile (· ≠ '\n')).dropWhile (· = ' ')
    let name := line.takeWhile (· ≠ ' ')
    let argument := (line.drop name.length).dropWhile (· = ' ')
    if name = [] then none else some (name, argument)
  | _ => none

/-- The program that a path stands for in a directory, and the arguments put in front of those that
it is given. -/
def programAt (m : Machine) (directory : Place) (path : List Char) :
    Except SystemError (Program × List (List Char)) := do
  let place ← (m.tree.locate directory path).mapError SystemError.ofLookup
  match m.tree.entry? place with
  | some (.file content executable) =>
    if !executable then .error .notPermitted
    else match m.programs.lookup place, interpreterOf content with
      | some program, _ => return (program, [path])
      | none, none => .error .notProgram
      | none, some (name, argument) =>
        let interpreter ← (m.tree.locate directory name).mapError SystemError.ofLookup
        match m.programs.lookup interpreter with
        | some program =>
          return (program, name :: (if argument = [] then [] else [argument]) ++ [path])
        | none => .error .notProgram
  | _ => .error .notPermitted

/-- The first program among some paths.  If there is none, the first refusal counts that says more
than that nothing was found, and else the last one. -/
def firstProgram (m : Machine) (directory : Place) :
    SystemError → List (List Char) → Except SystemError (Program × List (List Char))
  | last, [] => .error last
  | last, path :: more =>
    match m.programAt directory path with
    | .ok found => .ok found
    | .error cause =>
      let plain := fun c => c = SystemError.notFound ∨ c = SystemError.notDirectory
      m.firstProgram directory (if plain last then cause else last) more

/-- The run of a command in a directory. -/
def launch (m : Machine) (command : List (List Char)) (directory : List Char) :
    Except LaunchError Run :=
  match command with
  | [] => .error .emptyCommand
  | name :: arguments =>
    if (directory :: command).any (·.contains '\x00') then .error .nullCharacter
    else match m.tree.locate m.directory directory with
      | .error e => .error (.refused name (.ofLookup e) directory)
      | .ok place =>
        if m.tree.entry? place ≠ some .directory then .error (.refused name .notDirectory directory)
        else
          match m.firstProgram place .notFound (m.searched.candidates name) with
          | .error cause => .error (.refused name cause name)
          | .ok (program, front) => .ok (program {
              arguments := front ++ arguments
              directory := Place.text place
              environment := m.launchEnvironment
              read := m.readIn place })

end Machine

end TypeVerdict
