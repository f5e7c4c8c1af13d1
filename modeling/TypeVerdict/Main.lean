import TypeVerdict.Command

/-!
# The program

The command, with the checker's output on standard input: nothing is started and nothing is written.
The files that the command looks at are loaded into a tree, in which the checker is a program that
writes what was read.

## Main definitions

* `Program.machine`: the machine that the command runs on
* `Program.run`: the command from its arguments to its status
-/

namespace TypeVerdict.Program

/-- The variables that configure the command. -/
def variableNames : List String := Settings.fieldNames.map fun field =>
  (Settings.variablePrefix ++ field).map Char.toUpper

/-- The texts of the paths that the command looks at once it is configured. -/
def paths (directory : String) (settings : Settings) (arguments : List String) : List String :=
  let root := Path.resolveText directory settings.root
  let config := CheckerConfig.basePath root.toList (settings.tsconfig?.map String.toList)
  String.ofList config :: arguments.map (Path.resolveText root)

/-- The place that an absolute text stands for where no links are followed. -/
def placeOf (directory path : String) : Place := (Path.resolve directory.toList path.toList).names

/-- A tree that holds some files. -/
def treeOf (directory : String) (files : List (String × ByteArray)) : FileTree :=
  files.foldl (fun t (path, content) =>
    t.insert (placeOf directory path) (.file content.toList false))
    (({} : FileTree).insert (placeOf directory ".") .directory)

/-- A machine in a directory that holds some files. -/
def machine (directory : String) (files : List (String × ByteArray)) : Machine where
  tree := treeOf directory files
  directory := placeOf directory "."

/-- A machine on which a project has a checker that writes some output. -/
def withChecker (m : Machine) (directory : String) (settings : Settings) (output : ByteArray) :
    Machine :=
  let root := Path.resolveText directory settings.root
  let path := Executable.inProject root.toList settings.checker.word.toList
  let place := placeOf directory (String.ofList path)
  { m with
    tree := m.tree.insert place (.file [] true)
    programs := [(place, fun _ => { written := [(.output, output.toList)], ending := .exits 0 })] }

/-- The content of a file, if it can be read. -/
def readFile? (path : String) : IO (Option (String × ByteArray)) := do
  try
    return some (path, ← IO.FS.readBinFile path)
  catch _ => return none

/-- The contents of those of some files that can be read. -/
def readFiles (paths : List String) : IO (List (String × ByteArray)) :=
  paths.filterMapM readFile?

/-- The value of a variable, if it is set. -/
def readVariable? (name : String) : IO (Option (String × String)) := do
  return (← IO.getEnv name).map (name, ·)

/-- The command from its arguments to its status. -/
def run (arguments : List String) : IO UInt32 := do
  let directory := (← IO.currentDir).toString
  let known ← variableNames.filterMapM readVariable?
  let configured ← readFiles [String.ofList Command.settingsFile]
  let m := machine directory configured
  let files ← match Command.settings? m known with
    | none => pure []
    | some settings => readFiles (paths directory settings arguments)
  let output ← (← IO.getStdin).readBinToEnd
  let m := machine directory (configured ++ files)
  let m := match Command.settings? m known with
    | none => m
    | some settings => withChecker m directory settings output
  let outcome := Command.run m known "session".toList (2 * output.size + 2) arguments
  IO.print outcome.printed
  return outcome.status.toUInt32

end TypeVerdict.Program

/-- The command from its arguments to its status. -/
def main (arguments : List String) : IO UInt32 := TypeVerdict.Program.run arguments
