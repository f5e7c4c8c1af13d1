import TypeVerdict.Workspace.Script.Commands
import TypeVerdict.Workspace.Script.Builtins

/-!
# Running scripts

A script's commands are run one after the other, each under the condition that the status of the one
before it is as asked, until one of them ends the script.

## Main definitions

* `Script.simple`: what a simple command does
* `Script.run`: the run of a script
* `Script.shell`: the shell as a program
-/

namespace TypeVerdict.Script

/-- The signals by name. -/
def signals : List (String × Nat) :=
  [("HUP", 1), ("INT", 2), ("QUIT", 3), ("ABRT", 6), ("KILL", 9), ("SEGV", 11), ("TERM", 15)]

/-- The signal that a text names. -/
def signal? (s : List Char) : Option Nat := number? s <|> signals.lookup (String.ofList s)

/-- How a script that sends itself a signal ends. -/
def killEnd : List (List Char) → Option ProgramEnd
  | [target] => if target = self then some (.killed 15) else none
  | [['-', 's'], name, target] =>
    if target = self then (signal? name).map .killed else none
  | ['-' :: name, target] => if target = self then (signal? name).map .killed else none
  | _ => none

/-- A complaint of the shell about a command. -/
def complaint (i : Invocation) (line : Nat) (text : List Char) : Channel × List UInt8 :=
  (.errors, octetsOf (i.arguments.headD [] ++ s!": {line}: ".toList ++ text ++ ['\n']))

/-- Where the built-in commands also stand as programs. -/
def builtinDirectories : List (List Char) := ["/bin/".toList, "/usr/bin/".toList]

/-- The name of a built-in command that is given by its path. -/
def builtinName? (path : List Char) : Option (List Char) :=
  builtinDirectories.findSome? (Text.stripPrefix? · path)

/-- What a simple command does, behind one that ended with a status. -/
def simple (i : Invocation) (line last : Nat) : List (List Char) → Effect
  | [] => {}
  | name :: arguments =>
    match String.ofList name, arguments with
    | "exit", [] => { status := last, ending? := some (.exits last) }
    | "exit", status :: _ => match number? status with
      | some n => { status := n, ending? := some (.exits n) }
      | none => {
          written := [complaint i line ("exit: Illegal number: ".toList ++ status)]
          status := 2
          ending? := some (.exits 2) }
    | "exec", _ =>
      let effect := simple i line last arguments
      if arguments.isEmpty then {}
      else { effect with ending? := effect.ending? <|> some (.exits effect.status) }
    | "kill", _ => match killEnd arguments with
      | some ending => { ending? := some ending }
      | none => { status := 1 }
    | ":", _ => {}
    | _, _ =>
      let builtin := if name.contains '/' then builtinName? name
        else if name = "cat".toList ∨ name = "sleep".toList then none else some name
      match builtin.bind (builtinEffect i · arguments) with
      | some effect => effect
      | none => {
          written := [complaint i line (name ++ ": not found".toList)]
          status := 127 }

/-- Where a channel leads behind some diversions. -/
def diverted (diversions : List (Channel × Option Channel)) (channel : Channel) : Option Channel :=
  (diversions.foldl (fun lead (source, target?) =>
    let target? := target?.bind lead
    fun c => if c = source then target? else lead c) some) channel

/-- What a command writes once its channels are diverted. -/
def Command.written (c : Command) (effect : Effect) : List (Channel × List UInt8) :=
  effect.written.filterMap fun (channel, content) =>
    (diverted c.diversions channel).map (·, content)

/-- Whether a condition holds behind a command that ended with a status. -/
def Condition.holds (status : Nat) : Condition → Bool
  | always => true
  | onSuccess => status = 0
  | onFailure => status ≠ 0

/-- A scope after the assignments of a command. -/
def Scope.assignAll (scope : Scope) (assignments : List (List Char × Word)) : Scope :=
  assignments.foldl (fun s (name, w) => s.assign name (w.value s)) scope

/-- The run of some commands in a scope.  The assignments in front of a command stay if there is
nothing behind them. -/
def runCommands (scope : Scope) : List Command → Run
  | [] => { ending := .exits scope.last }
  | c :: more =>
    if c.condition.holds scope.last then
      let (assignments, words) := Command.assignments c.words
      let fields := words.flatMap (·.fields scope)
      let effect := simple scope.invocation c.line scope.last fields
      let written := c.written effect
      match effect.ending? with
      | some ending => { written, ending }
      | none =>
        let scope := if fields.isEmpty then scope.assignAll assignments else scope
        let rest := runCommands { scope with last := effect.status } more
        { rest with written := written ++ rest.written }
    else runCommands scope more

/-- The run of a script. -/
def run (i : Invocation) (script : List Char) : Run :=
  runCommands (.ofInvocation i) (commands script)

/-- The shell: it runs the script given as an argument or the one in a file. -/
def shell (decode : List UInt8 → List Char) : Program := fun i =>
  match i.arguments with
  | name :: ['-', 'c'] :: script :: [] => run { i with arguments := [name] } script
  | _ :: ['-', 'c'] :: script :: arguments => run { i with arguments } script
  | name :: file :: arguments => match i.read file with
    | some content => run { i with arguments := file :: arguments } (decode content)
    | none => {
        written := [(.errors, octetsOf (name ++ ": 0: cannot open ".toList ++ file ++
          ": No such file\n".toList))]
        ending := .exits 2 }
  | _ => { ending := .exits 0 }

end TypeVerdict.Script
