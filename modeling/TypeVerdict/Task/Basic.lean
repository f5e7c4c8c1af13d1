import TypeVerdict.Diagnostic.Basic
import TypeVerdict.Text.Quoted

/-!
# Tasks

The entries of a test file's tree: tests, groups of them, the file itself, and the synthetic
entries that stand for type errors.  Entries refer to each other by key.

## Main definitions

* `Mode`: how an entry is scheduled
* `State`: what became of it
* `State.ofMode`: the state of an entry that carries a type error
* `Task`: an entry
-/

namespace TypeVerdict

/-- How a test or a group of tests is scheduled. -/
inductive Mode where
  | run
  | only
  | skip
  | todo
deriving DecidableEq, Repr

namespace Mode

/-- The word for a mode. -/
def word : Mode → String
  | run => "run"
  | only => "only"
  | skip => "skip"
  | todo => "todo"

/-- Whether entries in this mode are executed. -/
def isRunning : Mode → Bool
  | run | only => true
  | skip | todo => false

end Mode

/-- What became of an entry. -/
inductive State where
  | pass
  | fail
  | skip
  | todo
deriving DecidableEq, Repr

namespace State

/-- The word for a state. -/
def word : State → String
  | pass => "pass"
  | fail => "fail"
  | skip => "skip"
  | todo => "todo"

/-- The state of an entry that carries a type error: one that runs fails, and any other keeps its
mode. -/
def ofMode : Mode → State
  | .run | .only => fail
  | .skip => skip
  | .todo => todo

theorem ofMode_eq_fail_iff {m : Mode} : ofMode m = fail ↔ m.isRunning = true := by
  cases m <;> decide

end State

/-- A word that names no mode or no state. -/
structure UnknownWord where
  word : String
  kind : String
deriving DecidableEq, Repr

/-- How an unknown word is reported. -/
def UnknownWord.message (e : UnknownWord) : String :=
  s!"{String.ofList (Text.quoted e.word.toList)} is not a valid {e.kind}"

/-- The mode that a word names. -/
def Mode.ofWord (s : String) : Except UnknownWord Mode :=
  match [run, only, skip, todo].find? (·.word = s) with
  | some m => .ok m
  | none => .error ⟨s, "TaskMode"⟩

/-- The state that a word names. -/
def State.ofWord (s : String) : Except UnknownWord State :=
  match [pass, fail, skip, todo].find? (·.word = s) with
  | some st => .ok st
  | none => .error ⟨s, "TaskState"⟩

/-- What is recorded on an entry: its state and the error that explains it. -/
structure Result where
  state : State
  error? : Option TypeError := none
deriving DecidableEq, Repr

/-- The result of an entry that carries a type error below it. -/
def Result.ofMode (m : Mode) : Result := ⟨State.ofMode m, none⟩

/-- The key of an entry in its forest. -/
abbrev Key := Nat

/-- What an entry is.  Groups and files own entries, in order. -/
inductive Shape where
  | test
  | typecheck
  | suite (tasks : List Key)
  | file (path : String) (tasks : List Key)
deriving DecidableEq, Repr

namespace Shape

/-- The owned entries of a group or file, `none` for an entry that cannot own any. -/
def tasks? : Shape → Option (List Key)
  | test | typecheck => none
  | suite tasks | file _ tasks => some tasks

/-- One more owned entry, behind the others. -/
def push (k : Key) : Shape → Shape
  | suite tasks => suite (tasks ++ [k])
  | file path tasks => file path (tasks ++ [k])
  | leaf => leaf

end Shape

/-- An entry of a test tree.  `suite?` is the group that owns it and `file?` the file it belongs
to. -/
structure Task where
  id : String
  name : String
  shape : Shape
  mode : Mode := .run
  suite? : Option Key := none
  file? : Option Key := none
  result? : Option Result := none
deriving DecidableEq, Repr

namespace Task

/-- A file without a path. -/
structure EmptyPath where
deriving DecidableEq, Repr

/-- How a file without a path is reported. -/
def EmptyPath.message (_ : EmptyPath) : String := "filepath must be a non-empty string"

/-- A file that owns nothing yet; it has to have a path. -/
def ofFile (id name path : String) (mode : Mode := .run) (result? : Option Result := none) :
    Except EmptyPath Task :=
  if path.isEmpty then .error {}
  else .ok { id, name, shape := .file path [], mode, result? }

/-- Whether an entry failed. -/
def hasFailed (t : Task) : Bool := t.result?.any (·.state = .fail)

/-- Whether an entry stands for a type error. -/
def isTypecheck (t : Task) : Bool := t.shape = .typecheck

/-- The path of an entry that is a file. -/
def path? (t : Task) : Option String :=
  match t.shape with
  | .file path _ => some path
  | _ => none

end Task

end TypeVerdict
