import TypeVerdict.Task.Basic

/-!
# Forests of tasks

The entries of one or several test trees under construction, by key.  A group knows the entries
it owns and every entry knows its group and its file; a forest can be put together in any order, so
these references are data and not the nesting of a tree.

## Main definitions

* `Forest`: entries by key
* `Forest.insert`: a new entry
* `Forest.add`: an entry given to a group
* `Forest.lineage`: an entry and the groups around it
* `Forest.failLineage`: a type error recorded on an entry and the groups around it
* `Forest.attach`: a synthetic entry for a diagnostic
-/

namespace TypeVerdict

/-- Entries by key. -/
structure Forest where
  tasks : Array Task := #[]
deriving DecidableEq, Repr

/-- An operation asked a test to own entries. -/
structure NotASuite where
  key : Key
deriving DecidableEq, Repr

namespace Forest

/-- The entry of a key. -/
def get? (f : Forest) (k : Key) : Option Task := f.tasks[k]?

/-- The key of the next new entry. -/
def next (f : Forest) : Key := f.tasks.size

/-- A forest with one entry changed. -/
def modify (f : Forest) (k : Key) (change : Task → Task) : Forest := ⟨f.tasks.modify k change⟩

/-- A new entry, under the key `f.next`. -/
def insert (f : Forest) (t : Task) : Forest := ⟨f.tasks.push t⟩

@[simp] theorem get?_insert (f : Forest) (t : Task) (k : Key) :
    (f.insert t).get? k = if k = f.next then some t else f.get? k :=
  Array.getElem?_push

@[simp] theorem get?_modify (f : Forest) (k : Key) (change : Task → Task) (j : Key) :
    (f.modify k change).get? j = if k = j then (f.get? j).map change else f.get? j := by
  simp [get?, modify, Array.getElem?_modify]

/-- A new file, which belongs to itself. -/
def insertFile (f : Forest) (t : Task) : Forest := f.insert { t with file? := some f.next }

/-- The entries that a group owns. -/
def tasksOf? (f : Forest) (k : Key) : Option (List Key) := (f.get? k).bind (·.shape.tasks?)

/-- One more entry for a group, behind the others. -/
def own (f : Forest) (owner child : Key) : Forest :=
  f.modify owner fun t => { t with shape := t.shape.push child }

/-- An entry given to a group: it belongs to the file that the group belongs to at that moment. -/
def add (f : Forest) (owner child : Key) : Except NotASuite Forest :=
  match f.tasksOf? owner with
  | none => .error ⟨owner⟩
  | some _ =>
    let file? := (f.get? owner).bind (·.file?)
    .ok ((f.modify child fun t => { t with suite? := some owner, file? := file? }).own owner child)

/-- An entry and the groups around it, from the inside out, up to a number of them. -/
def ancestry (f : Forest) : Nat → Key → List Key
  | 0, _ => []
  | n + 1, k => match f.get? k with
    | none => []
    | some t => k :: (match t.suite? with
      | none => []
      | some suite => ancestry f n suite)

/-- An entry and the groups around it, from the inside out.  No chain without a cycle is longer
than the forest is large. -/
def lineage (f : Forest) (k : Key) : List Key := f.ancestry f.next k

/-- A type error recorded on one entry. -/
def fail (f : Forest) (k : Key) : Forest :=
  f.modify k fun t => { t with result? := some (Result.ofMode t.mode) }

/-- A type error recorded on an entry and the groups around it; those that do not run keep their
mode as state. -/
def failLineage (f : Forest) (k : Key) : Forest := (f.lineage k).foldl fail f

/-- The number of owned entries that stand for type errors. -/
def errorCount (f : Forest) (tasks : List Key) : Nat :=
  tasks.countP fun k => (f.get? k).any (·.isTypecheck)

/-- The synthetic entry for a diagnostic: it is named by its number among the owner's type errors
and shares the owner's mode. -/
def errorTask (f : Forest) (owner : Key) (file? : Option Key) (code? : Option Int)
    (error : TypeError) : Except NotASuite Task :=
  match f.get? owner with
  | none => .error ⟨owner⟩
  | some t => match t.shape.tasks? with
    | none => .error ⟨owner⟩
    | some tasks =>
      let ordinal := f.errorCount tasks + 1
      let label := s!"type error #{ordinal}"
      let state := State.ofMode t.mode
      .ok {
        id := s!"{t.id}_typecheck_{ordinal}"
        name := match code? with
          | some code => s!"TS{code}: {label}"
          | none => label
        shape := .typecheck
        mode := t.mode
        suite? := some owner
        file? := file?
        result? := some ⟨state, if state = .fail then some error else none⟩ }

/-- A synthetic entry for a diagnostic, owned by a group; if the group runs, it and the groups
around it fail. -/
def attach (f : Forest) (owner file : Key) (code? : Option Int) (error : TypeError) :
    Except NotASuite Forest := do
  let task ← f.errorTask owner (some file) code? error
  let marked := if task.hasFailed then f.failLineage owner else f
  return (marked.insert task).own owner f.next

end Forest

end TypeVerdict
