import TypeVerdict.Snapshot.Basic

/-!
# Reports

The printed form of a snapshot: a line for every entry to be shown, indented by its depth and
marked with its state, each error below the entry that carries it, the errors of other files, and
a summary.  Unless the report is verbose it shows failed entries only, and an entry is reached
only through entries that are shown.

## Main definitions

* `Report.errorLine`: an error with the place that it points to
* `Report.treeLines`: the lines of a tree
* `Report.format`: the printed form of a snapshot
-/

namespace TypeVerdict.Report

/-- The mark of a state. -/
def mark : State → String
  | .fail => "x"
  | .pass => "v"
  | .skip => "-"
  | .todo => "~"

/-- The state that an entry is shown with: without a result it has passed unless it does not
run. -/
def shownState (t : Task) : State :=
  match t.result? with
  | some r => r.state
  | none => match t.mode with
    | .run | .only => .pass
    | .skip => .skip
    | .todo => .todo

/-- A number that may be missing. -/
def numberText : Option Int → String
  | some n => toString n
  | none => "None"

/-- An error with the place that it points to. -/
def errorLine (e : TypeError) : String :=
  match e.location? with
  | none => e.message
  | some frame => match frame.line? with
    | none => s!"{frame.file}: {e.message}"
    | some line => s!"{frame.file}:{line}:{numberText frame.column?}: {e.message}"

/-- The indentation of an entry at a depth. -/
def indent (depth : Nat) : String := String.ofList (List.replicate (2 * depth) ' ')

/-- The lines of an entry itself. -/
def taskLines (depth : Nat) (t : Task) : List String :=
  s!"{indent depth}{mark (shownState t)} {t.name}" ::
    match t.result?.bind (·.error?) with
    | none => []
    | some e => [s!"{indent depth}    {errorLine e}"]

mutual

/-- The lines of a tree that is shown. -/
def treeLines (verbose : Bool) (depth : Nat) : Tree → List String
  | .node _ t children => taskLines depth t ++ childLines verbose (depth + 1) children

/-- The lines of those trees among several that are shown. -/
def childLines (verbose : Bool) (depth : Nat) : List Tree → List String
  | [] => []
  | .node k t ts :: more =>
    (if verbose || t.hasFailed then treeLines verbose depth (.node k t ts) else []) ++
      childLines verbose depth more

end

/-- A line of one repeated character across the page. -/
def rule (c : Char) : String := String.ofList (List.replicate 80 c)

/-- The part of a report about files that were not requested. -/
def sourceLines : List TypeError → List String
  | [] => []
  | errors => ["", rule '-', "SOURCE ERRORS", rule '-'] ++ errors.map errorLine

/-- The last line of a report's text. -/
def summary (s : Snapshot) : String :=
  s!"Files: {s.files.length} ({s.files.countP (·.hasFailed)} failed), " ++
    s!"source errors: {s.sourceErrors.length}"

/-- The lines of a report. -/
def lines (verbose : Bool) (s : Snapshot) : List String :=
  [rule '=', "TYPE CHECK RESULTS", rule '='] ++
    childLines verbose 0 (s.files.filterMap (·.tree?)) ++
    sourceLines s.sourceErrors ++ ["", summary s, rule '=']

/-- The printed form of a snapshot. -/
def format (verbose : Bool) (s : Snapshot) : String := "\n".intercalate (lines verbose s)

end TypeVerdict.Report
