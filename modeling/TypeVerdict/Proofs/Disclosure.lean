import TypeVerdict.Proofs.Verdict
import TypeVerdict.Report

/-!
# What a report discloses

A report that is not verbose is printed from the top: it lists the files that have failed, and below
an entry that is listed those of its own that have failed.  Errors are recorded from the bottom: the
entry of a type error fails with its owner, and the groups around it get the results of their own
modes.  So an entry is listed if a chain of failed entries leads to it from the file
(`Forest.LeadsTo`), and in a tree whose references agree there is such a chain just if every group
around the entry has failed too.

A group around a failed entry has failed just if it runs.  One that is skipped, or only planned,
keeps its mode as state.  It is not listed then, nor is anything inside it, however many failed
entries there are.  This is the exact condition under which a failed entry has a line of its own
(`Forest.RunsAround`).

## Main definitions

* `Record.shown`: the entries of a file that a report lists
* `Forest.LeadsTo`: a chain of failed entries
* `Forest.Wired`: a tree whose references agree
* `Forest.RunsAround`: an entry and all groups around it run
* `Record.ShowsError`: an entry has a line of its own, and its error another

## Main statements

* `Report.lines_eq`: the lines of a report are those of the entries it lists
* `Record.mem_shown_iff`: which entries a report lists
* `Forest.Wired.leadsTo_iff`: chains of failed entries in a tree
* `Snapshot.disclosed_of_assemble`: which type errors are disclosed
-/

namespace TypeVerdict

/-! ### The entries that are listed -/

namespace Report

mutual

/-- The entries of a tree that are listed if the topmost one is, with their depths. -/
def shownOf (verbose : Bool) (depth : Nat) : Tree → List (Nat × Key × Task)
  | .node k t children => (depth, k, t) :: shownAmong verbose (depth + 1) children

/-- The entries of several trees that are listed, with their depths. -/
def shownAmong (verbose : Bool) (depth : Nat) : List Tree → List (Nat × Key × Task)
  | [] => []
  | .node k t ts :: more =>
    (if verbose || t.hasFailed then shownOf verbose depth (.node k t ts) else []) ++
      shownAmong verbose depth more

end

mutual

theorem treeLines_eq (verbose : Bool) (depth : Nat) (tree : Tree) :
    treeLines verbose depth tree =
      (shownOf verbose depth tree).flatMap fun (depth, _, t) => taskLines depth t := by
  cases tree with
  | node k t children => rw [treeLines, shownOf, List.flatMap_cons, childLines_eq]

theorem childLines_eq (verbose : Bool) (depth : Nat) (trees : List Tree) :
    childLines verbose depth trees =
      (shownAmong verbose depth trees).flatMap fun (depth, _, t) => taskLines depth t := by
  match trees with
  | [] => rfl
  | .node k t ts :: more =>
      rw [childLines, shownAmong, List.flatMap_append, ← childLines_eq verbose depth more]
      congr 1
      split
      · exact treeLines_eq verbose depth (.node k t ts)
      · rfl

end

theorem shownAmong_append (verbose : Bool) (depth : Nat) (trees more : List Tree) :
    shownAmong verbose depth (trees ++ more) =
      shownAmong verbose depth trees ++ shownAmong verbose depth more := by
  induction trees with
  | nil => rfl
  | cons tree trees ih =>
      cases tree with
      | node k t ts => rw [List.cons_append, shownAmong, shownAmong, ih, List.append_assoc]

theorem mem_shownAmong_iff {verbose : Bool} {depth : Nat} {trees : List Tree}
    {entry : Nat × Key × Task} :
    entry ∈ shownAmong verbose depth trees ↔
      ∃ tree ∈ trees, (verbose || tree.task.hasFailed) = true ∧
        entry ∈ shownOf verbose depth tree := by
  induction trees with
  | nil => simp [shownAmong]
  | cons tree trees ih =>
      cases tree with
      | node k t ts =>
          rw [shownAmong, List.mem_append, ih, List.exists_mem_cons_iff]
          refine or_congr_left ?_
          by_cases listed : (verbose || t.hasFailed) = true
          · rw [if_pos listed]
            exact (and_iff_right listed).symm
          · rw [if_neg listed]
            exact ⟨fun mem => absurd mem List.not_mem_nil, fun both => absurd both.1 listed⟩

end Report

/-- The entries of a file that a report lists unless it is verbose, with their depths. -/
def Record.shown (r : Record) : List (Nat × Key × Task) :=
  Report.shownAmong false 0 r.tree?.toList

/-- **The lines of a report** are those of the entries that it lists, between its heading and what
it says about other files. -/
theorem Report.lines_eq (s : Snapshot) :
    lines false s = [rule '=', "TYPE CHECK RESULTS", rule '='] ++
      (s.files.flatMap fun r => r.shown.flatMap fun (depth, _, t) => taskLines depth t) ++
      sourceLines s.sourceErrors ++ ["", summary s, rule '='] := by
  have files : childLines false 0 (s.files.filterMap (·.tree?)) =
      s.files.flatMap fun r => r.shown.flatMap fun (depth, _, t) => taskLines depth t := by
    rw [childLines_eq]
    induction s.files with
    | nil => rfl
    | cons r records ih =>
        rw [List.flatMap_cons, ← ih, ← List.flatMap_append, Record.shown, ← shownAmong_append]
        congr 2
        cases tree : r.tree? <;> simp [tree]
  rw [lines, files]

/-! ### Chains of failed entries -/

namespace Forest

variable {f : Forest} {k x : Key} {n : Nat}

/-- An entry that has failed. -/
def Failed (f : Forest) (k : Key) : Prop := ∃ t, f.get? k = some t ∧ t.hasFailed = true

/-- **A chain of failed entries** leads from an entry to another one in its tree, by a number of
steps. -/
def LeadsTo (f : Forest) : Nat → Key → Key → Prop
  | 0, k, x => k = x
  | n + 1, k, x => ∃ c ∈ f.owned k, f.Failed c ∧ f.LeadsTo n c x

theorem failed_iff {t : Task} (found : f.get? k = some t) :
    f.Failed k ↔ t.hasFailed = true := by
  simp [Failed, found]

theorem leadsTo_succ_iff : f.LeadsTo (n + 1) k x ↔
    ∃ b, f.LeadsTo n k b ∧ x ∈ f.owned b ∧ f.Failed x := by
  induction n generalizing k with
  | zero =>
      constructor
      · rintro ⟨c, owns, failed, rfl⟩
        exact ⟨k, rfl, owns, failed⟩
      · rintro ⟨b, rfl, owns, failed⟩
        exact ⟨x, owns, failed, rfl⟩
  | succ n ih =>
      constructor
      · rintro ⟨c, owns, failed, chain⟩
        obtain ⟨b, chain, last⟩ := ih.mp chain
        exact ⟨b, ⟨c, owns, failed, chain⟩, last⟩
      · rintro ⟨b, ⟨c, owns, failed, chain⟩, last⟩
        exact ⟨c, owns, failed, ih.mpr ⟨b, chain, last⟩⟩

theorem LeadsTo.below (chain : f.LeadsTo n k x) : f.Below k x := by
  induction n generalizing x with
  | zero =>
      cases chain
      exact .refl
  | succ n ih =>
      obtain ⟨b, chain, owns, -⟩ := leadsTo_succ_iff.mp chain
      exact (ih chain).tail owns

theorem get?_of_treeWithin? {tree : Tree} (h : f.treeWithin? n k = some tree) :
    f.get? k = some tree.task := by
  cases n with
  | zero => cases h
  | succ n =>
      obtain ⟨t, found, rfl⟩ := Option.map_eq_some_iff.mp h
      exact found

/-- **The entries of a tree that are listed** are those to which chains of failed entries lead, as
far as the tree goes. -/
theorem mem_shownOf_iff {tree : Tree} (h : f.treeWithin? n k = some tree) {depth m : Nat}
    {t : Task} : (m, x, t) ∈ Report.shownOf false depth tree ↔
      ∃ i < n, m = depth + i ∧ f.LeadsTo i k x ∧ f.get? x = some t := by
  induction n generalizing k depth tree with
  | zero => cases h
  | succ n ih =>
      obtain ⟨top, found, rfl⟩ := Option.map_eq_some_iff.mp h
      rw [Report.shownOf, List.mem_cons, Report.mem_shownAmong_iff]
      have owned : f.owned k = top.shape.tasks?.getD [] := owned_of_get? found
      constructor
      · rintro (here | ⟨child, mem, failed, inside⟩)
        · cases here
          exact ⟨0, Nat.succ_pos n, rfl, rfl, found⟩
        · obtain ⟨c, owns, below⟩ := List.mem_filterMap.mp mem
          obtain ⟨i, lt, rfl, chain, there⟩ := (ih below).mp inside
          refine ⟨i + 1, Nat.succ_lt_succ lt, by omega, ⟨c, owned ▸ owns, ?_, chain⟩, there⟩
          exact ⟨child.task, get?_of_treeWithin? below, failed⟩
      · rintro ⟨i, lt, rfl, chain, there⟩
        cases i with
        | zero =>
            obtain rfl : k = x := chain
            obtain rfl := Option.some.inj (found.symm.trans there)
            exact Or.inl rfl
        | succ i =>
            obtain ⟨c, owns, ⟨t', found', failed⟩, chain⟩ := chain
            obtain ⟨levels, rfl⟩ : ∃ levels, n = levels + 1 := ⟨n - 1, by omega⟩
            have below : f.treeWithin? (levels + 1) c = some (.node c t'
                ((t'.shape.tasks?.getD []).filterMap (f.treeWithin? levels))) := by
              rw [treeWithin?, found']
              rfl
            refine Or.inr ⟨_, List.mem_filterMap.mpr ⟨c, owned ▸ owns, below⟩, failed, ?_⟩
            exact (ih below).mpr ⟨i, by omega, by omega, chain, there⟩

end Forest

/-- **Which entries of a file a report lists.** -/
theorem Record.mem_shown_iff {r : Record} {m : Nat} {x : Key} {t : Task} :
    (m, x, t) ∈ r.shown ↔ r.forest.Failed r.file ∧ m < r.forest.next ∧
      r.forest.LeadsTo m r.file x ∧ r.forest.get? x = some t := by
  unfold shown
  rw [Report.mem_shownAmong_iff]
  constructor
  · rintro ⟨tree, mem, failed, inside⟩
    have whole := Option.mem_toList.mp mem
    obtain ⟨i, lt, rfl, chain, there⟩ := (Forest.mem_shownOf_iff whole).mp inside
    rw [Nat.zero_add]
    exact ⟨⟨tree.task, Forest.get?_of_treeWithin? whole, failed⟩, lt, chain, there⟩
  · rintro ⟨⟨top, found, failed⟩, lt, chain, there⟩
    obtain ⟨levels, count⟩ := Nat.exists_eq_add_one.mpr (Nat.zero_lt_of_lt lt)
    have whole : r.tree? = some (.node r.file top
        ((top.shape.tasks?.getD []).filterMap (r.forest.treeWithin? levels))) := by
      rw [tree?, Forest.tree?, count, Forest.treeWithin?, found]
      rfl
    refine ⟨_, Option.mem_toList.mpr whole, failed, ?_⟩
    exact (Forest.mem_shownOf_iff whole).mpr ⟨m, lt, (Nat.zero_add m).symm, chain, there⟩

/-! ### Trees whose references agree -/

/-- **A tree whose references agree**: the file names no owner, and each other entry of its tree
names the one that owns it. -/
structure Forest.Wired (f : Forest) (file : Key) : Prop where
  top : f.suiteOf? file = none
  owners : ∀ k, f.Below file k → ∀ c ∈ f.owned k, f.suiteOf? c = some k

namespace Forest.Wired

variable {f : Forest} {file k x : Key} {n : Nat}

/-- There is nothing around the file. -/
theorem eq_of_around (wired : f.Wired file) (around : f.Around file k) : k = file := by
  rcases Relation.ReflTransGen.cases_head around with rfl | ⟨_, step, -⟩
  · rfl
  · rw [wired.top] at step
    cases step

theorem around_file (wired : f.Wired file) (below : f.Below file x) : f.Around x file := by
  induction below with
  | refl => exact .refl
  | tail below owns ih => exact .head (wired.owners _ below _ owns) ih

/-- The steps of a chain are those that lead back to the file. -/
theorem ancestor?_eq (wired : f.Wired file) (chain : f.LeadsTo n file x) :
    f.ancestor? n x = some file := by
  induction n generalizing x with
  | zero =>
      cases chain
      rfl
  | succ n ih =>
      obtain ⟨b, chain, owns, -⟩ := leadsTo_succ_iff.mp chain
      rw [ancestor?, wired.owners b chain.below x owns, Option.bind_some, ih chain]

/-- No chain is longer than the forest is large. -/
theorem lt_next (wired : f.Wired file) (inside : file < f.next) (chain : f.LeadsTo n file x) :
    n < f.next := by
  obtain ⟨m, short, leads⟩ := exists_ancestor?_lt (wired.around_file chain.below) inside
  have back := wired.ancestor?_eq chain
  -- both lead to the file, and nothing leads on from there
  have ends {i j : Nat} (first : f.ancestor? i x = some file)
      (second : f.ancestor? j x = some file) : j ≤ i := by
    by_contra beyond
    obtain ⟨more, rfl⟩ := Nat.exists_eq_add_of_lt (Nat.lt_of_not_le beyond)
    rw [Nat.add_assoc, ancestor?_add, first, Option.bind_some, ancestor?, wired.top] at second
    cases second
  exact Nat.lt_of_le_of_lt (ends leads back) short

/-- **Chains of failed entries in a tree**: there is one from the file, which has failed too, just
if every entry around has failed. -/
theorem leadsTo_iff (wired : f.Wired file) (below : f.Below file x) :
    (f.Failed file ∧ ∃ n, f.LeadsTo n file x) ↔ ∀ k, f.Around x k → f.Failed k := by
  constructor
  · rintro ⟨failed, n, chain⟩
    induction n generalizing x with
    | zero =>
        cases chain
        intro k around
        rwa [wired.eq_of_around around]
    | succ n ih =>
        obtain ⟨b, chain, owns, last⟩ := leadsTo_succ_iff.mp chain
        intro k around
        rcases Relation.ReflTransGen.cases_head around with rfl | ⟨s, step, further⟩
        · exact last
        · rw [wired.owners b chain.below x owns] at step
          cases step
          exact ih chain.below chain k further
  · intro failed
    refine ⟨failed file (wired.around_file below), ?_⟩
    induction below with
    | refl => exact ⟨0, rfl⟩
    | @tail b c below owns ih =>
        have step := wired.owners b below c owns
        obtain ⟨n, chain⟩ := ih fun k around => failed k (.head step around)
        exact ⟨n + 1, leadsTo_succ_iff.mpr ⟨b, chain, owns, failed c .refl⟩⟩

end Forest.Wired

/-- **An entry of a tree is listed** just if it has failed and every group around it has. -/
theorem Record.exists_mem_shown_iff {r : Record} {x : Key} {t : Task}
    (wired : r.forest.Wired r.file) (below : r.forest.Below r.file x)
    (there : r.forest.get? x = some t) :
    (∃ depth, (depth, x, t) ∈ r.shown) ↔ ∀ k, r.forest.Around x k → r.forest.Failed k := by
  rw [← wired.leadsTo_iff below]
  constructor
  · rintro ⟨depth, listed⟩
    obtain ⟨failed, -, chain, -⟩ := mem_shown_iff.mp listed
    exact ⟨failed, depth, chain⟩
  · rintro ⟨⟨top, found, failed⟩, n, chain⟩
    have lt := wired.lt_next (Forest.lt_next_of_get? found) chain
    exact ⟨n, mem_shown_iff.mpr ⟨⟨top, found, failed⟩, lt, chain, there⟩⟩

/-! ### Type errors in a tree -/

/-- **A file's tree, put together**: the references in the forest lead to its entries, the file and
whatever a span stands for can own others and are in the tree, and the references in the tree
agree. -/
structure Definitions.Wired (d : Definitions) : Prop where
  closed : d.forest.Closed
  file : d.forest.IsSuite d.file
  spans : ∀ span ∈ d.spans, d.forest.IsSuite span.target
  rooted : d.Rooted
  wired : d.forest.Wired d.file

/-- The same for every file of a table. -/
def DefinitionTable.Wired (table : DefinitionTable) : Prop := ∀ entry ∈ table, entry.2.Wired

/-- **An entry and all groups around it run.** -/
def Forest.RunsAround (f : Forest) (x : Key) : Prop :=
  ∀ k t, f.Around x k → f.get? k = some t → t.mode.isRunning = true

namespace Definitions

variable {d : Definitions}

/-- Apart from its source map a tree is sound. -/
theorem Wired.sound (wired : d.Wired) : { d with sourceMap? := none : Definitions }.Sound :=
  Spanned.sound ⟨wired.closed, wired.file, wired.spans, wired.rooted⟩

/-- The file alone is a tree. -/
theorem wired_of_bare {path : String} (h : bare path = .ok d) : d.Wired := by
  have fresh := fresh_of_bare h
  refine ⟨fresh.closed, fresh.file, fresh.spans, fresh.rooted, ?_, fresh.wired⟩
  cases eq_of_bare h
  rfl

end Definitions

theorem DefinitionTable.Gives.wired {table : DefinitionTable} {path : String} {d : Definitions}
    (h : table.Gives path d) (wired : table.Wired) : d.Wired := by
  rcases h with found | ⟨-, bare⟩
  · obtain ⟨before, after, rfl, -⟩ := List.lookup_eq_some_iff.mp found
    exact wired (path, d) (by simp)
  · exact Definitions.wired_of_bare bare

namespace Annotated

variable {d : Definitions} {projection : Projection} {done : List LocatedDiagnostic} {f : Forest}
  {k c : Key}

/-- Only collected entries own others. -/
theorem lt_next_of_owned (h : Annotated d projection done f) (owns : c ∈ f.owned k) :
    k < d.forest.next := by
  cases tasks? : d.forest.tasksOf? k with
  | none =>
      rw [h.owned_eq_nil tasks?] at owns
      cases owns
  | some tasks =>
      obtain ⟨t, ht, -⟩ := Option.bind_eq_some_iff.mp tasks?
      exact Forest.lt_next_of_get? ht

/-- **The references agree after some diagnostics** if they did before. -/
theorem wired (h : Annotated d projection done f) (tree : d.Wired) : f.Wired d.file where
  top := by
    obtain ⟨t, -, found, -⟩ := tree.file.get?
    rw [h.suiteOf?_eq (Forest.lt_next_of_get? found)]
    exact tree.wired.top
  owners k below c owns := by
    have old := h.lt_next_of_owned owns
    have below₀ := h.below_old below old
    obtain ⟨tasks, tasks?⟩ : ∃ tasks, d.forest.tasksOf? k = some tasks := by
      cases tasks? : d.forest.tasksOf? k with
      | none =>
          rw [h.owned_eq_nil tasks?] at owns
          cases owns
      | some tasks => exact ⟨tasks, rfl⟩
    have before : d.forest.owned k = tasks := by rw [Forest.owned, tasks?, Option.getD_some]
    rw [h.owned_eq tasks?] at owns
    rcases List.mem_append.mp owns with mem | mem
    · rw [← before] at mem
      rw [h.suiteOf?_eq (tree.closed.owned_lt c mem)]
      exact tree.wired.owners k below₀ c mem
    · obtain ⟨i, located, found, rfl, rfl⟩ := mem_received_iff.mp mem
      obtain ⟨group, task, -, ht, reports⟩ := h.new i located found
      rw [Forest.suiteOf?_eq_some ht, reports.suite]

/-- **Around a failed new entry** there are entries only, and each of them has failed just if it
runs. -/
theorem exists_failed_iff (h : Annotated d projection done f) (tree : d.Wired) {i : Nat}
    {located : LocatedDiagnostic} (place : done[i]? = some located) {task : Task}
    (new : f.get? (d.forest.next + i) = some task) (failed : task.hasFailed = true)
    (around : f.Around (d.forest.next + i) k) :
    ∃ t, f.get? k = some t ∧ (f.Failed k ↔ t.mode.isRunning = true) := by
  obtain ⟨group, task', owner, new', reports⟩ := h.new i located place
  obtain rfl : task = task' := Option.some.inj (new.symm.trans new')
  have runs : group.mode.isRunning = true := reports.hasFailed_iff.mp failed
  rcases Relation.ReflTransGen.cases_head around with rfl | ⟨s, step, outwards⟩
  · -- the new entry itself
    refine ⟨task, new, ?_⟩
    rw [reports.mode]
    exact iff_of_true ⟨task, new, failed⟩ runs
  · -- an entry around its owner, on which the error was recorded
    rw [Forest.suiteOf?_eq_some new, reports.suite] at step
    obtain rfl := Option.some.inj step
    have inside := Forest.lt_next_of_get? owner
    have outwards₀ := (h.around_iff tree.closed inside).mp outwards
    obtain ⟨t, found⟩ := Forest.exists_get? (tree.closed.lt_next_of_around outwards₀ inside)
    have fails : d.forest.Fails (d.ownersBy projection done) k :=
      ⟨_, List.mem_map_of_mem (List.mem_of_getElem? place), group, owner, runs, outwards₀⟩
    refine ⟨_, h.old k t found, ?_⟩
    rw [Forest.failed_iff (h.old k t found)]
    simp [Task.hasFailed, Definitions.annotate, fails, Result.ofMode, State.ofMode_eq_fail_iff]

end Annotated

/-! ### Disclosed type errors -/

/-- The lines of an entry that has failed with an error. -/
theorem Report.taskLines_of_failed {t : Task} {error : TypeError} (depth : Nat)
    (result : t.result? = some ⟨.fail, some error⟩) :
    taskLines depth t = [s!"{indent depth}{mark .fail} {t.name}",
      s!"{indent depth}    {errorLine error}"] := by
  unfold taskLines shownState
  rw [result]
  rfl

namespace Record

/-- **An entry has a line of its own** in the report, marked as failed, and behind it the line of
its error. -/
def ShowsError (r : Record) (c : Key) (error : TypeError) : Prop :=
  ∃ depth task, (depth, c, task) ∈ r.shown ∧
    Report.taskLines depth task = [s!"{Report.indent depth}{Report.mark .fail} {task.name}",
      s!"{Report.indent depth}    {Report.errorLine error}"]

/-- **What a report discloses of a file**: there is an entry for each report about it, and one that
has failed is shown just if it and all groups around it run. -/
structure Discloses (r : Record) (d : Definitions) (reports : List LocatedDiagnostic) : Prop where
  file : r.file = d.file
  size : r.forest.next = d.forest.next + reports.length
  entries : ∀ (i : Nat) (report : LocatedDiagnostic), reports[i]? = some report →
    ∃ task, r.forest.get? (d.forest.next + i) = some task ∧ task.shape = .typecheck ∧
      (task.hasFailed = true → (r.ShowsError (d.forest.next + i) report.error ↔
        r.forest.RunsAround (d.forest.next + i)))

variable {r : Record} {d : Definitions} {projection : Projection}
  {reports : List LocatedDiagnostic}

theorem showsError_iff {c : Key} {t : Task} {error : TypeError}
    (found : r.forest.get? c = some t) (result : t.result? = some ⟨.fail, some error⟩) :
    r.ShowsError c error ↔ ∃ depth, (depth, c, t) ∈ r.shown := by
  constructor
  · rintro ⟨depth, t', listed, -⟩
    obtain ⟨-, -, -, found'⟩ := mem_shown_iff.mp listed
    obtain rfl : t = t' := Option.some.inj (found.symm.trans found')
    exact ⟨depth, listed⟩
  · rintro ⟨depth, listed⟩
    exact ⟨depth, t, listed, Report.taskLines_of_failed depth result⟩

theorem discloses_of_annotated (tree : d.Wired) (file : r.file = d.file)
    (annotated : Annotated d projection reports r.forest) : r.Discloses d reports := by
  refine ⟨file, annotated.next, fun i report place => ?_⟩
  obtain ⟨group, task, owner, new, stands⟩ := annotated.new i report place
  refine ⟨task, new, stands.shape, fun failed => ?_⟩
  have runs : group.mode.isRunning = true := stands.hasFailed_iff.mp failed
  have result : task.result? = some ⟨.fail, some report.error⟩ := by
    rw [stands.result, State.ofMode_eq_fail_iff.mpr runs, if_pos runs]
  have wired : r.forest.Wired r.file := file ▸ annotated.wired tree
  have below : r.forest.Below r.file (d.forest.next + i) := by
    have above := annotated.below (tree.rooted.below_owner projection report.diagnostic)
    obtain ⟨tasks, owns⟩ : d.forest.IsSuite (d.owner projection report.diagnostic) :=
      tree.sound.isSuite_owner projection report.diagnostic
    rw [file]
    refine above.tail ?_
    rw [annotated.owned_eq owns]
    exact List.mem_append_right _ (mem_received_iff.mpr ⟨i, report, place, rfl, rfl⟩)
  rw [showsError_iff new result, exists_mem_shown_iff wired below new]
  refine forall_congr' fun k => ?_
  constructor
  · intro failedAround t around found
    obtain ⟨t', found', failed_iff⟩ := annotated.exists_failed_iff tree place new failed around
    obtain rfl : t = t' := Option.some.inj (found.symm.trans found')
    exact failed_iff.mp (failedAround around)
  · intro runsAround around
    obtain ⟨t, found, failed_iff⟩ := annotated.exists_failed_iff tree place new failed around
    exact failed_iff.mpr (runsAround t around found)

end Record

namespace Snapshot

/-- **What the report of a snapshot discloses.**  Let the files under test have trees whose
references agree, whatever the modes and results in them are.  The report that is not verbose has
the lines of the entries it lists, file by file.  Of the entries that stand for type errors a failed
one is listed, with its error, just if every group around it runs: a group that does not run keeps
everything in it from being listed. -/
theorem disclosed_of_assemble {table : DefinitionTable} (wired : table.Wired)
    {diagnostics : Grouping (Option String) LocatedDiagnostic} {files : List String} {s : Snapshot}
    (assembled : assemble diagnostics files table = .ok s) :
    Report.lines false s = [Report.rule '=', "TYPE CHECK RESULTS", Report.rule '='] ++
      (s.files.flatMap fun r => r.shown.flatMap fun (depth, _, t) => Report.taskLines depth t) ++
      Report.sourceLines s.sourceErrors ++ ["", Report.summary s, Report.rule '='] ∧
    List.Forall₂ (fun path r => ∃ d, table.Gives path d ∧
      r.Discloses d ((diagnostics.get? (some path)).getD [])) (requested files) s.files := by
  refine ⟨Report.lines_eq s, (forall₂_of_assemble assembled).imp fun path r made => ?_⟩
  obtain ⟨d, gives, file, attached⟩ := exists_gives_of_record made
  have tree := gives.wired wired
  obtain ⟨projection, annotated⟩ := Definitions.exists_annotated tree.sound attached
  exact ⟨d, gives, Record.discloses_of_annotated tree file annotated⟩

theorem nestedTable_wired : nestedTable.Wired := by
  intro entry mem
  cases List.mem_singleton.mp mem
  have owners : ∀ k < 4, ∀ c ∈ nestedGroups.forest.owned k,
      nestedGroups.forest.suiteOf? c = some k := by decide
  refine ⟨by decide, ⟨_, rfl⟩, ?_, nestedTable_rooted _ mem, rfl, ?_⟩
  · intro span mem
    cases List.mem_singleton.mp mem
    exact ⟨[], rfl⟩
  · intro k _ c mem
    rcases Nat.lt_or_ge k 4 with inside | outside
    · exact owners k inside c mem
    · rw [Forest.owned_of_le outside] at mem
      cases mem

/-- The file with a report inside the group that runs: this group has failed, and the one around it
is skipped. -/
def nestedRecord : Record where
  forest := ⟨#[
    { id := "f", name := "f", shape := .file "/a.ts" [1, 3], file? := some 0,
      result? := some ⟨.fail, none⟩ },
    { id := "s", name := "s", shape := .suite [2], mode := .skip, suite? := some 0,
      file? := some 0, result? := some ⟨.skip, none⟩ },
    { id := "r", name := "r", shape := .suite [4], suite? := some 1, file? := some 0,
      result? := some ⟨.fail, none⟩ },
    { id := "p", name := "p", shape := .suite [], suite? := some 0, file? := some 0,
      result? := some ⟨.pass, none⟩ },
    { id := "r_typecheck_1", name := "TS1: type error #1", shape := .typecheck, suite? := some 2,
      file? := some 0, result? := some ⟨.fail, some ⟨"TS1: m", [⟨"/a.ts", some 1, some 4⟩]⟩⟩ }]⟩
  file := 0

theorem assemble_nested :
    assemble reportInside ["/a.ts"] nestedTable = .ok ⟨[nestedRecord], []⟩ := by
  have outcome : (assemble reportInside ["/a.ts"] nestedTable).toOption =
      some ⟨[nestedRecord], []⟩ := by
    decide +kernel
  cases assembled : assemble reportInside ["/a.ts"] nestedTable with
  | error e =>
      rw [assembled] at outcome
      cases outcome
  | ok s =>
      rw [assembled] at outcome
      exact congrArg Except.ok (Option.some.inj outcome)

/-- Of this file only the first line is printed: the skipped group hides what has failed in it. -/
theorem disclosed_of_assemble_nested :
    assemble reportInside ["/a.ts"] nestedTable = .ok ⟨[nestedRecord], []⟩ ∧
      (nestedRecord.shown.flatMap fun (depth, _, t) => Report.taskLines depth t) = ["x f"] ∧
      ¬ nestedRecord.forest.RunsAround 4 ∧
      List.Forall₂ (fun path r => ∃ d, nestedTable.Gives path d ∧
        r.Discloses d ((reportInside.get? (some path)).getD [])) (requested ["/a.ts"])
        [nestedRecord] := by
  obtain ⟨-, disclosed⟩ := disclosed_of_assemble nestedTable_wired assemble_nested
  refine ⟨assemble_nested, by decide +kernel, fun runs => ?_, disclosed⟩
  have around : nestedRecord.forest.Around 4 1 :=
    .tail (.single (b := 2) (by decide)) (by decide)
  exact absurd (runs 1 _ around rfl) (by decide)

/-- **Not every failed entry is shown.** -/
theorem not_all_disclosed :
    ¬ ∀ (table : DefinitionTable) (root : String) (output : List Char) (files : List String)
      (s : Snapshot), table.Wired →
      assemble (Diagnostic.ofOutput root output) files table = .ok s →
      List.Forall₂ (fun path r => ∀ d, table.Gives path d → ∀ (i : Nat) report task,
          (((Diagnostic.ofOutput root output).get? (some path)).getD [])[i]? = some report →
          r.forest.get? (d.forest.next + i) = some task → task.hasFailed = true →
          r.ShowsError (d.forest.next + i) report.error) (requested files) s.files := by
  intro shows
  have each := shows nestedTable "/" _ ["/a.ts"] _ nestedTable_wired assemble_nested
  have requested : requested ["/a.ts"] = ["/a.ts"] := by decide
  rw [requested] at each
  obtain ⟨first, -⟩ := List.forall₂_cons.mp each
  have reported : ((reportInside.get? (some "/a.ts")).getD [])[0]?.isSome = true := by
    decide +kernel
  obtain ⟨report, place⟩ := Option.isSome_iff_exists.mp reported
  obtain ⟨depth, task, listed, -⟩ :=
    first nestedGroups (Or.inl rfl) 0 report _ place rfl (by decide)
  have keys : nestedRecord.shown.map (·.2.1) = [0] := by decide +kernel
  have mem : 4 ∈ nestedRecord.shown.map (·.2.1) := List.mem_map_of_mem listed
  rw [keys] at mem
  exact absurd mem (by decide)

end Snapshot

end TypeVerdict
