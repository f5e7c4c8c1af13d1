import TypeVerdict.Proofs.Accounting

/-!
# The verdict of a snapshot

Whether a pass has failed is read off the files alone: a snapshot has failures if there is an
error of the sources or the entry of some file has failed.  A report fails its owner, if that
runs, and all groups around it, and the outermost of these is the file.  So in a tree as it is
collected the two ends of a lineage agree: some entry in the tree of a file has failed just if
the owner of some report about it runs, and then an error is recorded on the file.

Recording an error fails the file only if the file itself runs, though.  A file in another mode
can hold a failed entry and not be a failure, while a group in such a mode hides nothing from
the groups around it.  Where this decides the verdict, the snapshot has no failures
(`Snapshot.Overlooks`).

## Main definitions

* `Definitions.Fresh`: a file's tree as it is collected, without results
* `Record.HoldsFailure`: an entry in the tree of a file has failed
* `Snapshot.Overlooks`: failed entries that no failure of a file shows

## Main statements

* `Annotated.holdsFailure_iff`: when there is a failed entry
* `Record.Follows.hasFailed_iff`: when the file has failed
* `Snapshot.verdict_of_assemble`: the verdict of every snapshot
-/

namespace TypeVerdict

/-! ### Trees as they are collected -/

/-- **A file's tree as it is collected**: the references in the forest lead to its entries, the
file and whatever a span stands for can own others and are in the tree, each entry of the tree
names the one that owns it, and none has a result. -/
structure Definitions.Fresh (d : Definitions) : Prop where
  closed : d.forest.Closed
  file : d.forest.IsSuite d.file
  spans : ∀ span ∈ d.spans, d.forest.IsSuite span.target
  rooted : d.Rooted
  wired : ∀ k, d.forest.Below d.file k → ∀ c ∈ d.forest.owned k, d.forest.suiteOf? c = some k
  blank : ∀ k t, d.forest.Below d.file k → d.forest.get? k = some t → t.result? = none

/-- The same for every file of a table. -/
def DefinitionTable.Fresh (table : DefinitionTable) : Prop := ∀ entry ∈ table, entry.2.Fresh

namespace Definitions

variable {d : Definitions} {projection : Projection} {diagnostics : List LocatedDiagnostic}
  {forest : Forest} {k : Key}

/-- From every entry of the tree the references lead to the file. -/
theorem Fresh.around_file (fresh : d.Fresh) (below : d.forest.Below d.file k) :
    d.forest.Around k d.file := by
  induction below with
  | refl => exact .refl
  | tail below owns ih => exact .head (fresh.wired _ below _ owns) ih

/-- Apart from its source map a fresh tree is sound. -/
theorem Fresh.sound (fresh : d.Fresh) : { d with sourceMap? := none : Definitions }.Sound :=
  Spanned.sound ⟨fresh.closed, fresh.file, fresh.spans, fresh.rooted⟩

/-- A tree that takes its diagnostics is annotated with them, whatever its source map is. -/
theorem Fresh.exists_annotated (fresh : d.Fresh) (attached : d.attachAll diagnostics = .ok forest) :
    ∃ projection, Annotated d projection diagnostics forest :=
  Definitions.exists_annotated fresh.sound attached

/-- The file alone is a fresh tree. -/
theorem fresh_of_bare {path : String} (h : bare path = .ok d) : d.Fresh := by
  have sound := sound_of_bare h
  have rooted := rooted_of_bare h
  cases eq_of_bare h
  refine ⟨sound.closed, sound.file, sound.spans, rooted, ?_, ?_⟩
  · intro k _ c mem
    rcases Nat.eq_zero_or_pos k with rfl | other
    · cases mem
    · rw [Forest.owned_of_le other] at mem
      cases mem
  · intro k t _ ht
    rcases Nat.eq_zero_or_pos k with rfl | other
    · cases ht
      rfl
    · exact absurd (Forest.lt_next_of_get? ht) (Nat.not_lt.mpr other)

end Definitions

theorem DefinitionTable.Gives.fresh {table : DefinitionTable} {path : String} {d : Definitions}
    (h : table.Gives path d) (fresh : table.Fresh) : d.Fresh := by
  rcases h with found | ⟨-, bare⟩
  · obtain ⟨before, after, rfl, -⟩ := List.lookup_eq_some_iff.mp found
    exact fresh (path, d) (by simp)
  · exact Definitions.fresh_of_bare bare

/-! ### Failed entries -/

namespace Annotated

variable {d : Definitions} {projection : Projection} {done : List LocatedDiagnostic} {f : Forest}
  {k : Key}

/-- Collected entries in the tree of the file were in it before, because a new entry owns
nothing and a collected one has received new entries only. -/
theorem below_old (h : Annotated d projection done f) {a : Key} (below : f.Below a k)
    (old : k < d.forest.next) : d.forest.Below a k := by
  induction below with
  | refl => exact .refl
  | @tail b c _ owns ih =>
      cases tasks? : d.forest.tasksOf? b with
      | none =>
          rw [h.owned_eq_nil tasks?] at owns
          cases owns
      | some tasks =>
          obtain ⟨t, ht, -⟩ := Option.bind_eq_some_iff.mp tasks?
          refine (ih (Forest.lt_next_of_get? ht)).tail ?_
          rw [h.owned_eq tasks?] at owns
          rcases List.mem_append.mp owns with mem | mem
          · rwa [Forest.owned, tasks?]
          · obtain ⟨i, -, -, -, rfl⟩ := mem_received_iff.mp mem
            exact absurd old (Nat.not_lt.mpr (Nat.le_add_right _ _))

/-- **There is a failed entry in the tree of a file just if the owner of some report runs.** -/
theorem holdsFailure_iff (h : Annotated d projection done f) (fresh : d.Fresh) :
    (∃ k t, f.Below d.file k ∧ f.get? k = some t ∧ t.hasFailed = true) ↔
      d.forest.Fails (d.ownersBy projection done) d.file := by
  constructor
  · rintro ⟨k, t, below, ht, failed⟩
    rcases Nat.lt_or_ge k d.forest.next with old | new
    · -- a collected entry has failed because an owner that runs is the entry or below it
      obtain ⟨t₀, ht₀⟩ := Forest.exists_get? old
      have below₀ := h.below_old below old
      have annotated := (h.old k t₀ ht₀).symm.trans ht
      by_cases fails : d.forest.Fails (d.ownersBy projection done) k
      · obtain ⟨owner, mem, group, found, runs, around⟩ := fails
        exact ⟨owner, mem, group, found, runs, around.trans (fresh.around_file below₀)⟩
      · cases annotated
        simp [Task.hasFailed, Definitions.annotate, fails, fresh.blank k t₀ below₀ ht₀] at failed
    · -- a new entry has failed because its owner runs
      obtain ⟨i, rfl⟩ := Nat.exists_eq_add_of_le new
      have inside : i < done.length := by
        have := Forest.lt_next_of_get? ht
        rw [h.next] at this
        exact Nat.lt_of_add_lt_add_left this
      obtain ⟨group, task, found, ht', reports⟩ :=
        h.new i done[i] (List.getElem?_eq_getElem inside)
      cases ht'.symm.trans ht
      exact ⟨_, List.mem_map_of_mem (List.getElem_mem inside), group, found,
        reports.hasFailed_iff.mp failed, fresh.around_file (fresh.rooted.below_owner _ _)⟩
  · rintro ⟨owner, mem, group, found, runs, -⟩
    obtain ⟨located, reported, rfl⟩ := List.mem_map.mp mem
    obtain ⟨i, place⟩ := List.mem_iff_getElem?.mp reported
    obtain ⟨group', task, found', ht, reports⟩ := h.new i located place
    cases found.symm.trans found'
    obtain ⟨tasks, owns⟩ : d.forest.IsSuite (d.owner projection located.diagnostic) :=
      fresh.sound.isSuite_owner projection located.diagnostic
    refine ⟨d.forest.next + i, task, ?_, ht, reports.hasFailed_iff.mpr runs⟩
    refine (h.below (fresh.rooted.below_owner projection located.diagnostic)).tail ?_
    rw [h.owned_eq owns]
    exact List.mem_append_right _ (mem_received_iff.mpr ⟨i, located, place, rfl, rfl⟩)

end Annotated

/-! ### Files that have failed -/

namespace Record

/-- Whether the file runs. -/
def runs (r : Record) : Bool := r.task?.any (·.mode.isRunning)

/-- **Some entry in the tree of the file has failed**, the file itself included. -/
def HoldsFailure (r : Record) : Prop :=
  ∃ k t, r.forest.Below r.file k ∧ r.forest.get? k = some t ∧ t.hasFailed = true

/-- A file's record follows from a fresh tree and the reports about the file. -/
structure Follows (r : Record) (d : Definitions) (reports : List LocatedDiagnostic) : Prop where
  fresh : d.Fresh
  file : r.file = d.file
  forest : ∃ projection, Annotated d projection reports r.forest

variable {r : Record} {d : Definitions} {reports : List LocatedDiagnostic}

/-- **A file has failed just if it runs and holds a failed entry.** -/
theorem Follows.hasFailed_iff (h : r.Follows d reports) :
    r.hasFailed = true ↔ r.runs = true ∧ r.HoldsFailure := by
  obtain ⟨projection, annotated⟩ := h.forest
  obtain ⟨t, -, found, -⟩ := h.fresh.file.get?
  have entry : r.task? = some (d.annotate projection reports d.file t) := by
    rw [Record.task?, h.file]
    exact annotated.old d.file t found
  have holds : r.HoldsFailure ↔ d.forest.Fails (d.ownersBy projection reports) d.file := by
    rw [HoldsFailure, h.file]
    exact annotated.holdsFailure_iff h.fresh
  have runs : r.runs = t.mode.isRunning := by
    rw [Record.runs, entry]
    rfl
  rw [holds, runs, hasFailed, entry]
  by_cases fails : d.forest.Fails (d.ownersBy projection reports) d.file
  · simp [Task.hasFailed, Definitions.annotate, fails, Result.ofMode, State.ofMode_eq_fail_iff]
  · have blank := h.fresh.blank d.file t .refl found
    simp [Task.hasFailed, Definitions.annotate, fails, blank]

end Record

/-! ### Snapshots that have failures -/

namespace Snapshot

variable {table : DefinitionTable} {files : List String} {s : Snapshot}
  {diagnostics : Grouping (Option String) LocatedDiagnostic}

/-- What a record follows from. -/
theorem follows_of_record (fresh : table.Fresh) {path : String} {r : Record}
    (h : record diagnostics table path = .ok r) :
    ∃ d, table.Gives path d ∧ r.Follows d ((diagnostics.get? (some path)).getD []) := by
  obtain ⟨d, gives, file, attached⟩ := exists_gives_of_record h
  have tree := gives.fresh fresh
  exact ⟨d, gives, tree, file, tree.exists_annotated attached⟩

/-- **Every file of a snapshot has failed just if it runs and holds a failed entry.** -/
theorem hasFailed_iff_of_assemble (fresh : table.Fresh)
    (assembled : assemble diagnostics files table = .ok s) :
    ∀ r ∈ s.files, r.hasFailed = true ↔ r.runs = true ∧ r.HoldsFailure := by
  have each := forall₂_of_assemble assembled
  generalize requested files = paths, s.files = records at each ⊢
  intro r mem
  induction each with
  | nil => cases mem
  | cons made _ ih =>
      rcases List.mem_cons.mp mem with rfl | mem
      · obtain ⟨d, -, follows⟩ := follows_of_record fresh made
        exact follows.hasFailed_iff
      · exact ih mem

/-- **Failed entries are overlooked**: there are some and no errors of the sources, and no file
that holds one runs. -/
def Overlooks (s : Snapshot) : Prop :=
  s.sourceErrors = [] ∧ (∃ r ∈ s.files, r.HoldsFailure) ∧
    ∀ r ∈ s.files, r.HoldsFailure → r.runs = false

/-- **The verdict of a snapshot.**  Let the trees of the files be fresh, whatever the modes in
them are.  Then for all requested files and every list of diagnostics, the snapshot, which
exists if the source maps can be judged, has failures just if there is an error of the sources
or a file that runs holds a failed entry.  That is the same as that there is an error of the
sources or a failed entry anywhere, unless the failed entries are overlooked. -/
theorem verdict_of_assemble (fresh : table.Fresh)
    (diagnostics : Grouping (Option String) LocatedDiagnostic) (files : List String) :
    (table.Proper → (∀ file ∈ files, file ≠ "") →
      ∃ s, assemble diagnostics files table = .ok s) ∧
    ∀ s, assemble diagnostics files table = .ok s →
      (s.hasFailures = true ↔
        s.sourceErrors ≠ [] ∨ ∃ r ∈ s.files, r.runs = true ∧ r.HoldsFailure) ∧
      ((s.hasFailures = true ↔ s.sourceErrors ≠ [] ∨ ∃ r ∈ s.files, r.HoldsFailure) ↔
        ¬ s.Overlooks) := by
  refine ⟨fun proper nonempty => exists_assemble proper nonempty diagnostics, ?_⟩
  intro s assembled
  have failed := hasFailed_iff_of_assemble fresh assembled
  have verdict : s.hasFailures = true ↔
      s.sourceErrors ≠ [] ∨ ∃ r ∈ s.files, r.runs = true ∧ r.HoldsFailure := by
    rw [hasFailures, Bool.or_eq_true, List.any_eq_true]
    refine or_congr (by simp) (exists_congr fun r => and_congr_right (failed r))
  refine ⟨verdict, ?_⟩
  rw [verdict]
  constructor
  · rintro agree ⟨clean, holds, hidden⟩
    rcases agree.mpr (Or.inr holds) with errors | ⟨r, mem, runs, holds⟩
    · exact errors clean
    · rw [hidden r mem holds] at runs
      cases runs
  · intro seen
    refine or_congr_right' fun clean => ⟨fun ⟨r, mem, _, holds⟩ => ⟨r, mem, holds⟩, fun holds => ?_⟩
    by_contra none
    refine seen ⟨not_not.mp clean, holds, fun r mem holds => ?_⟩
    exact Bool.eq_false_iff.mpr fun runs => none ⟨r, mem, runs, holds⟩

/-- A file that is skipped, with a group in it that runs. -/
def skippedFile : Definitions :=
  Collected.definitions {
    forest := ⟨#[
      { id := "f", name := "f", shape := .file "/a.ts" [1], mode := .skip, file? := some 0 },
      { id := "t", name := "t", shape := .suite [], suite? := some 0, file? := some 0 }]⟩
    file := 0
    spans := [⟨0, 3, 1, by decide⟩]
    text := "t();".toList }

/-- A table of this file. -/
def skippedTable : DefinitionTable := [("/a.ts", skippedFile)]

theorem skippedTable_fresh : skippedTable.Fresh := by
  intro entry mem
  cases List.mem_singleton.mp mem
  have inner : skippedFile.forest.Below 0 1 := .single (by decide)
  have wired : ∀ k < 2, ∀ c ∈ skippedFile.forest.owned k,
      skippedFile.forest.suiteOf? c = some k := by decide
  have blank : ∀ t ∈ skippedFile.forest.tasks, t.result? = none := by decide
  refine ⟨by decide, ⟨_, rfl⟩, ?_, ?_, ?_, ?_⟩
  · intro span mem
    cases List.mem_singleton.mp mem
    exact ⟨[], rfl⟩
  · intro span mem
    cases List.mem_singleton.mp mem
    exact inner
  · intro k _ c mem
    rcases Nat.lt_or_ge k 2 with inside | outside
    · exact wired k inside c mem
    · rw [Forest.owned_of_le outside] at mem
      cases mem
  · intro k t _ found
    exact blank t (Array.mem_of_getElem? found)

/-- A report inside the group. -/
def reportInGroup : Grouping (Option String) LocatedDiagnostic :=
  Diagnostic.ofOutput "/" "a.ts(1,1): error TS1: m".toList

/-- The file with the report: the group has failed, and the file is skipped. -/
def skippedRecord : Record where
  forest := ⟨#[
    { id := "f", name := "f", shape := .file "/a.ts" [1], mode := .skip, file? := some 0,
      result? := some ⟨.skip, none⟩ },
    { id := "t", name := "t", shape := .suite [2], suite? := some 0, file? := some 0,
      result? := some ⟨.fail, none⟩ },
    { id := "t_typecheck_1", name := "TS1: type error #1", shape := .typecheck, suite? := some 1,
      file? := some 0,
      result? := some ⟨.fail, some ⟨"TS1: m", [⟨"/a.ts", some 1, some 1⟩]⟩⟩ }]⟩
  file := 0

theorem assemble_skipped :
    assemble reportInGroup ["/a.ts"] skippedTable = .ok ⟨[skippedRecord], []⟩ := by
  have outcome : (assemble reportInGroup ["/a.ts"] skippedTable).toOption =
      some ⟨[skippedRecord], []⟩ := by
    decide +kernel
  cases assembled : assemble reportInGroup ["/a.ts"] skippedTable with
  | error e =>
      rw [assembled] at outcome
      cases outcome
  | ok s =>
      rw [assembled] at outcome
      exact congrArg Except.ok (Option.some.inj outcome)

theorem holdsFailure_skippedRecord : skippedRecord.HoldsFailure :=
  ⟨1, _, .single (by decide), rfl, by decide⟩

/-- The failed group of a skipped file is overlooked. -/
theorem verdict_of_assemble_skipped :
    assemble reportInGroup ["/a.ts"] skippedTable = .ok ⟨[skippedRecord], []⟩ ∧
      hasFailures ⟨[skippedRecord], []⟩ = false ∧ Overlooks ⟨[skippedRecord], []⟩ := by
  obtain ⟨-, verdict⟩ := verdict_of_assemble skippedTable_fresh reportInGroup ["/a.ts"]
  obtain ⟨-, seen⟩ := verdict _ assemble_skipped
  have passed : hasFailures ⟨[skippedRecord], []⟩ = false := by decide
  refine ⟨assemble_skipped, passed, not_not.mp fun shows => ?_⟩
  have failed := (seen.mpr shows).mpr
    (Or.inr ⟨skippedRecord, List.mem_singleton_self _, holdsFailure_skippedRecord⟩)
  rw [passed] at failed
  cases failed

/-- **A failed entry need not be a failure of the snapshot.** -/
theorem not_hasFailures_of_failed :
    ¬ ∀ (table : DefinitionTable) (root : String) (output : List Char) (files : List String)
      (s : Snapshot), table.Fresh →
      assemble (Diagnostic.ofOutput root output) files table = .ok s →
      (s.hasFailures = true ↔ s.sourceErrors ≠ [] ∨ ∃ r ∈ s.files, r.HoldsFailure) := by
  intro agrees
  have failed := (agrees _ "/" _ _ _ skippedTable_fresh assemble_skipped).mpr
    (Or.inr ⟨skippedRecord, List.mem_singleton_self _, holdsFailure_skippedRecord⟩)
  exact absurd failed (by decide)

end Snapshot

end TypeVerdict
