import Mathlib.Algebra.GroupWithZero.Nat
import TypeVerdict.Proofs.Annotation
import TypeVerdict.Proofs.Groups

/-!
# Every report is accounted for

A report of a checker's output can end as an entry in the tree of a requested file or as an
error of the sources, and it ends as exactly one of the two.  On its way it is grouped twice
and attached to an owner; that no group loses or doubles it is the matter of
`Diagnostic.gathered_perm`, that it becomes an entry of its own the matter of `Annotated`.
What is left is to see that the entry stands in the tree of the file, at one place only, and
to count.

## Main definitions

* `Forest.Below`: an entry in the tree below another
* `Forest.OwnedOnce`: an entry with one owner
* `Definitions.Rooted`: spans that stand for entries in the tree of the file
* `Definitions.Spanned`: the same, for groups, with references that lead to entries
* `Record.Accounts`: a file's record with an entry for each report about it
* `Snapshot.Accounts`: a snapshot with an entry or an error for each report

## Main statements

* `Annotated.below`, `Annotated.ownedOnce`: where the new entries are
* `Diagnostic.length_gathered`: how many reports there are under several files
* `Snapshot.accounts_of_assemble`: every snapshot accounts for the reports of its output
-/

namespace TypeVerdict

/-! ### Places in a tree -/

namespace Forest

variable {f : Forest} {k c : Key}

/-- The entries that an entry owns. -/
def owned (f : Forest) (k : Key) : List Key := (f.tasksOf? k).getD []

/-- **An entry in the tree below another**, or that entry itself. -/
def Below (f : Forest) : Key → Key → Prop := Relation.ReflTransGen fun k c => c ∈ f.owned k

/-- **An entry with one owner**, which owns it once. -/
def OwnedOnce (f : Forest) (owner c : Key) : Prop :=
  ∀ k, (f.owned k).count c = if k = owner then 1 else 0

theorem owned_of_get? {t : Task} (ht : f.get? k = some t) :
    f.owned k = t.shape.tasks?.getD [] := by
  rw [owned, tasksOf?, ht, Option.bind_some]

theorem owned_of_le (h : f.next ≤ k) : f.owned k = [] := by
  have none : f.get? k = none := by
    rw [← Option.not_isSome_iff_eq_none, get?_isSome_iff]
    exact Nat.not_lt.mpr h
  rw [owned, tasksOf?, none]
  rfl

theorem Closed.owned_lt (h : f.Closed) : ∀ c ∈ f.owned k, c < f.next := by
  intro c mem
  rcases Nat.lt_or_ge k f.next with inside | outside
  · obtain ⟨t, ht⟩ := exists_get? inside
    rw [owned_of_get? ht] at mem
    exact (h t (Array.mem_of_getElem? ht)).2 c mem
  · rw [owned_of_le outside] at mem
    cases mem

end Forest

namespace Definitions

variable {d : Definitions}

/-- **Spans that stand for entries in the tree of the file.** -/
def Rooted (d : Definitions) : Prop := ∀ span ∈ d.spans, d.forest.Below d.file span.target

/-- Whoever a report belongs to is in the tree of the file. -/
theorem Rooted.below_owner (h : d.Rooted) (projection : Projection) (diagnostic : Diagnostic) :
    d.forest.Below d.file (d.owner projection diagnostic) := by
  unfold owner
  split
  · next span found =>
      obtain ⟨offset, -, found⟩ := Option.bind_eq_some_iff.mp found
      have mem := List.mem_of_find?_eq_some found
      exact h span (List.mem_mergeSort.mp mem)
  · exact .refl

theorem rooted_of_bare {path : String} (h : bare path = .ok d) : d.Rooted := by
  cases eq_of_bare h
  intro span mem
  cases mem

end Definitions

/-- **Spans that stand for groups of their own file**: the references in the forest lead to its
entries, and the file and whatever a span stands for can own others and are in the tree.  Nothing is
said about the source map. -/
structure Definitions.Spanned (d : Definitions) : Prop where
  closed : d.forest.Closed
  file : d.forest.IsSuite d.file
  spans : ∀ span ∈ d.spans, d.forest.IsSuite span.target
  rooted : d.Rooted

namespace Definitions

variable {d : Definitions}

/-- Apart from its source map such a file is sound. -/
theorem Spanned.sound (spanned : d.Spanned) :
    { d with sourceMap? := none : Definitions }.Sound where
  file := spanned.file
  spans := spanned.spans
  map := ⟨⟨none⟩, rfl⟩
  closed := spanned.closed

theorem spanned_of_bare {path : String} (h : bare path = .ok d) : d.Spanned :=
  have sound := sound_of_bare h
  ⟨sound.closed, sound.file, sound.spans, rooted_of_bare h⟩

end Definitions

/-- Every file of a table has spans that stand for entries in its tree. -/
def DefinitionTable.Rooted (table : DefinitionTable) : Prop := ∀ entry ∈ table, entry.2.Rooted

/-- The number of entries that are known about a file. -/
def DefinitionTable.entriesOf (table : DefinitionTable) (path : String) : Nat :=
  ((table.lookup path).map (·.forest.next)).getD 1

namespace DefinitionTable

variable {table : DefinitionTable} {path : String} {d : Definitions}

theorem Gives.rooted (h : table.Gives path d) (rooted : table.Rooted) : d.Rooted := by
  rcases h with found | ⟨-, bare⟩
  · obtain ⟨before, after, rfl, -⟩ := List.lookup_eq_some_iff.mp found
    exact rooted (path, d) (by simp)
  · exact Definitions.rooted_of_bare bare

theorem Gives.next_eq (h : table.Gives path d) : d.forest.next = table.entriesOf path := by
  rcases h with found | ⟨none, bare⟩
  · rw [entriesOf, found]
    rfl
  · cases Definitions.eq_of_bare bare
    rw [entriesOf, none]
    rfl

end DefinitionTable

/-! ### New entries in the tree of a file -/

namespace Annotated

variable {d : Definitions} {projection : Projection} {done : List LocatedDiagnostic} {f : Forest}
  {k : Key}

/-- A collected entry owns what it owned, and what it has received. -/
theorem owned_eq (h : Annotated d projection done f) {tasks : List Key}
    (owns : d.forest.tasksOf? k = some tasks) :
    f.owned k = tasks ++ d.received projection done k := by
  obtain ⟨t, ht, shape⟩ := Option.bind_eq_some_iff.mp owns
  rw [Forest.owned_of_get? (h.old k t ht), Definitions.annotate, Shape.tasks?_receive, shape]
  rfl

/-- Nothing else owns anything. -/
theorem owned_eq_nil (h : Annotated d projection done f) (owns : d.forest.tasksOf? k = none) :
    f.owned k = [] := by
  rcases Nat.lt_or_ge k d.forest.next with inside | outside
  · obtain ⟨t, ht⟩ := Forest.exists_get? inside
    have shape : t.shape.tasks? = none := by
      rwa [Forest.tasksOf?, ht, Option.bind_some] at owns
    rw [Forest.owned_of_get? (h.old k t ht), Definitions.annotate, Shape.tasks?_receive, shape]
    rfl
  · obtain ⟨i, rfl⟩ := Nat.exists_eq_add_of_le outside
    rcases Nat.lt_or_ge i done.length with new | beyond
    · obtain ⟨group, task, -, ht, reports⟩ := h.new i done[i] (List.getElem?_eq_getElem new)
      rw [Forest.owned_of_get? ht, reports.shape]
      rfl
    · apply Forest.owned_of_le
      rw [h.next]
      exact Nat.add_le_add_left beyond _

/-- What was in a tree of the collected forest still is. -/
theorem below (h : Annotated d projection done f) {a b : Key} (below : d.forest.Below a b) :
    f.Below a b := by
  refine Relation.ReflTransGen.mono ?_ a b below
  intro k c mem
  cases owns : d.forest.tasksOf? k with
  | none =>
      rw [Forest.owned, owns] at mem
      cases mem
  | some tasks =>
      rw [Forest.owned, owns] at mem
      rw [h.owned_eq owns]
      exact List.mem_append_left _ mem

theorem nodup_received : (d.received projection done k).Nodup := by
  induction done using List.reverseRecOn with
  | nil => simp [Definitions.received]
  | append_singleton done located ih =>
      rw [received_append_singleton, List.nodup_append]
      refine ⟨ih, by split <;> simp, ?_⟩
      intro c old c' last same
      obtain ⟨i, other, found, -, rfl⟩ := mem_received_iff.mp old
      have inside : i < done.length := (List.getElem?_eq_some_iff.mp found).1
      split at last
      · cases List.mem_singleton.mp last
        unfold Key at same
        omega
      · cases last

/-- **A new entry has one owner**, the one that its report belongs to. -/
theorem ownedOnce (h : Annotated d projection done f) (sound : d.Sound) {i : Nat}
    {located : LocatedDiagnostic} (found : done[i]? = some located) :
    f.OwnedOnce (d.owner projection located.diagnostic) (d.forest.next + i) := by
  intro k
  have owner := sound.isSuite_owner projection located.diagnostic
  have here : d.forest.next + i ∈ d.received projection done k ↔
      k = d.owner projection located.diagnostic := by
    rw [mem_received_iff]
    constructor
    · rintro ⟨j, other, found', owned, same⟩
      have : j = i := (Nat.add_left_cancel same).symm
      subst this
      rw [found] at found'
      cases found'
      exact owned.symm
    · rintro rfl
      exact ⟨i, located, found, rfl, rfl⟩
  cases owns : d.forest.tasksOf? k with
  | none =>
      have other : k ≠ d.owner projection located.diagnostic := by
        rintro rfl
        obtain ⟨tasks, some⟩ := owner
        rw [owns] at some
        cases some
      rw [h.owned_eq_nil owns, if_neg other]
      rfl
  | some tasks =>
      have old : d.forest.next + i ∉ tasks := by
        intro mem
        have inside := sound.closed.owned_lt (k := k) (d.forest.next + i)
          (by rwa [Forest.owned, owns])
        exact absurd inside (Nat.not_lt.mpr (Nat.le_add_right _ _))
      rw [h.owned_eq owns, List.count_append, List.count_eq_zero.mpr old, Nat.zero_add,
        List.Nodup.count nodup_received]
      exact if_congr here rfl rfl

end Annotated

/-- **A file's record with an entry for each report about it.**  The collected entries are
there, and have at most received some of the new ones; the new entries are as many as the
reports, and each stands for its report, has one owner, and is in the tree of the file. -/
structure Record.Accounts (r : Record) (d : Definitions) (reports : List LocatedDiagnostic) :
    Prop where
  file : r.file = d.file
  size : r.forest.next = d.forest.next + reports.length
  collected : ∀ k t, d.forest.get? k = some t → ∃ keys result?,
    (∀ c ∈ keys, d.forest.next ≤ c) ∧
    r.forest.get? k = some { t with shape := t.shape.receive keys, result? := result? }
  entries : ∀ (i : Nat) (report : LocatedDiagnostic), reports[i]? = some report →
    ∃ owner group task, d.forest.get? owner = some group ∧
      r.forest.get? (d.forest.next + i) = some task ∧
      task.Reports owner group r.file report.error ∧
      r.forest.OwnedOnce owner (d.forest.next + i) ∧
      r.forest.Below r.file (d.forest.next + i)

theorem Record.Annotates.accounts {r : Record} {d : Definitions}
    {reports : List LocatedDiagnostic} (h : r.Annotates d reports) (rooted : d.Rooted) :
    r.Accounts d reports := by
  obtain ⟨projection, -, annotated⟩ := h.forest
  refine ⟨h.file, annotated.next, ?_, ?_⟩
  · intro k t ht
    refine ⟨d.received projection reports k, _, ?_, annotated.old k t ht⟩
    intro c mem
    obtain ⟨i, -, -, -, rfl⟩ := mem_received_iff.mp mem
    exact Nat.le_add_right _ _
  · intro i report found
    obtain ⟨group, task, owner, new, stands⟩ := annotated.new i report found
    have once := annotated.ownedOnce h.sound found
    refine ⟨_, group, task, owner, new, h.file ▸ stands, once, ?_⟩
    -- the owner is in the tree, and the new entry is one of those that it owns
    have above := annotated.below (rooted.below_owner projection report.diagnostic)
    rw [h.file]
    refine above.tail (List.count_pos_iff.mp ?_)
    rw [once, if_pos rfl]
    exact Nat.one_pos

/-! ### Counting -/

namespace Diagnostic

variable (root : String) (reports : List Diagnostic)

/-- Under several files there are the reports about one of them. -/
theorem length_gathered {files : List (Option String)} (nodup : files.Nodup) :
    (files.map fun file? => (gathered root reports file?).length).sum =
      (reports.filter fun d => d.file? root ∈ files).length := by
  rw [← (perm_flatMap_filter (file? root) reports nodup).length_eq, List.length_flatMap]
  congr 2
  funext file?
  rw [(gathered_perm root reports file?).length_eq, about, List.length_map]

end Diagnostic

/-- A record for each file, and in each of them a number of entries more. -/
theorem sum_of_forall₂ {α β : Type} {before more : α → Nat} {after : β → Nat} {xs : List α}
    {ys : List β} (each : List.Forall₂ (fun x y => after y = before x + more x) xs ys) :
    (ys.map after).sum = (xs.map before).sum + (xs.map more).sum := by
  induction each with
  | nil => rfl
  | cons head _ ih =>
      simp only [List.map_cons, List.sum_cons, head, ih]
      omega

/-- **A snapshot with an entry or an error for each report.**  It has one record for each
requested file, in the order of the first requests; the reports about a file are entries of
its record, and the others are errors of the sources, file by file in the order of their first
reports.  All in all, what was collected and the reports make up the snapshot. -/
structure Snapshot.Accounts (s : Snapshot) (table : DefinitionTable) (root : String)
    (files : List String) (reports : List Diagnostic) : Prop where
  records : List.Forall₂ (fun path r => ∃ d located, table.Gives path d ∧
    List.Perm located (Diagnostic.about root reports (some path)) ∧ r.Accounts d located)
    files.eraseDups s.files
  errors : ∃ located : Option String → List LocatedDiagnostic,
    (∀ file?, (located file?).Perm (Diagnostic.about root reports file?)) ∧
    s.sourceErrors = (((reports.map (·.file? root)).eraseDups.filter fun file? =>
      ∀ path ∈ files, file? ≠ some path).flatMap fun file? => (located file?).map (·.error))
  total : (s.files.map (·.forest.next)).sum + s.sourceErrors.length =
    (files.eraseDups.map table.entriesOf).sum + reports.length

namespace Snapshot

variable {root : String} {files : List String} {output : List Char}

/-- The source errors of an output are those of the files that were not requested. -/
theorem sourceErrorsOf_ofOutput :
    sourceErrorsOf (Diagnostic.ofOutput root output) files =
      (((Diagnostic.parseAll output).map (·.file? root)).eraseDups.filter fun file? =>
        ∀ path ∈ files, file? ≠ some path).flatMap fun file? =>
          (Diagnostic.gathered root (Diagnostic.parseAll output) file?).map (·.error) := by
  rw [sourceErrorsOf, Diagnostic.groups_ofOutput, List.flatMap_map]
  generalize ((Diagnostic.parseAll output).map (·.file? root)).eraseDups = keys
  induction keys with
  | nil => rfl
  | cons file? keys ih =>
      rw [List.flatMap_cons, List.filter_cons, ih]
      have requested : (file?.any files.contains = true) ↔ ¬ ∀ path ∈ files, file? ≠ some path := by
        cases file? <;> simp
      show (if file?.any files.contains = true then [] else _) ++ _ = _
      by_cases unrequested : ∀ path ∈ files, file? ≠ some path
      · rw [if_neg (fun h => requested.mp h unrequested), if_pos (decide_eq_true unrequested),
          List.flatMap_cons]
      · rw [if_pos (requested.mpr unrequested), if_neg (by simpa using unrequested)]
        rfl

/-- The reports about requested files, and those about others. -/
theorem length_reports (files : List String) (reports : List Diagnostic) :
    (files.eraseDups.map fun path => (Diagnostic.gathered root reports (some path)).length).sum +
      (((reports.map (·.file? root)).eraseDups.filter fun file? =>
        ∀ path ∈ files, file? ≠ some path).map fun file? =>
          (Diagnostic.gathered root reports file?).length).sum = reports.length := by
  have requested := Diagnostic.length_gathered root reports
    ((nodup_eraseDups files).map (Option.some_injective _))
  rw [List.map_map] at requested
  have others := Diagnostic.length_gathered root reports
    ((nodup_eraseDups (reports.map (·.file? root))).filter
      fun file? => ∀ path ∈ files, file? ≠ some path)
  have split := (List.filter_append_perm
    (fun d : Diagnostic => d.file? root ∈ files.eraseDups.map some) reports).length_eq
  rw [List.length_append] at split
  have rest : (reports.filter fun d =>
        !decide (d.file? root ∈ files.eraseDups.map some)) =
      reports.filter fun d => d.file? root ∈ (reports.map (·.file? root)).eraseDups.filter
        fun file? => ∀ path ∈ files, file? ≠ some path := by
    apply List.filter_congr
    intro d mem
    have known : d.file? root ∈ reports.map (·.file? root) := List.mem_map_of_mem mem
    rw [← decide_not, decide_eq_decide, List.mem_filter, List.mem_eraseDups,
      and_iff_right known, decide_eq_true_iff]
    simp [eq_comm]
  rw [rest] at split
  rw [← split, ← others, ← requested]
  rfl

/-- **Every snapshot accounts for the reports of its output.**  Let the definitions of the
files be sound, with spans that stand for entries in the trees of their files.  Then for every
output, every root and all requested paths there is a snapshot, and in it each report is
exactly one entry of a requested file or exactly one error of the sources. -/
theorem accounts_of_assemble {table : DefinitionTable} (sound : table.Sound)
    (rooted : table.Rooted) (root : String) (paths : List String) (output : List Char) :
    ∃ s, assemble (Diagnostic.ofOutput root output) (paths.map (Path.resolveText root)) table =
        .ok s ∧
      s.Accounts table root (paths.map (Path.resolveText root)) (Diagnostic.parseAll output) := by
  have nonempty : ∀ file ∈ paths.map (Path.resolveText root), file ≠ "" := by
    intro file mem
    obtain ⟨path, -, rfl⟩ := List.mem_map.mp mem
    exact Path.resolveText_ne_empty root path
  obtain ⟨s, assembled, errors, each⟩ :=
    exists_assemble_annotates sound nonempty (Diagnostic.ofOutput root output)
  generalize paths.map (Path.resolveText root) = files at *
  generalize reported : Diagnostic.parseAll output = reports at *
  rw [requested_eq] at errors each
  have accounts : List.Forall₂ (fun path r => ∃ d, table.Gives path d ∧
      r.Accounts d (Diagnostic.gathered root reports (some path))) files.eraseDups s.files := by
    refine each.imp ?_
    rintro path r ⟨d, gives, annotates⟩
    rw [Diagnostic.getD_get?_ofOutput, reported] at annotates
    exact ⟨d, gives, annotates.accounts (gives.rooted rooted)⟩
  rw [sourceErrorsOf_ofOutput, reported] at errors
  simp only [List.mem_eraseDups] at errors
  refine ⟨s, assembled, ?_, ⟨_, Diagnostic.gathered_perm root reports, errors⟩, ?_⟩
  · refine accounts.imp ?_
    rintro path r ⟨d, gives, accounts⟩
    exact ⟨d, _, gives, Diagnostic.gathered_perm root reports _, accounts⟩
  · have entries : (s.files.map (·.forest.next)).sum = _ := sum_of_forall₂ (accounts.imp (by
      rintro path r ⟨d, gives, accounts⟩
      exact gives.next_eq ▸ accounts.size))
    rw [entries, errors, List.length_flatMap, Nat.add_assoc]
    simp only [List.length_map]
    rw [length_reports]

/-- An output about a file in two spellings, another file, and the project as a whole. -/
def outputOfFour : List Char :=
  "a.ts(1,4): error TS1: m\nc.ts(2,1): error TS2: n\n./a.ts(1,1): error TS3: o\nerror TS4: p".toList

theorem nestedTable_rooted : nestedTable.Rooted := by
  intro entry mem
  cases List.mem_singleton.mp mem
  have outer : nestedGroups.forest.Below 0 1 := .single (by decide)
  intro span mem
  cases List.mem_singleton.mp mem
  exact outer.tail (by decide)

/-- Two spellings of a requested file, one that is not requested, and the project as a whole:
two entries and two errors. -/
theorem accounts_of_assemble_nested :
    ∃ s, assemble (Diagnostic.ofOutput "/" outputOfFour)
        (["a.ts", "./b.ts", "/a.ts"].map (Path.resolveText "/")) nestedTable = .ok s ∧
      s.files.map (·.forest.next) = [6, 1] ∧
      s.sourceErrors = [⟨"TS2: n", [⟨"/c.ts", some 2, some 1⟩]⟩, ⟨"TS4: p", []⟩] ∧
      s.Accounts nestedTable "/" (["a.ts", "./b.ts", "/a.ts"].map (Path.resolveText "/"))
        (Diagnostic.parseAll outputOfFour) := by
  obtain ⟨s, assembled, accounts⟩ := accounts_of_assemble nestedTable_sound nestedTable_rooted "/"
    ["a.ts", "./b.ts", "/a.ts"] outputOfFour
  have outcome : (assemble (Diagnostic.ofOutput "/" outputOfFour)
      (["a.ts", "./b.ts", "/a.ts"].map (Path.resolveText "/")) nestedTable).toOption.map
        (fun s => (s.files.map (·.forest.next), s.sourceErrors)) =
      some ([6, 1], [⟨"TS2: n", [⟨"/c.ts", some 2, some 1⟩]⟩, ⟨"TS4: p", []⟩]) := by
    decide +kernel
  rw [assembled] at outcome
  obtain ⟨sizes, errors⟩ := Prod.mk.inj (Option.some.inj outcome)
  exact ⟨s, assembled, sizes, errors, accounts⟩

end Snapshot

end TypeVerdict
