import TypeVerdict.Proofs.Accounting

/-!
# Which entries the groups of a file receive

The diagnostics of a file come in one list, whoever they belong to, and the number in the name of
a new entry is counted anew each time, from what its owner owns at that moment.  `Annotated` says
which entries there are and who owns them, but not how they are named.  What is left is to see that
counting gives the same numbers as telling the diagnostics of each owner apart beforehand: an owner
has the type errors it was collected with, of which none is lost or changed, and one for each
diagnostic so far that belongs to it.

So the outcome for one group does not depend on what belongs to the others.  Behind the entries it
was collected with it has one for each diagnostic that belongs to it, in the order of these, and
they are numbered onwards from the type errors among the former.

## Main definitions

* `TypeError.label`: the name of a numbered type error
* `Task.Stands`: a numbered entry that stands for a report
* `Numbered`: a forest after some diagnostics, with the numbers of the new entries
* `Record.Attaches`: a file's record, group by group

## Main statements

* `Annotated.errorCount_eq`: the type errors of a group after some diagnostics
* `Numbered.attachOne`: one diagnostic more
* `Numbered.received`: the new entries of one group
* `Snapshot.attached_of_assemble`: the records of a snapshot, group by group
-/

namespace TypeVerdict

/-- The name of a numbered type error, under its code if one is known. -/
def TypeError.label (code? : Option Nat) (ordinal : Nat) : String :=
  let label := s!"type error #{ordinal}"
  match code? with
  | some code => s!"TS{code}: {label}"
  | none => label

/-- **A numbered entry that stands for a report**: it is named by its number among the type errors
of its owner. -/
structure Task.Stands (task : Task) (owner : Key) (group : Task) (file : Key)
    (report : LocatedDiagnostic) (ordinal : Nat) : Prop
    extends task.Reports owner group file report.error where
  id : task.id = s!"{group.id}_typecheck_{ordinal}"
  name : task.name = TypeError.label report.diagnostic.code? ordinal

namespace Forest

variable {f f' : Forest} {owner file k : Key} {code? : Option Int} {error : TypeError}
  {group task t : Task} {tasks : List Key}

/-- The entry of a type error is numbered behind those of its owner. -/
theorem id_of_errorTask {file? : Option Key} (found : f.get? owner = some group)
    (owns : group.shape.tasks? = some tasks)
    (made : f.errorTask owner file? code? error = .ok task) :
    task.id = s!"{group.id}_typecheck_{f.errorCount tasks + 1}" := by
  simp only [errorTask, found, owns, Except.ok.injEq] at made
  rw [← made]

theorem name_of_errorTask {file? : Option Key} {code? : Option Nat}
    (found : f.get? owner = some group) (owns : group.shape.tasks? = some tasks)
    (made : f.errorTask owner file? (code?.map Int.ofNat) error = .ok task) :
    task.name = TypeError.label code? (f.errorCount tasks + 1) := by
  simp only [errorTask, found, owns, Except.ok.injEq] at made
  rw [← made]
  cases code? <;> rfl

/-- What attaching an error adds is the entry made for it. -/
theorem get?_next_of_attach (found : f.get? owner = some group)
    (attached : f.attach owner file code? error = .ok f') :
    ∃ task, f.errorTask owner (some file) code? error = .ok task ∧ f'.get? f.next = some task := by
  unfold attach at attached
  cases made : f.errorTask owner (some file) code? error with
  | error e =>
      rw [made] at attached
      cases attached
  | ok task =>
      rw [made] at attached
      cases attached
      refine ⟨task, rfl, ?_⟩
      have next : (if task.hasFailed = true then f.failLineage owner else f).next = f.next := by
        split <;> simp
      show (((if task.hasFailed = true then f.failLineage owner else f).insert task).own owner
        f.next).get? f.next = some task
      rw [get?_own, get?_insert, next, if_pos rfl, Option.map_some,
        if_neg (Nat.ne_of_lt (lt_next_of_get? found))]

/-- No entry is renamed. -/
theorem exists_get?_of_attach (found : f.get? owner = some group)
    (owns : group.shape.tasks? = some tasks)
    (attached : f.attach owner file code? error = .ok f') (before : f.get? k = some t) :
    ∃ t', f'.get? k = some t' ∧ t'.id = t.id ∧ t'.name = t.name := by
  obtain ⟨f'', task, same, -, -, -, others⟩ := exists_attach file code? error found owns
  rw [attached] at same
  cases same
  exact ⟨_, others k t before, rfl, rfl⟩

end Forest

/-! ### Counting the type errors of a group -/

@[simp] theorem Shape.push_eq_typecheck_iff (shape : Shape) (k : Key) :
    shape.push k = .typecheck ↔ shape = .typecheck := by
  cases shape <;> simp [push]

@[simp] theorem Shape.receive_eq_typecheck_iff (shape : Shape) (keys : List Key) :
    shape.receive keys = .typecheck ↔ shape = .typecheck := by
  unfold receive
  induction keys generalizing shape with
  | nil => rfl
  | cons k keys ih => rw [List.foldl_cons, ih, push_eq_typecheck_iff]

section Numbering

variable {d : Definitions} {projection : Projection} {done : List LocatedDiagnostic}
  {located : LocatedDiagnostic} {f f' : Forest} {k : Key}

/-- The diagnostics that belong to an entry, in their order. -/
def Definitions.belonging (d : Definitions) (projection : Projection)
    (diagnostics : List LocatedDiagnostic) (k : Key) : List LocatedDiagnostic :=
  diagnostics.filter fun located => d.owner projection located.diagnostic = k

theorem belonging_append_singleton :
    d.belonging projection (done ++ [located]) k = d.belonging projection done k ++
      if d.owner projection located.diagnostic = k then [located] else [] := by
  unfold Definitions.belonging
  rw [List.filter_append]
  by_cases same : d.owner projection located.diagnostic = k <;> simp [same]

theorem length_received :
    (d.received projection done k).length = (d.belonging projection done k).length := by
  induction done using List.reverseRecOn with
  | nil => rfl
  | append_singleton done located ih =>
      rw [received_append_singleton, belonging_append_singleton, List.length_append,
        List.length_append, ih]
      split <;> rfl

/-- **The type errors of a group after some diagnostics**: those it was collected with, and one for
each diagnostic that belongs to it. -/
theorem Annotated.errorCount_eq (h : Annotated d projection done f) (sound : d.Sound)
    {tasks : List Key} (owns : d.forest.tasksOf? k = some tasks) :
    f.errorCount (tasks ++ d.received projection done k) =
      d.forest.errorCount tasks + (d.belonging projection done k).length := by
  have collected : f.errorCount tasks = d.forest.errorCount tasks := by
    unfold Forest.errorCount
    refine List.countP_congr fun c mem => ?_
    have inside : c < d.forest.next :=
      sound.closed.owned_lt c (by rwa [Forest.owned, owns])
    obtain ⟨t, ht⟩ := Forest.exists_get? inside
    rw [h.old c t ht, ht]
    simp [Task.isTypecheck, Definitions.annotate]
  have new : f.errorCount (d.received projection done k) =
      (d.received projection done k).length := by
    unfold Forest.errorCount
    refine List.countP_eq_length.mpr fun c mem => ?_
    obtain ⟨i, other, found, -, rfl⟩ := mem_received_iff.mp mem
    obtain ⟨group, task, -, inserted, reports⟩ := h.new i other found
    rw [inserted]
    simp [Task.isTypecheck, reports.shape]
  rw [← length_received, ← collected, ← new]
  exact List.countP_append

/-- **A forest after some diagnostics, with the numbers of the new entries**: each is numbered
behind the type errors its owner was collected with and the earlier diagnostics that belong to
it. -/
structure Numbered (d : Definitions) (projection : Projection) (done : List LocatedDiagnostic)
    (f : Forest) : Prop extends Annotated d projection done f where
  numbers : ∀ (i : Nat) (located : LocatedDiagnostic), done[i]? = some located →
    ∀ owner, owner = d.owner projection located.diagnostic → ∃ group task,
      d.forest.get? owner = some group ∧ f.get? (d.forest.next + i) = some task ∧
      task.Stands owner group d.file located (d.forest.errorCount (d.forest.owned owner) +
        (d.belonging projection (done.take i) owner).length + 1)

namespace Numbered

theorem nil : Numbered d projection [] d.forest where
  toAnnotated := .nil
  numbers i located found := by simp at found

/-- **One diagnostic more** is numbered behind those before it. -/
theorem attachOne (h : Numbered d projection done f) (sound : d.Sound)
    (located : LocatedDiagnostic) :
    ∃ f', d.attachOne projection f located = .ok f' ∧
      Numbered d projection (done ++ [located]) f' := by
  obtain ⟨f', attached, annotated⟩ := h.toAnnotated.attachOne sound located
  refine ⟨f', attached, annotated, ?_⟩
  obtain ⟨group, tasks, found, owns⟩ := (sound.isSuite_owner projection located.diagnostic).get?
  have tasksOf : d.forest.tasksOf? (d.owner projection located.diagnostic) = some tasks := by
    rw [Forest.tasksOf?, found, Option.bind_some, owns]
  have grown : (d.annotate projection done (d.owner projection located.diagnostic)
      group).shape.tasks? = some (tasks ++ d.received projection done
        (d.owner projection located.diagnostic)) := by
    rw [Definitions.annotate, Shape.tasks?_receive, owns]
    rfl
  have here := h.old _ group found
  rintro i other hother _ rfl
  obtain ⟨group', task', found', inserted, reports⟩ := annotated.new i other hother
  refine ⟨group', task', found', inserted, ?_⟩
  by_cases last : i = done.length
  · -- the entry of the diagnostic itself, numbered by what its owner owns now
    obtain rfl : other = located := by simpa [last] using hother.symm
    obtain rfl : group' = group := Option.some.inj (found'.symm.trans found)
    obtain ⟨task, made, new⟩ := Forest.get?_next_of_attach here attached
    rw [h.next, ← last, inserted] at new
    obtain rfl := Option.some.inj new
    have id := Forest.id_of_errorTask here grown made
    have name := Forest.name_of_errorTask here grown made
    rw [h.errorCount_eq sound tasksOf] at id name
    rw [last, List.take_left, Forest.owned, tasksOf, Option.getD_some]
    exact ⟨reports, id, name⟩
  · -- the entry of an earlier one, which keeps its name
    have earlier : i < done.length := by
      have := (List.getElem?_eq_some_iff.mp hother).1
      rw [List.length_append, List.length_singleton] at this
      omega
    rw [List.getElem?_append_left earlier] at hother
    obtain ⟨group'', task, found'', before, stands⟩ := h.numbers i other hother _ rfl
    obtain rfl : group' = group'' := Option.some.inj (found'.symm.trans found'')
    obtain ⟨t, after, id, name⟩ := Forest.exists_get?_of_attach here grown attached before
    obtain rfl : t = task' := Option.some.inj (after.symm.trans inserted)
    rw [List.take_append_of_le_length earlier.le]
    exact ⟨reports, id.trans stands.id, name.trans stands.name⟩

theorem foldlM (sound : d.Sound) (more : List LocatedDiagnostic)
    (h : Numbered d projection done f) :
    ∃ f', more.foldlM (d.attachOne projection) f = .ok f' ∧
      Numbered d projection (done ++ more) f' := by
  induction more generalizing done f with
  | nil => exact ⟨f, rfl, by rwa [List.append_nil]⟩
  | cons located more ih =>
      obtain ⟨next, attached, numbered⟩ := h.attachOne sound located
      obtain ⟨f', rest, all⟩ := ih numbered
      refine ⟨f', ?_, ?_⟩
      · rw [List.foldlM_cons, attached]
        exact rest
      · rwa [List.append_assoc] at all

end Numbered

/-- The keys an entry receives are those of the diagnostics that belong to it, one after the other,
each with the number of those before it. -/
theorem forall₂_received :
    List.Forall₂ (fun (numbered : LocatedDiagnostic × Nat) c => ∃ i, done[i]? = some numbered.1 ∧
        k = d.owner projection numbered.1.diagnostic ∧ c = d.forest.next + i ∧
        numbered.2 = (d.belonging projection (done.take i) k).length)
      (d.belonging projection done k).zipIdx (d.received projection done k) := by
  induction done using List.reverseRecOn with
  | nil => exact .nil
  | append_singleton done located ih =>
      rw [received_append_singleton, belonging_append_singleton, List.zipIdx_append]
      have before := ih.imp (S := fun numbered c => ∃ i,
          (done ++ [located])[i]? = some numbered.1 ∧
          k = d.owner projection numbered.1.diagnostic ∧ c = d.forest.next + i ∧
          numbered.2 = (d.belonging projection ((done ++ [located]).take i) k).length) (by
        rintro ⟨report, j⟩ c ⟨i, found, owner, rfl, count⟩
        have inside : i < done.length := (List.getElem?_eq_some_iff.mp found).1
        refine ⟨i, ?_, owner, rfl, ?_⟩
        · rwa [List.getElem?_append_left inside]
        · rwa [List.take_append_of_le_length inside.le])
      refine List.rel_append before ?_
      by_cases same : d.owner projection located.diagnostic = k
      · rw [if_pos same, if_pos same]
        exact .cons ⟨done.length, by simp, same.symm, rfl, by simp⟩ .nil
      · rw [if_neg same, if_neg same]
        exact .nil

/-- **The new entries of one group** stand for the diagnostics that belong to it, in their order,
numbered onwards from the type errors it was collected with. -/
theorem Numbered.received (h : Numbered d projection done f) {group : Task}
    (found : d.forest.get? k = some group) :
    List.Forall₂ (fun (numbered : LocatedDiagnostic × Nat) c => ∃ task, f.get? c = some task ∧
        task.Stands k group d.file numbered.1
          (d.forest.errorCount (d.forest.owned k) + numbered.2 + 1))
      (d.belonging projection done k).zipIdx (d.received projection done k) := by
  refine forall₂_received.imp ?_
  rintro ⟨report, j⟩ c ⟨i, place, owner, rfl, rfl⟩
  obtain ⟨group', task, found', inserted, stands⟩ := h.numbers i report place k owner
  obtain rfl : group = group' := Option.some.inj (found.symm.trans found')
  exact ⟨task, inserted, stands⟩

/-- All diagnostics of a file are attached with their numbers. -/
theorem Definitions.Sound.numbered_of_attachAll (sound : d.Sound)
    {diagnostics : List LocatedDiagnostic} {forest : Forest}
    (map : Projection.ofSource d.sourceMap? = .ok projection)
    (attached : d.attachAll diagnostics = .ok forest) :
    Numbered d projection diagnostics forest := by
  cases diagnostics with
  | nil =>
      cases attached
      exact .nil
  | cons located more =>
      obtain ⟨forest', all, numbered⟩ :=
        Numbered.foldlM sound (located :: more) (Numbered.nil : Numbered d projection [] _)
      rw [Definitions.attachAll, map] at attached
      · replace attached : Except.mapError _ (List.foldlM _ _ _) = _ := attached
        rw [all] at attached
        cases attached
        exact numbered
      · simp

end Numbering

/-! ### Whole snapshots -/

/-- **A file's record, group by group.**  A collected entry is there with the entries that it owned,
followed by one for each report that belongs to it, in the order of the reports and numbered onwards
from the type errors that it owned; apart from these and its result it is what it was. -/
structure Record.Attaches (r : Record) (d : Definitions) (reports : List LocatedDiagnostic) :
    Prop where
  file : r.file = d.file
  entries : ∃ projection, Projection.ofSource d.sourceMap? = .ok projection ∧
    ∀ k t, d.forest.get? k = some t → ∃ keys result?,
      r.forest.get? k = some { t with shape := t.shape.receive keys, result? := result? } ∧
      r.forest.tasksOf? k = (d.forest.tasksOf? k).map (· ++ keys) ∧
      keys.Nodup ∧ (∀ c ∈ keys, d.forest.next ≤ c) ∧
      List.Forall₂ (fun (numbered : LocatedDiagnostic × Nat) c => ∃ task,
          r.forest.get? c = some task ∧
          task.Stands k t r.file numbered.1
            (d.forest.errorCount (d.forest.owned k) + numbered.2 + 1))
        (reports.filter fun report => d.owner projection report.diagnostic = k).zipIdx keys

namespace Record

variable {r : Record} {d : Definitions} {reports : List LocatedDiagnostic}

theorem attaches_of_attachAll (sound : d.Sound) (file : r.file = d.file)
    (attached : d.attachAll reports = .ok r.forest) : r.Attaches d reports := by
  obtain ⟨projection, map⟩ := sound.map
  have numbered := sound.numbered_of_attachAll map attached
  refine ⟨file, projection, map, fun k t ht => ?_⟩
  have after := numbered.old k t ht
  refine ⟨d.received projection reports k, _, after, ?_, Annotated.nodup_received, ?_, ?_⟩
  · rw [Forest.tasksOf?, Forest.tasksOf?, after, ht]
    exact Shape.tasks?_receive _ _
  · intro c mem
    obtain ⟨i, -, -, -, rfl⟩ := mem_received_iff.mp mem
    exact Nat.le_add_right _ _
  · rw [file]
    exact numbered.received ht

end Record

namespace Snapshot

/-- **Attachment is exact.**  Let the definitions of the files be sound, whatever the trees and the
modes in them are.  Then every list of diagnostics has a snapshot, and its record of a file has, for
every group, the entries that the group was collected with, followed by one for each diagnostic of
the file that belongs to the group, in the order of the list.  The entry behind `j` others of these
is the type error of the number `c + j + 1`, if the group was collected with `c` type errors; it has
the group's mode, the state of that mode, and the error of its diagnostic just if the group runs. -/
theorem attached_of_assemble {table : DefinitionTable} {files : List String} (sound : table.Sound)
    (nonempty : ∀ file ∈ files, file ≠ "")
    (diagnostics : Grouping (Option String) LocatedDiagnostic) :
    ∃ snapshot, assemble diagnostics files table = .ok snapshot ∧
      List.Forall₂ (fun path r => ∃ d, table.Gives path d ∧
        r.Attaches d ((diagnostics.get? (some path)).getD [])) (requested files)
        snapshot.files := by
  have one : ∀ path ∈ requested files, ∃ r, record diagnostics table path = .ok r ∧
      ∃ d, table.Gives path d ∧ r.Attaches d ((diagnostics.get? (some path)).getD []) := by
    intro path mem
    obtain ⟨r, made, -⟩ :=
      exists_record_annotates sound diagnostics (nonempty path (mem_of_mem_requested mem))
    obtain ⟨d, gives, file, attached⟩ := exists_gives_of_record made
    exact ⟨r, made, d, gives, Record.attaches_of_attachAll (gives.sound sound) file attached⟩
  obtain ⟨records, hrecords, each⟩ := Except.exists_mapM one
  refine ⟨⟨records, sourceErrorsOf diagnostics (requested files)⟩, ?_, each⟩
  rw [assemble, hrecords]
  rfl

/-- A file with a group that has a type error already. -/
def reportedGroup : Definitions :=
  Collected.definitions {
    forest := ⟨#[
      { id := "f", name := "f", shape := .file "/a.ts" [1], file? := some 0 },
      { id := "s", name := "s", shape := .suite [2], suite? := some 0, file? := some 0 },
      { id := "s_typecheck_1", name := "type error #1", shape := .typecheck, suite? := some 1,
        file? := some 0 }]⟩
    file := 0
    spans := [⟨0, 2, 1, by decide⟩]
    text := "s()f".toList }

theorem reportedGroup_sound : DefinitionTable.Sound [("/a.ts", reportedGroup)] := by
  intro entry mem
  cases List.mem_singleton.mp mem
  refine ⟨⟨⟨_, rfl⟩, ?_, ⟨_, rfl⟩⟩, by decide⟩
  intro span mem
  cases List.mem_singleton.mp mem
  exact ⟨[2], rfl⟩

/-- Two reports inside the group, with one about the file between them. -/
def reportsInTurn : Grouping (Option String) LocatedDiagnostic :=
  Diagnostic.ofOutput "/"
    "a.ts(1,1): error TS1: m\na.ts(1,4): error TS2: n\na.ts(1,2): error TS3: o".toList

/-- The file with the reports: the group has received its second and its third type error, and the
file its first. -/
def reportedRecord : Record where
  forest := ⟨#[
    { id := "f", name := "f", shape := .file "/a.ts" [1, 4], file? := some 0,
      result? := some ⟨.fail, none⟩ },
    { id := "s", name := "s", shape := .suite [2, 3, 5], suite? := some 0, file? := some 0,
      result? := some ⟨.fail, none⟩ },
    { id := "s_typecheck_1", name := "type error #1", shape := .typecheck, suite? := some 1,
      file? := some 0 },
    { id := "s_typecheck_2", name := "TS1: type error #2", shape := .typecheck, suite? := some 1,
      file? := some 0, result? := some ⟨.fail, some ⟨"TS1: m", [⟨"/a.ts", some 1, some 1⟩]⟩⟩ },
    { id := "f_typecheck_1", name := "TS2: type error #1", shape := .typecheck, suite? := some 0,
      file? := some 0, result? := some ⟨.fail, some ⟨"TS2: n", [⟨"/a.ts", some 1, some 4⟩]⟩⟩ },
    { id := "s_typecheck_3", name := "TS3: type error #3", shape := .typecheck, suite? := some 1,
      file? := some 0,
      result? := some ⟨.fail, some ⟨"TS3: o", [⟨"/a.ts", some 1, some 2⟩]⟩⟩ }]⟩
  file := 0

/-- The numbers go on from the type error that the group had. -/
theorem attached_of_assemble_reported :
    assemble reportsInTurn ["/a.ts"] [("/a.ts", reportedGroup)] = .ok ⟨[reportedRecord], []⟩ ∧
      List.Forall₂ (fun path r => ∃ d, DefinitionTable.Gives [("/a.ts", reportedGroup)] path d ∧
        r.Attaches d ((reportsInTurn.get? (some path)).getD [])) (requested ["/a.ts"])
        [reportedRecord] := by
  obtain ⟨snapshot, assembled, attached⟩ := attached_of_assemble reportedGroup_sound
    (show ∀ file ∈ ["/a.ts"], file ≠ "" by decide) reportsInTurn
  have outcome : (assemble reportsInTurn ["/a.ts"] [("/a.ts", reportedGroup)]).toOption =
      some ⟨[reportedRecord], []⟩ := by
    decide +kernel
  rw [assembled] at outcome
  obtain rfl : snapshot = ⟨[reportedRecord], []⟩ := Option.some.inj outcome
  exact ⟨assembled, attached⟩

end Snapshot

end TypeVerdict
