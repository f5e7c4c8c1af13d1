import TypeVerdict.Proofs.Assembly
import TypeVerdict.Proofs.Lineage

/-!
# What diagnostics do to a file's tree

The diagnostics of a file are attached one after the other, and with each of them an owner
grows, a new entry comes, and results change along a lineage.  After any number of them the
outcome can be told from the forest as it was collected and the list of diagnostics alone
(`Annotated`): the first new entry stands for the first diagnostic, the second for the
second, and so on; an entry that was collected has received the new entries that it owns,
in their order; and its result is that of a type error if an owner in a running mode is
below it, however many there are, and what it was if there is none.

What makes the steps independent of one another is that a new entry owns nothing and is
around nothing.  The references of the collected entries are never changed and, if they all
lead to collected entries, no lineage ever meets a new one.

## Main definitions

* `Definitions.Sound`: what a collector promises, references included
* `Task.Reports`: an entry that stands for a type error
* `Forest.Fails`: an owner in a running mode is this entry or below it
* `Annotated`: a forest after some diagnostics

## Main statements

* `Annotated.attachOne`: one diagnostic more
* `Definitions.Sound.exists_annotated`: all diagnostics of a file
* `Snapshot.exists_assemble_annotates`: the records of a snapshot, file by file
* `Snapshot.states_of_assemble`: the results after all
-/

namespace TypeVerdict

/-! ### Entries that stand for type errors -/

/-- **An entry that stands for a type error**: a synthetic one, owned by a group whose mode it
shares, with a result that has the error if the group runs. -/
structure Task.Reports (task : Task) (owner : Key) (group : Task) (file : Key)
    (error : TypeError) : Prop where
  shape : task.shape = .typecheck
  suite : task.suite? = some owner
  file : task.file? = some file
  mode : task.mode = group.mode
  result : task.result? =
    some ⟨State.ofMode group.mode, if group.mode.isRunning then some error else none⟩

/-- Such an entry failed if the group runs. -/
theorem Task.Reports.hasFailed_iff {task group : Task} {owner file : Key} {error : TypeError}
    (h : task.Reports owner group file error) :
    task.hasFailed = true ↔ group.mode.isRunning = true := by
  simp [Task.hasFailed, h.result, State.ofMode_eq_fail_iff]

@[simp] theorem Shape.tasks?_push (shape : Shape) (k : Key) :
    (shape.push k).tasks? = shape.tasks?.map (· ++ [k]) := by
  cases shape <;> rfl

/-- A shape with several owned entries more. -/
def Shape.receive (shape : Shape) (keys : List Key) : Shape :=
  keys.foldl (fun s k => s.push k) shape

@[simp] theorem Shape.tasks?_receive (shape : Shape) (keys : List Key) :
    (shape.receive keys).tasks? = shape.tasks?.map (· ++ keys) := by
  unfold receive
  induction keys generalizing shape with
  | nil => simp
  | cons k keys ih =>
      rw [List.foldl_cons, ih, tasks?_push, Option.map_map]
      congr 1
      funext tasks
      simp

theorem Shape.receive_append_singleton (shape : Shape) (keys : List Key) (k : Key) :
    shape.receive (keys ++ [k]) = (shape.receive keys).push k := by
  unfold receive
  rw [List.foldl_append]
  rfl

namespace Forest

variable {f f' : Forest} {owner file k : Key} {code? : Option Int} {error : TypeError}

/-- A new entry can be made for an owner, and it stands for its error. -/
theorem exists_reports {group : Task} {tasks : List Key} (found : f.get? owner = some group)
    (owns : group.shape.tasks? = some tasks) :
    ∃ task, f.errorTask owner (some file) code? error = .ok task ∧
      task.Reports owner group file error := by
  cases made : f.errorTask owner (some file) code? error with
  | error e => simp [errorTask, found, owns] at made
  | ok task =>
      refine ⟨task, rfl, ?_⟩
      simp only [errorTask, found, owns, Except.ok.injEq] at made
      subst made
      exact ⟨rfl, rfl, rfl, rfl, by simp only [State.ofMode_eq_fail_iff]⟩

/-- A group owns an entry more, and the others are as they were. -/
theorem get?_own (owner child k : Key) :
    (f.own owner child).get? k = (f.get? k).map fun t =>
      if owner = k then { t with shape := t.shape.push child } else t := by
  rw [own, get?_modify]
  split
  · rfl
  · simp

open Classical in
/-- **Attaching an error to an owner**, entry by entry. -/
theorem exists_attach (file : Key) (code? : Option Int) (error : TypeError) {group : Task}
    {tasks : List Key} (found : f.get? owner = some group)
    (owns : group.shape.tasks? = some tasks) :
    ∃ f' task, f.attach owner file code? error = .ok f' ∧
      task.Reports owner group file error ∧ f'.next = f.next + 1 ∧
      f'.get? f.next = some task ∧
      ∀ k t, f.get? k = some t → f'.get? k = some { t with
        shape := if owner = k then t.shape.push f.next else t.shape
        result? := if group.mode.isRunning = true ∧ f.Around owner k
          then some (Result.ofMode t.mode) else t.result? } := by
  obtain ⟨task, made, reports⟩ : ∃ task, f.errorTask owner (some file) code? error = .ok task ∧
      task.Reports owner group file error := exists_reports found owns
  have inside : owner < f.next := lt_next_of_get? found
  refine ⟨_, task, by rw [attach, made]; rfl, reports, ?_, ?_, ?_⟩
  · show ((((if task.hasFailed = true then f.failLineage owner else f).insert task).own owner
      f.next).next = f.next + 1)
    rw [own, next_modify, next_insert]
    split <;> simp
  · show (((if task.hasFailed = true then f.failLineage owner else f).insert task).own owner
      f.next).get? f.next = some task
    have next : (if task.hasFailed = true then f.failLineage owner else f).next = f.next := by
      split <;> simp
    rw [get?_own, get?_insert, next, if_pos rfl, Option.map_some, if_neg (Nat.ne_of_lt inside)]
  · intro k t ht
    have old : k ≠ f.next := Nat.ne_of_lt (lt_next_of_get? ht)
    show (((if task.hasFailed = true then f.failLineage owner else f).insert task).own owner
      f.next).get? k = _
    by_cases runs : group.mode.isRunning = true
    · rw [if_pos (reports.hasFailed_iff.mpr runs), get?_own, get?_insert, next_failLineage,
        if_neg old, get?_failLineage, ht]
      by_cases same : owner = k
      · subst same
        have around : f.Around owner owner := .refl
        simp [around, runs, Task.failed]
      · by_cases around : f.Around owner k <;> simp [same, around, runs, Task.failed]
    · have passed : ¬ task.hasFailed = true := fun h => runs (reports.hasFailed_iff.mp h)
      rw [if_neg passed, get?_own, get?_insert, if_neg old, ht]
      by_cases same : owner = k <;> simp [same, runs]

/-- **An owner in a running mode is this entry or below it.** -/
def Fails (f : Forest) (owners : List Key) (k : Key) : Prop :=
  ∃ owner ∈ owners, ∃ group, f.get? owner = some group ∧ group.mode.isRunning = true ∧
    f.Around owner k

theorem fails_append_singleton {owners : List Key} {group : Task}
    (found : f.get? owner = some group) :
    f.Fails (owners ++ [owner]) k ↔
      f.Fails owners k ∨ group.mode.isRunning = true ∧ f.Around owner k := by
  constructor
  · rintro ⟨other, mem, t, ht, runs, around⟩
    rcases List.mem_append.mp mem with mem | mem
    · exact Or.inl ⟨other, mem, t, ht, runs, around⟩
    · cases List.mem_singleton.mp mem
      rw [found] at ht
      cases ht
      exact Or.inr ⟨runs, around⟩
  · rintro (⟨other, mem, failing⟩ | ⟨runs, around⟩)
    · exact ⟨other, List.mem_append_left _ mem, failing⟩
    · exact ⟨owner, by simp, group, found, runs, around⟩

/-- Only who the owners are matters, not how often and in which order they come. -/
theorem fails_congr {owners owners' : List Key} (same : ∀ k, k ∈ owners ↔ k ∈ owners') :
    f.Fails owners k ↔ f.Fails owners' k := by
  unfold Fails
  constructor
  · rintro ⟨owner, mem, failing⟩
    exact ⟨owner, (same owner).mp mem, failing⟩
  · rintro ⟨owner, mem, failing⟩
    exact ⟨owner, (same owner).mpr mem, failing⟩

end Forest

/-! ### Sound definitions -/

/-- **What a collector promises about a file**, the references in its forest included. -/
structure Definitions.Sound (d : Definitions) : Prop extends d.Proper where
  closed : d.forest.Closed

/-- The same for every file of a table. -/
def DefinitionTable.Sound (table : DefinitionTable) : Prop := ∀ entry ∈ table, entry.2.Sound

namespace Definitions

/-- The owners of some diagnostics, in their order. -/
def ownersBy (d : Definitions) (projection : Projection) (diagnostics : List LocatedDiagnostic) :
    List Key :=
  diagnostics.map fun located => d.owner projection located.diagnostic

/-- **The owners of some diagnostics**: the innermost definitions around their authored
positions, or else the file. -/
def owners (d : Definitions) (diagnostics : List LocatedDiagnostic) : List Key :=
  match Projection.ofSource d.sourceMap? with
  | .ok projection => d.ownersBy projection diagnostics
  | .error _ => []

/-- The keys of the new entries that an entry receives. -/
def received (d : Definitions) (projection : Projection) (diagnostics : List LocatedDiagnostic)
    (k : Key) : List Key :=
  diagnostics.zipIdx.filterMap fun (located, i) =>
    if d.owner projection located.diagnostic = k then some (d.forest.next + i) else none

open Classical in
/-- A collected entry after some diagnostics. -/
noncomputable def annotate (d : Definitions) (projection : Projection)
    (diagnostics : List LocatedDiagnostic) (k : Key) (t : Task) : Task :=
  { t with
    shape := t.shape.receive (d.received projection diagnostics k)
    result? := if d.forest.Fails (d.ownersBy projection diagnostics) k
      then some (Result.ofMode t.mode) else t.result? }

end Definitions

/-- **A forest after some diagnostics.** -/
structure Annotated (d : Definitions) (projection : Projection) (done : List LocatedDiagnostic)
    (f : Forest) : Prop where
  next : f.next = d.forest.next + done.length
  old : ∀ k t, d.forest.get? k = some t → f.get? k = some (d.annotate projection done k t)
  new : ∀ (i : Nat) (located : LocatedDiagnostic), done[i]? = some located →
    ∃ group task, d.forest.get? (d.owner projection located.diagnostic) = some group ∧
      f.get? (d.forest.next + i) = some task ∧
      task.Reports (d.owner projection located.diagnostic) group d.file located.error

section Annotated

variable {d : Definitions} {projection : Projection} {done : List LocatedDiagnostic}
  {located : LocatedDiagnostic} {f : Forest} {k a : Key} {t : Task}

theorem received_append_singleton :
    d.received projection (done ++ [located]) k = d.received projection done k ++
      if d.owner projection located.diagnostic = k then [d.forest.next + done.length] else [] := by
  unfold Definitions.received
  rw [List.zipIdx_append, List.filterMap_append]
  by_cases same : d.owner projection located.diagnostic = k <;> simp [same]

/-- What a collected entry has received are new entries. -/
theorem mem_received_iff {c : Key} :
    c ∈ d.received projection done k ↔ ∃ (i : Nat) (located : LocatedDiagnostic),
      done[i]? = some located ∧ d.owner projection located.diagnostic = k ∧
      c = d.forest.next + i := by
  simp only [Definitions.received, List.mem_filterMap, Prod.exists, Option.ite_none_right_eq_some,
    Option.some.injEq, List.mem_zipIdx_iff_getElem?]
  constructor
  · rintro ⟨located, i, found, owned, rfl⟩
    exact ⟨i, located, found, owned, rfl⟩
  · rintro ⟨i, located, found, owned, rfl⟩
    exact ⟨located, i, found, owned, rfl⟩

theorem annotate_nil : d.annotate projection [] k t = t := by
  have calm : ¬ d.forest.Fails [] k := by
    rintro ⟨_, mem, _⟩
    cases mem
  simp [Definitions.annotate, Definitions.received, Definitions.ownersBy, Shape.receive, calm]

open Classical in
theorem annotate_append_singleton {group : Task}
    (found : d.forest.get? (d.owner projection located.diagnostic) = some group) :
    d.annotate projection (done ++ [located]) k t =
      { d.annotate projection done k t with
        shape := if d.owner projection located.diagnostic = k
          then (d.annotate projection done k t).shape.push (d.forest.next + done.length)
          else (d.annotate projection done k t).shape
        result? := if group.mode.isRunning = true ∧
            d.forest.Around (d.owner projection located.diagnostic) k
          then some (Result.ofMode t.mode) else (d.annotate projection done k t).result? } := by
  have fails : d.forest.Fails (d.ownersBy projection done ++ [_]) k ↔ _ :=
    Forest.fails_append_singleton found
  have owners : d.ownersBy projection (done ++ [located]) =
      d.ownersBy projection done ++ [d.owner projection located.diagnostic] := by
    simp [Definitions.ownersBy]
  unfold Definitions.annotate
  rw [owners, received_append_singleton]
  congr 1
  · split
    · rw [Shape.receive_append_singleton]
    · rw [List.append_nil]
  · by_cases now : group.mode.isRunning = true ∧
        d.forest.Around (d.owner projection located.diagnostic) k
    · rw [if_pos (fails.mpr (Or.inr now)), if_pos now]
    · rw [if_neg now]
      congr 1
      rw [fails, or_iff_left now]

namespace Annotated

/-- A forest to which nothing was attached. -/
theorem nil : Annotated d projection [] d.forest where
  next := rfl
  old k t ht := by rw [annotate_nil, ht]
  new i located found := by simp at found

/-- The references of the collected entries stay as they are. -/
theorem suiteOf?_eq (h : Annotated d projection done f) (inside : k < d.forest.next) :
    f.suiteOf? k = d.forest.suiteOf? k := by
  obtain ⟨t, ht⟩ := Forest.exists_get? inside
  rw [Forest.suiteOf?_eq_some (h.old k t ht), Forest.suiteOf?_eq_some ht]
  rfl

/-- So there is the same around a collected entry as before. -/
theorem around_iff (h : Annotated d projection done f) (closed : d.forest.Closed)
    (inside : k < d.forest.next) : f.Around k a ↔ d.forest.Around k a := by
  constructor
  · intro around
    induction around using Relation.ReflTransGen.head_induction_on with
    | refl => exact .refl
    | head step _ ih =>
        rw [h.suiteOf?_eq inside] at step
        exact .head step (ih (closed.lt_next_of_around (.single step) inside))
  · intro around
    induction around using Relation.ReflTransGen.head_induction_on with
    | refl => exact .refl
    | head step _ ih =>
        have onward := ih (closed.lt_next_of_around (.single step) inside)
        rw [← h.suiteOf?_eq inside] at step
        exact .head step onward

/-- **One diagnostic more** finds its owner, and what it does is as told. -/
theorem attachOne (h : Annotated d projection done f) (sound : d.Sound)
    (located : LocatedDiagnostic) :
    ∃ f', d.attachOne projection f located = .ok f' ∧
      Annotated d projection (done ++ [located]) f' := by
  classical
  obtain ⟨group, tasks, found, owns⟩ := (sound.isSuite_owner projection located.diagnostic).get?
  have inside := Forest.lt_next_of_get? found
  obtain ⟨f', task, attached, reports, next, inserted, others⟩ :=
    Forest.exists_attach d.file (located.diagnostic.code?.map Int.ofNat) located.error
      (h.old _ group found) (by rw [Definitions.annotate, Shape.tasks?_receive, owns]; rfl)
  refine ⟨f', attached, ?_, ?_, ?_⟩
  · rw [next, h.next, List.length_append, List.length_singleton, Nat.add_assoc]
  · intro k t ht
    rw [others k _ (h.old k t ht), annotate_append_singleton found, h.next]
    have around := h.around_iff (a := k) sound.closed inside
    simp only [around]
    rfl
  · intro i other hother
    by_cases last : i = done.length
    · -- the entry of the diagnostic itself
      have same : other = located := by simpa [last] using hother.symm
      subst same
      refine ⟨group, task, found, ?_, reports.shape, reports.suite, reports.file, reports.mode,
        reports.result⟩
      rw [last, ← h.next, inserted]
    · -- the entry of an earlier one, which owns nothing and is around nothing
      have earlier : i < done.length := by
        have := (List.getElem?_eq_some_iff.mp hother).1
        rw [List.length_append, List.length_singleton] at this
        omega
      rw [List.getElem?_append_left earlier] at hother
      obtain ⟨group', task', found', ht', reports'⟩ := h.new i other hother
      refine ⟨group', task', found', ?_, reports'⟩
      have apart : d.owner projection located.diagnostic ≠ d.forest.next + i := by
        have := inside
        unfold Key at *
        omega
      have outside : ¬ f.Around (d.owner projection located.diagnostic) (d.forest.next + i) := by
        rw [h.around_iff sound.closed inside]
        intro around
        have := sound.closed.lt_next_of_around around inside
        exact absurd this (Nat.not_lt.mpr (Nat.le_add_right _ _))
      rw [others _ task' ht', if_neg apart, if_neg (fun both => outside both.2)]

/-- Any number of diagnostics more. -/
theorem foldlM (sound : d.Sound) (more : List LocatedDiagnostic)
    (h : Annotated d projection done f) :
    ∃ f', more.foldlM (d.attachOne projection) f = .ok f' ∧
      Annotated d projection (done ++ more) f' := by
  induction more generalizing done f with
  | nil => exact ⟨f, rfl, by rwa [List.append_nil]⟩
  | cons located more ih =>
      obtain ⟨next, attached, annotated⟩ := h.attachOne sound located
      obtain ⟨f', rest, all⟩ := ih annotated
      refine ⟨f', ?_, ?_⟩
      · rw [List.foldlM_cons, attached]
        exact rest
      · rwa [List.append_assoc] at all

end Annotated

/-- **All diagnostics of a file** can be attached to sound definitions, and what they do is as
told. -/
theorem Definitions.Sound.exists_annotated (sound : d.Sound)
    (diagnostics : List LocatedDiagnostic) :
    ∃ projection forest, Projection.ofSource d.sourceMap? = .ok projection ∧
      d.attachAll diagnostics = .ok forest ∧ Annotated d projection diagnostics forest := by
  obtain ⟨projection, map⟩ := sound.map
  cases diagnostics with
  | nil => exact ⟨projection, d.forest, map, rfl, .nil⟩
  | cons located more =>
      obtain ⟨forest, attached, annotated⟩ :=
        Annotated.foldlM sound (located :: more) (Annotated.nil : Annotated d projection [] _)
      refine ⟨projection, forest, map, ?_, annotated⟩
      rw [Definitions.attachAll, map]
      · show Except.mapError _ (List.foldlM _ _ _) = _
        rw [attached]
        rfl
      · simp

/-- Diagnostics that are taken are attached one after the other, their positions being projected in
some way. -/
theorem Definitions.exists_foldlM_of_attachAll {diagnostics : List LocatedDiagnostic}
    {forest : Forest} (attached : d.attachAll diagnostics = .ok forest) :
    ∃ projection, diagnostics.foldlM (d.attachOne projection) d.forest = .ok forest := by
  cases diagnostics with
  | nil =>
      cases attached
      exact ⟨⟨none⟩, rfl⟩
  | cons located more =>
      cases map : Projection.ofSource d.sourceMap? with
      | error e =>
          simp only [attachAll, map] at attached
          cases attached
      | ok projection =>
          rw [attachAll, map] at attached
          · replace attached : Except.mapError _
                ((located :: more).foldlM (d.attachOne projection) d.forest) = _ := attached
            cases folded : (located :: more).foldlM (d.attachOne projection) d.forest with
            | error e =>
                rw [folded] at attached
                cases attached
            | ok f =>
                rw [folded] at attached
                cases attached
                exact ⟨projection, folded⟩
          · simp

/-- Definitions that take their diagnostics are annotated with them, whatever their source map
is. -/
theorem Definitions.exists_annotated {diagnostics : List LocatedDiagnostic} {forest : Forest}
    (sound : { d with sourceMap? := none : Definitions }.Sound)
    (attached : d.attachAll diagnostics = .ok forest) :
    ∃ projection, Annotated d projection diagnostics forest := by
  obtain ⟨projection, folded⟩ := exists_foldlM_of_attachAll attached
  obtain ⟨f, folded', annotated⟩ := Annotated.foldlM sound diagnostics
    (Annotated.nil : Annotated _ projection [] _)
  cases folded.symm.trans folded'
  exact ⟨projection, annotated.next, annotated.old, annotated.new⟩

end Annotated

/-! ### Whole snapshots -/

/-- The definitions of a file about which nothing was collected. -/
theorem Definitions.eq_of_bare {path : String} {d : Definitions} (h : bare path = .ok d) :
    d = { forest := ⟨#[{ id := path, name := path, shape := .file path [], file? := some 0 }]⟩,
          file := 0 } := by
  have nonempty : path ≠ "" := by
    rintro rfl
    cases h
  have file : Task.ofFile path path path =
      .ok { id := path, name := path, shape := .file path [] } := by
    simp [Task.ofFile, nonempty]
  rw [bare, file] at h
  cases h
  rfl

/-- They are sound. -/
theorem Definitions.sound_of_bare {path : String} {d : Definitions} (h : bare path = .ok d) :
    d.Sound := by
  cases eq_of_bare h
  refine ⟨⟨⟨[], rfl⟩, by simp, ⟨⟨none⟩, rfl⟩⟩, ?_⟩
  intro t mem
  have only : t = { id := path, name := path, shape := .file path [], file? := some 0 } := by
    simpa using mem
  subst only
  simp [Shape.tasks?]

theorem DefinitionTable.Sound.of_lookup {table : DefinitionTable} (h : table.Sound)
    {path : String} {d : Definitions} (found : table.lookup path = some d) : d.Sound := by
  obtain ⟨before, after, rfl, -⟩ := List.lookup_eq_some_iff.mp found
  exact h (path, d) (by simp)

/-- **The definitions of a requested file**: those of the table, or else the file alone. -/
def DefinitionTable.Gives (table : DefinitionTable) (path : String) (d : Definitions) : Prop :=
  table.lookup path = some d ∨ table.lookup path = none ∧ Definitions.bare path = .ok d

theorem DefinitionTable.Gives.sound {table : DefinitionTable} {path : String} {d : Definitions}
    (h : table.Gives path d) (sound : table.Sound) : d.Sound := by
  rcases h with found | ⟨-, bare⟩
  · exact sound.of_lookup found
  · exact Definitions.sound_of_bare bare

/-- **A record of annotated definitions.** -/
structure Record.Annotates (r : Record) (d : Definitions) (diagnostics : List LocatedDiagnostic) :
    Prop where
  sound : d.Sound
  file : r.file = d.file
  forest : ∃ projection, Projection.ofSource d.sourceMap? = .ok projection ∧
    Annotated d projection diagnostics r.forest

namespace Snapshot

variable {table : DefinitionTable} {files : List String}

/-- A record is that of the definitions of its file: known or bare, these take the reports in the
same way. -/
theorem exists_gives_of_record {diagnostics : Grouping (Option String) LocatedDiagnostic}
    {path : String} {r : Record} (h : record diagnostics table path = .ok r) :
    ∃ d, table.Gives path d ∧ r.file = d.file ∧
      d.attachAll ((diagnostics.get? (some path)).getD []) = .ok r.forest := by
  have given : ∃ d, table.Gives path d ∧ (do
      let forest ← d.attachAll ((diagnostics.get? (some path)).getD [])
      return (⟨forest, d.file⟩ : Record)) = Except.ok r := by
    cases found : table.lookup path with
    | some d =>
        simp only [record, found] at h
        exact ⟨d, Or.inl found, h⟩
    | none =>
        cases bare : Definitions.bare path with
        | error e =>
            simp only [record, found, bare] at h
            cases h
        | ok d =>
            simp only [record, found, bare] at h
            exact ⟨d, Or.inr ⟨found, bare⟩, h⟩
  obtain ⟨d, gives, h⟩ := given
  cases attached : d.attachAll ((diagnostics.get? (some path)).getD []) with
  | error e =>
      rw [attached] at h
      cases h
  | ok forest =>
      rw [attached] at h
      cases h
      exact ⟨d, gives, rfl, attached⟩

theorem exists_record_annotates (sound : table.Sound)
    (diagnostics : Grouping (Option String) LocatedDiagnostic) {path : String}
    (nonempty : path ≠ "") :
    ∃ r, record diagnostics table path = .ok r ∧ ∃ d, table.Gives path d ∧
      r.Annotates d ((diagnostics.get? (some path)).getD []) := by
  cases found : table.lookup path with
  | some d =>
      obtain ⟨projection, forest, map, attached, annotated⟩ :=
        (sound.of_lookup found).exists_annotated ((diagnostics.get? (some path)).getD [])
      refine ⟨⟨forest, d.file⟩, ?_, d, Or.inl found, sound.of_lookup found, rfl, projection, map,
        annotated⟩
      simp only [record, found]
      show Except.bind (d.attachAll _) _ = _
      rw [attached]
      rfl
  | none =>
      obtain ⟨d, bare, -⟩ := Definitions.exists_bare nonempty
      have soundBare := Definitions.sound_of_bare bare
      obtain ⟨projection, forest, map, attached, annotated⟩ :=
        soundBare.exists_annotated ((diagnostics.get? (some path)).getD [])
      refine ⟨⟨forest, d.file⟩, ?_, d, Or.inr ⟨found, bare⟩, soundBare, rfl, projection, map,
        annotated⟩
      simp only [record, found, bare]
      show Except.bind (d.attachAll _) _ = _
      rw [attached]
      rfl

/-- **The snapshot of a pass over sound definitions**, file by file: there is one, and each of
its records annotates what is known about its file. -/
theorem exists_assemble_annotates (sound : table.Sound) (nonempty : ∀ file ∈ files, file ≠ "")
    (diagnostics : Grouping (Option String) LocatedDiagnostic) :
    ∃ snapshot, assemble diagnostics files table = .ok snapshot ∧
      snapshot.sourceErrors = sourceErrorsOf diagnostics (requested files) ∧
      List.Forall₂ (fun path r => ∃ d, table.Gives path d ∧
        r.Annotates d ((diagnostics.get? (some path)).getD [])) (requested files)
        snapshot.files := by
  have one : ∀ path ∈ requested files, ∃ r, record diagnostics table path = .ok r ∧
      ∃ d, table.Gives path d ∧ r.Annotates d ((diagnostics.get? (some path)).getD []) :=
    fun path mem =>
      exists_record_annotates sound diagnostics (nonempty path (mem_of_mem_requested mem))
  obtain ⟨records, hrecords, each⟩ := Except.exists_mapM one
  refine ⟨⟨records, sourceErrorsOf diagnostics (requested files)⟩, ?_, rfl, each⟩
  rw [assemble, hrecords]
  rfl

end Snapshot

/-! ### Results -/

/-- **The results of a record** are those of type errors where an owner in a running mode is
the entry or below it, and what they were everywhere else. -/
def Record.Marks (r : Record) (d : Definitions) (owners : List Key) : Prop :=
  ∀ k t, d.forest.get? k = some t → ∃ t', r.forest.get? k = some t' ∧ t'.mode = t.mode ∧
    (d.forest.Fails owners k → t'.result? = some (Result.ofMode t.mode)) ∧
    (¬ d.forest.Fails owners k → t'.result? = t.result?)

/-- **A file's record after some reports**: its results depend on who the owners are, and
neither on how many reports they own nor on the order of these. -/
structure Record.MarkedBy (r : Record) (d : Definitions) (reports : List LocatedDiagnostic) :
    Prop where
  file : r.file = d.file
  marks : ∀ owners, (∀ k, k ∈ owners ↔ k ∈ d.owners reports) → r.Marks d owners

theorem Record.Annotates.markedBy {r : Record} {d : Definitions}
    {reports : List LocatedDiagnostic} (h : r.Annotates d reports) : r.MarkedBy d reports := by
  obtain ⟨projection, map, annotated⟩ := h.forest
  refine ⟨h.file, ?_⟩
  intro owners same k t ht
  have own : d.owners reports = d.ownersBy projection reports := by
    rw [Definitions.owners, map]
  rw [own] at same
  have fails := d.forest.fails_congr (k := k) same
  refine ⟨_, annotated.old k t ht, rfl, ?_, ?_⟩
  · intro failing
    exact if_pos (fails.mp failing)
  · intro calm
    exact if_neg fun failing => calm (fails.mpr failing)

/-- **The results after a pass.**  Let the definitions of the files be sound, whatever the
modes in their trees are and whatever results their entries have.  Then every list of
diagnostics has a snapshot.  In its record of a file an entry that was collected has the
result of its mode, without an error, if it is an owner in a running mode or a group around
one, and else the result that it had.  It only matters who the owners are, not how many
diagnostics they own nor in which order. -/
theorem Snapshot.states_of_assemble {table : DefinitionTable} {files : List String}
    (sound : table.Sound) (nonempty : ∀ file ∈ files, file ≠ "")
    (diagnostics : Grouping (Option String) LocatedDiagnostic) :
    ∃ snapshot, assemble diagnostics files table = .ok snapshot ∧
      List.Forall₂ (fun path r => ∃ d, table.Gives path d ∧
        r.MarkedBy d ((diagnostics.get? (some path)).getD [])) (requested files)
        snapshot.files := by
  obtain ⟨snapshot, assembled, -, each⟩ := exists_assemble_annotates sound nonempty diagnostics
  refine ⟨snapshot, assembled, each.imp ?_⟩
  rintro path r ⟨d, gives, annotates⟩
  exact ⟨d, gives, annotates.markedBy⟩

/-- A file with a group that is skipped, a group that runs inside it, and a group besides
them that passed.  Only the span of the inner group is known. -/
def nestedGroups : Definitions :=
  Collected.definitions {
    forest := ⟨#[
      { id := "f", name := "f", shape := .file "/a.ts" [1, 3], file? := some 0 },
      { id := "s", name := "s", shape := .suite [2], mode := .skip, suite? := some 0,
        file? := some 0 },
      { id := "r", name := "r", shape := .suite [], suite? := some 1, file? := some 0 },
      { id := "p", name := "p", shape := .suite [], suite? := some 0, file? := some 0,
        result? := some ⟨.pass, none⟩ }]⟩
    file := 0
    spans := [⟨2, 4, 2, by decide⟩]
    text := "s(r())p;".toList }

/-- A table of this file. -/
def nestedTable : DefinitionTable := [("/a.ts", nestedGroups)]

theorem nestedTable_sound : nestedTable.Sound := by
  intro entry mem
  cases List.mem_singleton.mp mem
  refine ⟨⟨⟨_, rfl⟩, ?_, ⟨_, rfl⟩⟩, by decide⟩
  intro span mem
  cases List.mem_singleton.mp mem
  exact ⟨[], rfl⟩

/-- A report inside the group that runs. -/
def reportInside : Grouping (Option String) LocatedDiagnostic :=
  Diagnostic.ofOutput "/" "a.ts(1,4): error TS1: m".toList

/-- It fails that group and the file, while the skipped group between them stays skipped and
the group besides them passed. -/
theorem Snapshot.states_of_assemble_nested :
    ∃ snapshot, assemble reportInside ["/a.ts"] nestedTable = .ok snapshot ∧
      (snapshot.files.map fun r => r.forest.tasks.toList.map (·.result?)) =
        [[some ⟨.fail, none⟩, some ⟨.skip, none⟩, some ⟨.fail, none⟩, some ⟨.pass, none⟩,
          some ⟨.fail, some ⟨"TS1: m", [⟨"/a.ts", some 1, some 4⟩]⟩⟩]] ∧
      List.Forall₂ (fun path r => ∃ d, nestedTable.Gives path d ∧
        r.MarkedBy d ((reportInside.get? (some path)).getD [])) (requested ["/a.ts"])
        snapshot.files := by
  obtain ⟨snapshot, assembled, marked⟩ := states_of_assemble nestedTable_sound
    (show ∀ file ∈ ["/a.ts"], file ≠ "" by decide) reportInside
  refine ⟨snapshot, assembled, ?_, marked⟩
  have results : (assemble reportInside ["/a.ts"] nestedTable).toOption.map
      (fun s => s.files.map fun r => r.forest.tasks.toList.map (·.result?)) =
      some [[some ⟨.fail, none⟩, some ⟨.skip, none⟩, some ⟨.fail, none⟩, some ⟨.pass, none⟩,
        some ⟨.fail, some ⟨"TS1: m", [⟨"/a.ts", some 1, some 4⟩]⟩⟩]] := by
    decide +kernel
  rw [assembled] at results
  exact Option.some.inj results

end TypeVerdict
