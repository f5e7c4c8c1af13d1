import TypeVerdict.Proofs.Except
import TypeVerdict.Snapshot.Assembly

/-!
# When a snapshot can be assembled

A collector promises definitions whose spans stand for entries that can own others,
and a source map that can be judged.  For such definitions every output of a
checker has a snapshot: attaching a diagnostic never turns an owner into something
else, so one diagnostic after the other finds its place.

## Main definitions

* `Forest.IsSuite`: an entry that can own others
* `Definitions.Proper`: what a collector promises
* `DefinitionTable.Proper`: the same for all files

## Main statements

* `Definitions.Proper.exists_attachAll`: proper definitions take any diagnostics
* `Snapshot.exists_assemble`: over proper definitions every pass has a snapshot
-/

namespace TypeVerdict

/-! ### Owners stay owners -/

namespace Forest

/-- An entry that can own others: a group or a file. -/
def IsSuite (f : Forest) (k : Key) : Prop := ∃ tasks, f.tasksOf? k = some tasks

variable {f : Forest} {k : Key}

theorem IsSuite.get? (h : f.IsSuite k) :
    ∃ t tasks, f.get? k = some t ∧ t.shape.tasks? = some tasks := by
  obtain ⟨tasks, h⟩ := h
  obtain ⟨t, ht, htasks⟩ := Option.bind_eq_some_iff.mp h
  exact ⟨t, tasks, ht, htasks⟩

theorem isSuite_of_get? {t : Task} {tasks : List Key} (ht : f.get? k = some t)
    (htasks : t.shape.tasks? = some tasks) : f.IsSuite k :=
  ⟨tasks, by rw [tasksOf?, ht, Option.bind_some, htasks]⟩

/-- A change that leaves owners owners does so inside a forest. -/
theorem IsSuite.modify (h : f.IsSuite k) (j : Key) {change : Task → Task}
    (keeps : ∀ t, t.shape.tasks?.isSome → (change t).shape.tasks?.isSome) :
    (f.modify j change).IsSuite k := by
  obtain ⟨t, tasks, ht, htasks⟩ := h.get?
  by_cases same : j = k
  · obtain ⟨changed, hchanged⟩ := Option.isSome_iff_exists.mp (keeps t (by simp [htasks]))
    exact isSuite_of_get? (t := change t) (by simp [same, ht]) hchanged
  · exact isSuite_of_get? (by simp [same, ht]) htasks

theorem IsSuite.fail (h : f.IsSuite k) (j : Key) : (f.fail j).IsSuite k :=
  h.modify j fun _ ht => ht

theorem IsSuite.failLineage (h : f.IsSuite k) (j : Key) : (f.failLineage j).IsSuite k := by
  unfold Forest.failLineage
  generalize f.lineage j = keys
  induction keys generalizing f with
  | nil => exact h
  | cons i more ih => exact ih (h.fail i)

theorem IsSuite.insert (h : f.IsSuite k) (t : Task) : (f.insert t).IsSuite k := by
  obtain ⟨u, tasks, hu, htasks⟩ := h.get?
  -- the new entry has a key of its own
  have known : k ≠ f.next := by
    rintro rfl
    simp [Forest.get?, Forest.next] at hu
  exact isSuite_of_get? (by simp [known, hu]) htasks

theorem IsSuite.own (h : f.IsSuite k) (owner child : Key) : (f.own owner child).IsSuite k := by
  refine h.modify owner fun t ht => ?_
  cases hs : t.shape <;> simp_all [Shape.push, Shape.tasks?]

/-- A synthetic entry can be made for any owner. -/
theorem IsSuite.exists_errorTask (h : f.IsSuite k) (file? : Option Key) (code? : Option Int)
    (error : TypeError) : ∃ task, f.errorTask k file? code? error = .ok task := by
  obtain ⟨t, tasks, ht, htasks⟩ := h.get?
  simp [Forest.errorTask, ht, htasks]

/-- Every owner takes a diagnostic, and all owners of the forest are still owners
afterwards. -/
theorem IsSuite.exists_attach {owner : Key} (h : f.IsSuite owner) (file : Key)
    (code? : Option Int) (error : TypeError) :
    ∃ f', f.attach owner file code? error = .ok f' ∧ ∀ k, f.IsSuite k → f'.IsSuite k := by
  obtain ⟨task, htask⟩ := h.exists_errorTask (some file) code? error
  refine ⟨_, by rw [Forest.attach, htask]; rfl, fun k hk => ?_⟩
  refine IsSuite.own (IsSuite.insert ?_ task) owner f.next
  split
  · exact hk.failLineage owner
  · exact hk

end Forest

/-! ### Proper definitions -/

/-- What a collector promises about a file: the file and whatever a span stands for
can own entries, and the source map can be judged. -/
structure Definitions.Proper (d : Definitions) : Prop where
  /-- The file is an entry that can own others. -/
  file : d.forest.IsSuite d.file
  /-- So is every definition. -/
  spans : ∀ span ∈ d.spans, d.forest.IsSuite span.target
  /-- The source map is one, or counts as none. -/
  map : ∃ projection, Projection.ofSource d.sourceMap? = .ok projection

/-- The same for every file of a table. -/
def DefinitionTable.Proper (table : DefinitionTable) : Prop :=
  ∀ entry ∈ table, entry.2.Proper

namespace Definitions

variable {d : Definitions}

/-- Whoever a diagnostic belongs to can own it. -/
theorem Proper.isSuite_owner (h : d.Proper) (projection : Projection)
    (diagnostic : Diagnostic) : d.forest.IsSuite (d.owner projection diagnostic) := by
  unfold owner
  split
  · next span found =>
      obtain ⟨offset, -, found⟩ := Option.bind_eq_some_iff.mp found
      have mem := List.mem_of_find?_eq_some found
      exact h.spans span (List.mem_mergeSort.mp mem)
  · exact h.file

/-- One diagnostic after the other finds its owner, because none of them stops an
owner from being one. -/
theorem Proper.exists_foldlM (h : d.Proper) (projection : Projection)
    (diagnostics : List LocatedDiagnostic) {forest : Forest}
    (owners : ∀ k, d.forest.IsSuite k → forest.IsSuite k) :
    ∃ forest', diagnostics.foldlM (d.attachOne projection) forest = .ok forest' := by
  induction diagnostics generalizing forest with
  | nil => exact ⟨forest, rfl⟩
  | cons located more ih =>
      have owner := owners _ (h.isSuite_owner projection located.diagnostic)
      obtain ⟨next, hnext, kept⟩ := owner.exists_attach d.file
        (located.diagnostic.code?.map Int.ofNat) located.error
      obtain ⟨forest', hrest⟩ := ih fun k hk => kept k (owners k hk)
      refine ⟨forest', ?_⟩
      rw [List.foldlM_cons, attachOne, hnext]
      exact hrest

/-- **Proper definitions take any diagnostics.** -/
theorem Proper.exists_attachAll (h : d.Proper) (diagnostics : List LocatedDiagnostic) :
    ∃ forest, d.attachAll diagnostics = .ok forest := by
  cases diagnostics with
  | nil => exact ⟨d.forest, rfl⟩
  | cons located more =>
      obtain ⟨projection, hmap⟩ := h.map
      obtain ⟨forest, hfold⟩ : ∃ forest,
          (located :: more).foldlM (d.attachOne projection) d.forest = .ok forest :=
        h.exists_foldlM projection (located :: more) fun _ hk => hk
      refine ⟨forest, ?_⟩
      rw [attachAll, hmap]
      · show Except.mapError _ (List.foldlM _ _ _) = _
        rw [hfold]
        rfl
      · simp

/-- A file about which nothing was collected is proper too. -/
theorem exists_bare {path : String} (nonempty : path ≠ "") :
    ∃ d, bare path = .ok d ∧ d.Proper := by
  have file : Task.ofFile path path path =
      .ok { id := path, name := path, shape := .file path [] } := by
    simp [Task.ofFile, nonempty]
  refine ⟨_, by rw [bare, file]; rfl, ⟨?_, by simp, ⟨⟨none⟩, rfl⟩⟩⟩
  exact ⟨[], rfl⟩

end Definitions

/-! ### Every pass has a snapshot -/

namespace Snapshot

variable {table : DefinitionTable}

theorem exists_record (proper : table.Proper)
    (diagnostics : Grouping (Option String) LocatedDiagnostic) {path : String}
    (nonempty : path ≠ "") : ∃ r, record diagnostics table path = .ok r := by
  have ofProper : ∀ d : Definitions, d.Proper → ∃ r : Record,
      (do
        let forest ← d.attachAll ((diagnostics.get? (some path)).getD [])
        return (⟨forest, d.file⟩ : Record)) = Except.ok r := by
    intro d hd
    obtain ⟨forest, hforest⟩ := hd.exists_attachAll ((diagnostics.get? (some path)).getD [])
    exact ⟨⟨forest, d.file⟩, by rw [hforest]; rfl⟩
  cases found : table.lookup path with
  | none =>
      obtain ⟨d, hbare, hd⟩ := Definitions.exists_bare nonempty
      obtain ⟨r, hr⟩ := ofProper d hd
      refine ⟨r, ?_⟩
      simp only [record, found, hbare]
      exact hr
  | some d =>
      obtain ⟨l₁, l₂, rfl, -⟩ := List.lookup_eq_some_iff.mp found
      obtain ⟨r, hr⟩ := ofProper d (proper (path, d) (by simp))
      refine ⟨r, ?_⟩
      simp only [record, found]
      exact hr

/-- A requested file is one of the given ones. -/
theorem mem_of_mem_requested {files : List String} {path : String}
    (h : path ∈ requested files) : path ∈ files := by
  suffices ∀ seen, path ∈ files.foldl
      (fun seen file => if seen.contains file then seen else seen ++ [file]) seen →
      path ∈ seen ∨ path ∈ files by
    simpa using this [] h
  clear h
  induction files with
  | nil => simp
  | cons file more ih =>
      intro seen h
      rcases ih _ h with mem | mem
      · dsimp only at mem
        split at mem
        · exact Or.inl mem
        · rcases List.mem_append.mp mem with mem | mem
          · exact Or.inl mem
          · exact Or.inr (by simp [List.mem_singleton.mp mem])
      · exact Or.inr (List.mem_cons_of_mem file mem)

/-- The records of a snapshot are those of the requested files, one after the other. -/
theorem forall₂_of_assemble {diagnostics : Grouping (Option String) LocatedDiagnostic}
    {files : List String} {table : DefinitionTable} {s : Snapshot}
    (assembled : assemble diagnostics files table = .ok s) :
    List.Forall₂ (fun path r => record diagnostics table path = .ok r) (requested files)
      s.files := by
  obtain ⟨records, recorded, made⟩ := Except.exists_of_bind_eq_ok assembled
  cases made
  exact Except.forall₂_of_mapM recorded

/-- **Over proper definitions every pass has a snapshot**, whatever its
diagnostics, as long as no requested file is named by the empty text. -/
theorem exists_assemble (proper : table.Proper) {files : List String}
    (nonempty : ∀ file ∈ files, file ≠ "")
    (diagnostics : Grouping (Option String) LocatedDiagnostic) :
    ∃ snapshot, assemble diagnostics files table = .ok snapshot := by
  have each : ∀ path ∈ requested files, ∃ r, record diagnostics table path = .ok r ∧ True := by
    intro path mem
    obtain ⟨r, hr⟩ := exists_record proper diagnostics (nonempty path (mem_of_mem_requested mem))
    exact ⟨r, hr, trivial⟩
  obtain ⟨records, hrecords, -⟩ := Except.exists_mapM each
  exact ⟨⟨records, sourceErrorsOf diagnostics (requested files)⟩, by
    rw [assemble, hrecords]
    rfl⟩

end Snapshot

end TypeVerdict
