import Mathlib.Data.List.Nodup
import TypeVerdict.Proofs.Attachment

/-!
# Identifiers of new entries

The identifier of a new entry is that of its owner with a word and a number behind it.  Owners can
be called anything, also what an entry of theirs would be called, so the word says nothing about
where the owner's part ends.  The number does: it has no underscore, so it is what is behind the
last one, and both parts can be read back (`Task.typecheckId_inj`).

What is left is that an owner never uses a number twice.  It is counted anew each time, and with
each entry that the owner receives the count has grown (`length_belonging_take_lt`).  So two new
entries of one owner differ by their numbers and those of two owners by what the owners are called,
as long as no two groups of the requested files are called the same.

## Main definitions

* `Definitions.Group`: a group in the tree of a file
* `DefinitionTable.Distinct`: requested files whose groups are told apart by their identifiers
* `Snapshot.created`: the entries that were made for a snapshot

## Main statements

* `Task.typecheckId_inj`: the parts of an identifier
* `Numbered.nodup_ids`: the new entries of one file
* `Snapshot.nodup_ids_of_assemble`: the new entries of a snapshot
-/

namespace TypeVerdict

/-! ### The parts of an identifier -/

/-- What is behind the last of several separators can be told from what is before it. -/
theorem Text.append_cons_inj {sep : Char} {s s' t t' : List Char} (clear : sep ∉ t)
    (clear' : sep ∉ t') (same : s ++ sep :: t = s' ++ sep :: t') : s = s' ∧ t = t' := by
  have pieces := congrArg (splitAt sep) same
  rw [splitAt_append, splitAt_append, splitAt_of_not_mem clear, splitAt_of_not_mem clear'] at pieces
  obtain ⟨front, last⟩ := List.append_inj' pieces rfl
  refine ⟨?_, List.singleton_inj.mp last⟩
  rw [← joinWith_splitAt sep s, front, joinWith_splitAt]

theorem Task.toList_typecheckId (id : String) (n : Nat) :
    s!"{id}_typecheck_{n}".toList =
      (id.toList ++ "_typecheck".toList) ++ '_' :: Nat.toDigits 10 n := by
  have word : "_typecheck_".toList = "_typecheck".toList ++ ['_'] := by decide
  simp only [toString, String.toList_append, Nat.toList_repr, word, List.append_assoc,
    List.singleton_append]

/-- **The identifier of a new entry tells its owner's and its number**, whatever the owner is
called. -/
theorem Task.typecheckId_inj {id other : String} {n m : Nat}
    (same : s!"{id}_typecheck_{n}" = s!"{other}_typecheck_{m}") : id = other ∧ n = m := by
  have chars := congrArg String.toList same
  rw [toList_typecheckId, toList_typecheckId] at chars
  -- the digits behind the last underscore hold none themselves
  obtain ⟨front, digits⟩ := Text.append_cons_inj (Text.not_mem_toDigits rfl n)
    (Text.not_mem_toDigits rfl m) chars
  exact ⟨String.toList_inj.mp (List.append_cancel_right front), Text.toDigits_inj digits⟩

/-! ### Groups of the requested files -/

/-- **A group in the tree of a file**: the file itself, or an entry below it that can own others. -/
structure Definitions.Group (d : Definitions) (k : Key) (group : Task) : Prop where
  below : d.forest.Below d.file k
  isSuite : d.forest.IsSuite k
  found : d.forest.get? k = some group

/-- **Requested files whose groups are told apart by their identifiers**, within one file and from
one file to another.  Of a file about which nothing was collected the only group is the file. -/
structure DefinitionTable.Distinct (table : DefinitionTable) (files : List String) : Prop where
  spanned : ∀ path ∈ files, ∀ d, table.lookup path = some d → d.Spanned
  apart : ∀ path ∈ files, ∀ path' ∈ files, ∀ d d', table.Gives path d → table.Gives path' d' →
    ∀ k k' group group', d.Group k group → d'.Group k' group' → group.id = group'.id →
      path = path' ∧ k = k'

namespace Definitions

variable {d : Definitions}

/-- The owner of a diagnostic is a group of the file. -/
theorem Spanned.group_owner (spanned : d.Spanned) (projection : Projection)
    (diagnostic : Diagnostic) {group : Task}
    (found : d.forest.get? (d.owner projection diagnostic) = some group) :
    d.Group (d.owner projection diagnostic) group where
  below := spanned.rooted.below_owner projection diagnostic
  isSuite := spanned.sound.isSuite_owner projection diagnostic
  found := found

/-- Definitions that take their diagnostics number them, whatever their source map is. -/
theorem Spanned.exists_numbered (spanned : d.Spanned) {diagnostics : List LocatedDiagnostic}
    {forest : Forest} (attached : d.attachAll diagnostics = .ok forest) :
    ∃ projection, Numbered d projection diagnostics forest := by
  obtain ⟨projection, folded⟩ := exists_foldlM_of_attachAll attached
  obtain ⟨f, folded', numbered⟩ := Numbered.foldlM spanned.sound diagnostics
    (Numbered.nil : Numbered _ projection [] _)
  cases folded.symm.trans folded'
  exact ⟨projection, ⟨numbered.next, numbered.old, numbered.new⟩, numbered.numbers⟩

end Definitions

theorem DefinitionTable.Distinct.spanned_of_gives {table : DefinitionTable} {files : List String}
    (distinct : table.Distinct files) {path : String} (requested : path ∈ files) {d : Definitions}
    (gives : table.Gives path d) : d.Spanned := by
  rcases gives with found | ⟨-, bare⟩
  · exact distinct.spanned path requested d found
  · exact Definitions.spanned_of_bare bare

/-! ### The new entries of one file -/

/-- The entries of a forest from a key onwards. -/
def Forest.entriesFrom (f : Forest) (k : Key) : List Task := f.tasks.toList.drop k

theorem Forest.getElem?_entriesFrom (f : Forest) (k i : Nat) :
    (f.entriesFrom k)[i]? = f.get? (k + i) := by
  rw [entriesFrom, List.getElem?_drop, Array.getElem?_toList]
  rfl

theorem Forest.length_entriesFrom (f : Forest) (k : Key) :
    (f.entriesFrom k).length = f.next - k := by
  rw [entriesFrom, List.length_drop, Array.length_toList]
  rfl

section OneFile

variable {d : Definitions} {projection : Projection} {done : List LocatedDiagnostic}
  {located : LocatedDiagnostic} {f : Forest}

variable (d projection) in
/-- **A diagnostic counts for those behind it** that belong to the same entry. -/
theorem length_belonging_take_lt {i j : Nat} (before : i < j) (found : done[i]? = some located) :
    (d.belonging projection (done.take i) (d.owner projection located.diagnostic)).length <
      (d.belonging projection (done.take j) (d.owner projection located.diagnostic)).length := by
  have counted : (d.belonging projection (done.take (i + 1))
      (d.owner projection located.diagnostic)).length =
        (d.belonging projection (done.take i)
          (d.owner projection located.diagnostic)).length + 1 := by
    rw [List.take_add_one, found, Option.toList_some, belonging_append_singleton, if_pos rfl,
      List.length_append, List.length_singleton]
  have further := ((List.take_prefix_take_left (l := done) before).filter
    fun other => d.owner projection other.diagnostic = d.owner projection located.diagnostic)
  exact Nat.lt_of_lt_of_le (Nat.lt_of_lt_of_eq (Nat.lt_succ_self _) counted.symm) further.length_le

namespace Numbered

theorem length_new (h : Numbered d projection done f) :
    (f.entriesFrom d.forest.next).length = done.length := by
  rw [Forest.length_entriesFrom, h.next, Nat.add_sub_cancel_left]

/-- A new entry stands for one of the diagnostics. -/
theorem exists_stands (h : Numbered d projection done f) {task : Task} {i : Nat}
    (entry : (f.entriesFrom d.forest.next)[i]? = some task) :
    ∃ located group, done[i]? = some located ∧
      d.forest.get? (d.owner projection located.diagnostic) = some group ∧
      task.Stands (d.owner projection located.diagnostic) group d.file located
        (d.forest.errorCount (d.forest.owned (d.owner projection located.diagnostic)) +
          (d.belonging projection (done.take i)
            (d.owner projection located.diagnostic)).length + 1) := by
  have inside : i < done.length := by
    rw [← h.length_new]
    exact (List.getElem?_eq_some_iff.mp entry).1
  have found := List.getElem?_eq_getElem inside
  obtain ⟨group, task', hgroup, inserted, stands⟩ := h.numbers i done[i] found _ rfl
  rw [Forest.getElem?_entriesFrom, inserted] at entry
  cases entry
  exact ⟨done[i], group, found, hgroup, stands⟩

/-- **The new entries of one file** have different identifiers, if its groups have. -/
theorem nodup_ids (h : Numbered d projection done f) (spanned : d.Spanned)
    (apart : ∀ k k' group group', d.Group k group → d.Group k' group' →
      group.id = group'.id → k = k') :
    ((f.entriesFrom d.forest.next).map (·.id)).Nodup := by
  rw [List.nodup_iff_getElem?_ne_getElem?]
  intro i j before inside same
  rw [List.length_map] at inside
  rw [List.getElem?_map, List.getElem?_map, List.getElem?_eq_getElem inside,
    List.getElem?_eq_getElem (before.trans inside), Option.map_some, Option.map_some,
    Option.some.injEq] at same
  obtain ⟨located, group, found, hgroup, stands⟩ :=
    h.exists_stands (List.getElem?_eq_getElem (before.trans inside))
  obtain ⟨located', group', -, hgroup', stands'⟩ :=
    h.exists_stands (List.getElem?_eq_getElem inside)
  rw [stands.id, stands'.id] at same
  obtain ⟨sameId, sameNumber⟩ := Task.typecheckId_inj same
  -- two entries called after one group belong to it, and are numbered one behind the other
  have owner := apart _ _ group group' (spanned.group_owner projection _ hgroup)
    (spanned.group_owner projection _ hgroup') sameId
  rw [← owner] at sameNumber
  have grown := length_belonging_take_lt d projection before found
  omega

end Numbered

end OneFile

/-! ### Whole snapshots -/

/-- **A record whose new entries stand for reports**, each called after a group of its file. -/
structure Record.Names (r : Record) (table : DefinitionTable) (path : String) (count : Nat) :
    Prop where
  length : (r.forest.entriesFrom (table.entriesOf path)).length = count
  nodup : ((r.forest.entriesFrom (table.entriesOf path)).map (·.id)).Nodup
  entries : ∀ task ∈ r.forest.entriesFrom (table.entriesOf path), task.shape = .typecheck ∧
    ∃ d k group, ∃ n : Nat, table.Gives path d ∧ d.Group k group ∧
      task.id = s!"{group.id}_typecheck_{n}"

namespace Snapshot

variable {table : DefinitionTable} {files : List String}

/-- **The entries that were made for a snapshot**: those of its records behind the ones that were
collected. -/
def created (s : Snapshot) (table : DefinitionTable) (files : List String) : List Task :=
  ((requested files).zip s.files).flatMap fun (path, r) =>
    r.forest.entriesFrom (table.entriesOf path)

/-- The record of a requested file. -/
theorem names_of_record {diagnostics : Grouping (Option String) LocatedDiagnostic}
    (distinct : table.Distinct files) {path : String} (requested : path ∈ files) {r : Record}
    (made : record diagnostics table path = .ok r) :
    r.Names table path ((diagnostics.get? (some path)).getD []).length := by
  obtain ⟨d, gives, -, attached⟩ := exists_gives_of_record made
  have spanned := distinct.spanned_of_gives requested gives
  obtain ⟨projection, numbered⟩ := spanned.exists_numbered attached
  have behind := gives.next_eq
  refine ⟨behind ▸ numbered.length_new, behind ▸ numbered.nodup_ids spanned ?_, ?_⟩
  · intro k k' group group' hgroup hgroup' same
    exact (distinct.apart path requested path requested d d gives gives k k' group group' hgroup
      hgroup' same).2
  · intro task mem
    rw [← behind] at mem
    obtain ⟨i, entry⟩ := List.mem_iff_getElem?.mp mem
    obtain ⟨located, group, -, found, stands⟩ := numbered.exists_stands entry
    exact ⟨stands.shape, d, _, group, _, gives, spanned.group_owner projection _ found, stands.id⟩

/-- The new entries of different files are called after different groups. -/
theorem id_ne_of_names (distinct : table.Distinct files) {path path' : String} {r r' : Record}
    {count count' : Nat} (requested : path ∈ files) (requested' : path' ∈ files)
    (other : path ≠ path') (here : r.Names table path count) (there : r'.Names table path' count')
    {task task' : Task} (mem : task ∈ r.forest.entriesFrom (table.entriesOf path))
    (mem' : task' ∈ r'.forest.entriesFrom (table.entriesOf path')) : task.id ≠ task'.id := by
  intro same
  obtain ⟨-, d, k, group, n, gives, hgroup, hid⟩ := here.entries task mem
  obtain ⟨-, d', k', group', n', gives', hgroup', hid'⟩ := there.entries task' mem'
  rw [hid, hid'] at same
  exact other (distinct.apart path requested path' requested' d d' gives gives' k k' group group'
    hgroup hgroup' (Task.typecheckId_inj same).1).1

/-- The entries that were made for some of the requested files. -/
theorem nodup_ids_of_names {paths : List String} {records : List Record} {count : String → Nat}
    (distinct : table.Distinct files) (requested : ∀ path ∈ paths, path ∈ files)
    (nodup : paths.Nodup)
    (each : List.Forall₂ (fun path r => r.Names table path (count path)) paths records) :
    (((paths.zip records).flatMap fun (path, r) =>
      r.forest.entriesFrom (table.entriesOf path)).map (·.id)).Nodup := by
  rw [List.map_flatMap, List.nodup_flatMap]
  have names : ∀ entry ∈ paths.zip records, entry.1 ∈ files ∧
      entry.2.Names table entry.1 (count entry.1) := by
    rintro ⟨path, r⟩ mem
    exact ⟨requested path (List.of_mem_zip mem).1, List.forall₂_zip each mem⟩
  refine ⟨fun entry mem => (names entry mem).2.nodup, ?_⟩
  have different : (paths.zip records).Pairwise fun entry entry' => entry.1 ≠ entry'.1 := by
    rw [← List.pairwise_map (R := (· ≠ ·)) (f := Prod.fst), List.map_fst_zip each.length_eq.le]
    exact nodup
  refine different.imp_of_mem ?_
  intro entry entry' known known' other id first second
  obtain ⟨task, mem, rfl⟩ := List.mem_map.mp first
  obtain ⟨task', mem', same⟩ := List.mem_map.mp second
  obtain ⟨inside, here⟩ := names entry known
  obtain ⟨inside', there⟩ := names entry' known'
  exact id_ne_of_names distinct inside inside' other here there mem mem' same.symm

/-- **New entries have identifiers of their own.**  Let the groups of the requested files, the files
themselves included, be called differently, however they are called, and let spans stand for groups
of their own file.  Then no two of the entries that are made for a snapshot have the same
identifier, whichever type errors the trees were collected with.  There is one for each diagnostic
of a requested file. -/
theorem nodup_ids_of_assemble (distinct : table.Distinct files)
    {diagnostics : Grouping (Option String) LocatedDiagnostic} {s : Snapshot}
    (assembled : assemble diagnostics files table = .ok s) :
    ((s.created table files).map (·.id)).Nodup ∧
    (∀ task ∈ s.created table files, task.shape = .typecheck) ∧
    (s.created table files).length =
      ((requested files).map fun path =>
        ((diagnostics.get? (some path)).getD []).length).sum := by
  have inside : ∀ path ∈ requested files, path ∈ files := fun path => mem_of_mem_requested
  have nodup : (requested files).Nodup := requested_eq files ▸ nodup_eraseDups files
  have each : List.Forall₂ (fun path r => r.Names table path
      ((diagnostics.get? (some path)).getD []).length) (requested files) s.files := by
    obtain ⟨sameLength, made⟩ := List.forall₂_iff_zip.mp (forall₂_of_assemble assembled)
    refine List.forall₂_iff_zip.mpr ⟨sameLength, fun mem => ?_⟩
    exact names_of_record distinct (inside _ (List.of_mem_zip mem).1) (made mem)
  refine ⟨nodup_ids_of_names distinct inside nodup each, ?_, ?_⟩
  · intro task mem
    obtain ⟨entry, known, mem⟩ := List.mem_flatMap.mp mem
    exact ((List.forall₂_zip each known).entries task mem).1
  · have paths := List.map_fst_zip each.length_eq.le
    conv_rhs => rw [← paths, List.map_map]
    rw [created, List.length_flatMap]
    congr 1
    exact List.map_congr_left fun entry known => (List.forall₂_zip each known).length

/-- A file with a group that is called like a type error of the file would be, and with a type error
that the file was collected with. -/
def entangled : Definitions :=
  Collected.definitions {
    forest := ⟨#[
      { id := "f", name := "f", shape := .file "/a.ts" [1, 2], file? := some 0 },
      { id := "f_typecheck_2", name := "s", shape := .suite [], suite? := some 0,
        file? := some 0 },
      { id := "f_typecheck_1", name := "type error #1", shape := .typecheck, suite? := some 0,
        file? := some 0 }]⟩
    file := 0
    spans := [⟨0, 4, 1, by decide⟩]
    text := "s(a);f".toList }

/-- The groups of this file, and of one about which nothing was collected. -/
theorem group_entangled {path : String} {d : Definitions} {k : Key} {group : Task}
    (requested : path ∈ ["/a.ts", "/b.ts"])
    (gives : DefinitionTable.Gives [("/a.ts", entangled)] path d) (h : d.Group k group) :
    (path, k, group.id) ∈
      [("/a.ts", 0, "f"), ("/a.ts", 1, "f_typecheck_2"), ("/b.ts", 0, "/b.ts")] := by
  have inside := Forest.lt_next_of_get? h.found
  have found := h.found
  rcases List.mem_pair.mp requested with rfl | rfl
  · rcases gives with known | ⟨unknown, -⟩
    · cases known
      match k with
      | 0 => cases found; decide
      | 1 => cases found; decide
      | 2 =>
          obtain ⟨tasks, owns⟩ := h.isSuite
          cases owns
      | k + 3 => exact absurd inside (Nat.not_lt.mpr (Nat.le_add_left 3 k))
    · cases unknown
  · rcases gives with known | ⟨-, bare⟩
    · cases known
    · cases Definitions.eq_of_bare bare
      match k with
      | 0 => cases found; decide
      | k + 1 => exact absurd inside (Nat.not_lt.mpr (Nat.le_add_left 1 k))

theorem entangled_distinct :
    DefinitionTable.Distinct [("/a.ts", entangled)] ["/a.ts", "/b.ts"] where
  spanned path requested d known := by
    have first : path = "/a.ts" := by
      rcases List.mem_pair.mp requested with rfl | rfl
      · rfl
      · cases known
    subst first
    cases known
    refine ⟨by decide, ⟨_, rfl⟩, ?_, ?_⟩
    · intro span mem
      cases List.mem_singleton.mp mem
      exact ⟨[], rfl⟩
    · intro span mem
      cases List.mem_singleton.mp mem
      exact .single (by decide)
  apart path requested path' requested' d d' gives gives' k k' group group' h h' same := by
    have one := group_entangled requested gives h
    have other := group_entangled requested' gives' h'
    rw [same] at one
    simp only [List.mem_cons, List.not_mem_nil, Prod.mk.injEq, or_false] at one other
    grind

/-- Reports about the file, inside its group, about the file again, and about another file. -/
def entangledReports : Grouping (Option String) LocatedDiagnostic :=
  Diagnostic.ofOutput "/" ("a.ts(1,6): error TS1: m\na.ts(1,1): error TS2: n\n" ++
    "a.ts(1,6): error TS3: o\nb.ts: error TS4: p").toList

/-- One of the new entries is called like the group, but none like another. -/
theorem nodup_ids_of_assemble_entangled :
    ∃ s, assemble entangledReports ["/a.ts", "/b.ts"] [("/a.ts", entangled)] = .ok s ∧
      (s.created [("/a.ts", entangled)] ["/a.ts", "/b.ts"]).map (·.id) =
        ["f_typecheck_2", "f_typecheck_2_typecheck_1", "f_typecheck_3", "/b.ts_typecheck_1"] ∧
      ((s.created [("/a.ts", entangled)] ["/a.ts", "/b.ts"]).map (·.id)).Nodup := by
  have outcome : (assemble entangledReports ["/a.ts", "/b.ts"]
      [("/a.ts", entangled)]).toOption.map (fun s =>
        (s.created [("/a.ts", entangled)] ["/a.ts", "/b.ts"]).map (·.id)) =
      some ["f_typecheck_2", "f_typecheck_2_typecheck_1", "f_typecheck_3",
        "/b.ts_typecheck_1"] := by
    decide +kernel
  cases assembled : assemble entangledReports ["/a.ts", "/b.ts"] [("/a.ts", entangled)] with
  | error e =>
      rw [assembled] at outcome
      cases outcome
  | ok s =>
      rw [assembled] at outcome
      exact ⟨s, rfl, Option.some.inj outcome,
        (nodup_ids_of_assemble entangled_distinct assembled).1⟩

end Snapshot

end TypeVerdict
