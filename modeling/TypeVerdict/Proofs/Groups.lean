import Mathlib.Data.List.Induction
import Mathlib.Data.List.Nodup
import Mathlib.Data.List.Perm.Basic
import TypeVerdict.Snapshot.Assembly

/-!
# Groups in closed form

A grouping is built by one arrival after the other, and each of them may open a group or
lengthen one that is there.  The outcome can be read off the arrivals at once
(`Grouping.collect`): the keys are those of the arrivals without repetitions, and the
values of a key are those of the arrivals under it.

The reports of an output are grouped twice, by the path as it is written and by the file
that the path stands for.  Between the two the order of a file's reports can change, since
the reports of one spelling come together; but nothing is lost and nothing comes twice, as
the groups of a list are a rearrangement of it (`perm_flatMap_filter`).

## Main definitions

* `Grouping.collect`: arrivals by key
* `Diagnostic.file?`: the file that a report is about
* `Diagnostic.located`: a report with its error
* `Diagnostic.about`: the reports about a file

## Main statements

* `Grouping.foldl_append`: arrival by arrival or at once
* `Diagnostic.groups_parse`: the reports of an output by path
* `Diagnostic.groups_ofOutput`: the files of an output in the order of their first reports
* `Diagnostic.gathered_perm`: the reports about a file
* `Snapshot.requested_eq`: the requested files
-/

namespace TypeVerdict

/-! ### First occurrences -/

section Duplicates

variable {α κ : Type} [BEq κ] [LawfulBEq κ]

theorem eraseDups_concat_of_mem {xs : List κ} {x : κ} (known : x ∈ xs) :
    (xs ++ [x]).eraseDups = xs.eraseDups := by
  simp [List.eraseDups_append, List.removeAll, known]

theorem eraseDups_concat_of_not_mem {xs : List κ} {x : κ} (new : x ∉ xs) :
    (xs ++ [x]).eraseDups = xs.eraseDups ++ [x] := by
  simp [List.eraseDups_append, List.removeAll, new, List.eraseDups_cons]

theorem nodup_eraseDups (xs : List κ) : xs.eraseDups.Nodup := by
  induction xs using List.reverseRecOn with
  | nil => simp
  | append_singleton xs x ih =>
      by_cases known : x ∈ xs
      · rwa [eraseDups_concat_of_mem known]
      · rw [eraseDups_concat_of_not_mem known, List.nodup_append]
        refine ⟨ih, List.nodup_singleton x, ?_⟩
        rintro y mem z last rfl
        cases List.mem_singleton.mp last
        exact known (List.mem_eraseDups.mp mem)

/-- Repetitions that a change brings about are no others for those that were there before. -/
theorem eraseDups_map_eraseDups [BEq α] [LawfulBEq α] (f : α → κ) (xs : List α) :
    (xs.eraseDups.map f).eraseDups = (xs.map f).eraseDups := by
  induction xs using List.reverseRecOn with
  | nil => rfl
  | append_singleton xs x ih =>
      rw [List.map_append, List.map_singleton]
      by_cases known : x ∈ xs
      · rw [eraseDups_concat_of_mem known, eraseDups_concat_of_mem (List.mem_map_of_mem known), ih]
      · have same : f x ∈ xs.eraseDups.map f ↔ f x ∈ xs.map f := by simp
        rw [eraseDups_concat_of_not_mem known, List.map_append, List.map_singleton]
        by_cases old : f x ∈ xs.map f
        · rw [eraseDups_concat_of_mem old, eraseDups_concat_of_mem (same.mpr old), ih]
        · rw [eraseDups_concat_of_not_mem old, eraseDups_concat_of_not_mem (mt same.mp old), ih]

omit [BEq κ] [LawfulBEq κ] in
/-- There is nothing under a key that does not occur. -/
theorem filter_eq_nil_of_not_mem [DecidableEq κ] {key : α → κ} {xs : List α} {k : κ}
    (new : k ∉ xs.map key) : xs.filter (fun x => key x = k) = [] := by
  rw [List.filter_eq_nil_iff]
  intro x mem same
  exact new (List.mem_map.mpr ⟨x, mem, of_decide_eq_true same⟩)

/-- **The groups of a list are a rearrangement of it**, as far as it is under the keys. -/
theorem perm_flatMap_filter [DecidableEq κ] (key : α → κ) (xs : List α) {keys : List κ}
    (nodup : keys.Nodup) :
    (keys.flatMap fun k => xs.filter fun x => key x = k).Perm
      (xs.filter fun x => key x ∈ keys) := by
  induction keys with
  | nil => simp
  | cons k keys ih =>
      obtain ⟨new, nodup⟩ := List.nodup_cons.mp nodup
      -- those under the first key, and the others
      have first : (xs.filter fun x => key x ∈ k :: keys).filter (fun x => key x = k) =
          xs.filter fun x => key x = k := by
        rw [List.filter_filter]
        congr 1
        funext x
        by_cases h : key x = k <;> simp [h]
      have others : (xs.filter fun x => key x ∈ k :: keys).filter (fun x => !decide (key x = k)) =
          xs.filter fun x => key x ∈ keys := by
        rw [List.filter_filter]
        congr 1
        funext x
        by_cases h : key x = k
        · simp [h, new]
        · simp [h]
      calc (k :: keys).flatMap (fun k => xs.filter fun x => key x = k)
          = (xs.filter fun x => key x = k) ++
              keys.flatMap fun k => xs.filter fun x => key x = k := List.flatMap_cons
        _ |>.Perm ((xs.filter fun x => key x = k) ++ xs.filter fun x => key x ∈ keys) :=
            (ih nodup).append_left _
        _ |>.Perm (xs.filter fun x => key x ∈ k :: keys) := by
            rw [← first, ← others]
            exact List.filter_append_perm _ _

end Duplicates

/-! ### Groupings -/

namespace Grouping

variable {κ α β : Type} [DecidableEq κ]

/-- More values for one of several keys. -/
theorem appendTo_map (values : List α) (content : κ → List α) {key : κ} {keys : List κ}
    (nodup : keys.Nodup) :
    appendTo key values (keys.map fun k => (k, content k)) =
      (keys.map fun k => (k, if k = key then content k ++ values else content k)) ++
        if key ∈ keys then [] else [(key, values)] := by
  induction keys with
  | nil => simp [appendTo]
  | cons k keys ih =>
      obtain ⟨new, nodup⟩ := List.nodup_cons.mp nodup
      rw [List.map_cons, appendTo]
      by_cases same : k = key
      · subst same
        have others : ∀ k' ∈ keys, k' ≠ k := by
          rintro k' mem rfl
          exact new mem
        simp +contextual [others]
      · rw [if_neg same, ih nodup]
        simp [same, Ne.symm same]

theorem lookup_map (content : κ → List α) (key : κ) (keys : List κ) :
    (keys.map fun k => (k, content k)).lookup key =
      if key ∈ keys then some (content key) else none := by
  induction keys with
  | nil => simp
  | cons k keys ih =>
      rw [List.map_cons, List.lookup_cons, ih]
      by_cases same : key = k
      · simp [same]
      · rw [beq_eq_false_iff_ne.mpr same]
        simp [same]

variable [BEq κ] [LawfulBEq κ]

/-- **Arrivals by key**: each key once, with the values of the arrivals under it. -/
def collect (key : β → κ) (values : β → List α) (arrivals : List β) : Grouping κ α :=
  ⟨(arrivals.map key).eraseDups.map fun k =>
    (k, (arrivals.filter fun x => key x = k).flatMap values)⟩

/-- **Arrival by arrival, or at once.** -/
theorem foldl_append (key : β → κ) (values : β → List α) (arrivals : List β) :
    arrivals.foldl (fun g x => g.append (key x) (values x)) ⟨[]⟩ =
      collect key values arrivals := by
  induction arrivals using List.reverseRecOn with
  | nil => rfl
  | append_singleton arrivals x ih =>
      rw [List.foldl_append, ih]
      show append (collect key values arrivals) (key x) (values x) = _
      rw [append, collect, appendTo_map _ _ (nodup_eraseDups _), collect, List.map_append,
        List.map_singleton]
      congr 1
      by_cases known : key x ∈ arrivals.map key
      · rw [if_pos (List.mem_eraseDups.mpr known), eraseDups_concat_of_mem known, List.append_nil]
        apply List.map_congr_left
        intro k _
        by_cases same : k = key x
        · simp [same]
        · simp [same, Ne.symm same]
      · rw [if_neg (fun mem => known (List.mem_eraseDups.mp mem)),
          eraseDups_concat_of_not_mem known, List.map_append]
        congr 1
        · apply List.map_congr_left
          intro k mem
          have same : k ≠ key x := by
            rintro rfl
            exact known (List.mem_eraseDups.mp mem)
          simp [same, Ne.symm same]
        · simp [filter_eq_nil_of_not_mem known]

/-- The values of a key are those of the arrivals under it, none if there are none. -/
theorem getD_get?_collect (key : β → κ) (values : β → List α) (arrivals : List β) (k : κ) :
    ((collect key values arrivals).get? k).getD [] =
      (arrivals.filter fun x => key x = k).flatMap values := by
  rw [get?, collect, lookup_map]
  split
  · rfl
  · next unknown =>
      rw [filter_eq_nil_of_not_mem (fun mem => unknown (List.mem_eraseDups.mpr mem))]
      rfl

end Grouping

/-! ### The reports of an output -/

namespace Diagnostic

/-- **The file that a report is about**, none if it is about the whole project. -/
def file? (root : String) (d : Diagnostic) : Option String :=
  d.path?.map (Path.resolveText root)

/-- A report with the error that shows it. -/
def located (root : String) (d : Diagnostic) : LocatedDiagnostic := ⟨d, d.toError (d.file? root)⟩

theorem parse_eq_collect (output : List Char) :
    parse output = Grouping.collect (·.path?) (fun d => [d]) (parseAll output) :=
  Grouping.foldl_append _ _ _

/-- The reports of an output by the path as it is written. -/
theorem groups_parse (output : List Char) :
    (parse output).groups = ((parseAll output).map (·.path?)).eraseDups.map fun path? =>
      (path?, (parseAll output).filter fun d => d.path? = path?) := by
  have collected := parse_eq_collect output
  simp only [Grouping.collect, List.flatMap_singleton'] at collected
  exact congrArg Grouping.groups collected

variable (root : String) (reports : List Diagnostic)

/-- **The reports about a file**, in their order. -/
def about (file? : Option String) : List LocatedDiagnostic :=
  (reports.filter fun d => d.file? root = file?).map (located root)

/-- The reports about a file, spelling by spelling of its path. -/
def gathered (file? : Option String) : List LocatedDiagnostic :=
  ((reports.map (·.path?)).eraseDups.filter fun path? =>
    path?.map (Path.resolveText root) = file?).flatMap fun path? =>
      (reports.filter fun d => d.path? = path?).map (located root)

/-- **Spelling by spelling nothing is lost and nothing comes twice.** -/
theorem gathered_perm (file? : Option String) :
    (gathered root reports file?).Perm (about root reports file?) := by
  unfold gathered about
  rw [← List.map_flatMap]
  apply List.Perm.map
  refine (perm_flatMap_filter (fun d : Diagnostic => d.path?) reports
    ((nodup_eraseDups _).filter _)).trans (List.Perm.of_eq ?_)
  apply List.filter_congr
  intro d mem
  have known : ∃ d' ∈ reports, d'.path? = d.path? := ⟨d, mem, rfl⟩
  rw [decide_eq_decide]
  simp [List.mem_filter, Diagnostic.file?, known]

theorem ofOutput_eq_collect (output : List Char) :
    ofOutput root output = Grouping.collect
      (fun group : Option String × List Diagnostic => group.1.map (Path.resolveText root))
      (fun group => group.2.map (located root)) (parse output).groups := by
  rw [← Grouping.foldl_append]
  show (parse output).groups.foldl _ _ = _
  apply List.foldl_ext
  intro g group mem
  -- the reports of a group have its path
  rw [groups_parse] at mem
  obtain ⟨path?, -, rfl⟩ := List.mem_map.mp mem
  show g.append _ _ = g.append _ _
  congr 1
  apply List.map_congr_left
  intro d mem
  have same : d.path? = path? := of_decide_eq_true (List.mem_filter.mp mem).2
  rw [located, Diagnostic.file?, same]

/-- **The files of an output come in the order of their first reports.** -/
theorem groups_ofOutput (output : List Char) :
    (ofOutput root output).groups = ((parseAll output).map (·.file? root)).eraseDups.map
      fun file? => (file?, gathered root (parseAll output) file?) := by
  rw [ofOutput_eq_collect, Grouping.collect, groups_parse]
  simp only [List.map_map]
  have keys := eraseDups_map_eraseDups (Option.map (Path.resolveText root))
    ((parseAll output).map (·.path?))
  rw [List.map_map] at keys
  show (List.map (Option.map (Path.resolveText root)) _).eraseDups.map _ = _
  rw [keys]
  apply List.map_congr_left
  intro file? _
  rw [List.filter_map, List.flatMap_map]
  rfl

/-- The reports under a file are those about it. -/
theorem getD_get?_ofOutput (output : List Char) (file? : Option String) :
    ((ofOutput root output).get? file?).getD [] = gathered root (parseAll output) file? := by
  rw [ofOutput_eq_collect, Grouping.getD_get?_collect, groups_parse, List.filter_map,
    List.flatMap_map]
  rfl

end Diagnostic

/-- The requested files are the given ones without repetitions. -/
theorem Snapshot.requested_eq (files : List String) : requested files = files.eraseDups := by
  induction files using List.reverseRecOn with
  | nil => rfl
  | append_singleton files file ih =>
      unfold requested at ih ⊢
      rw [List.foldl_append, ih]
      show (if files.eraseDups.contains file then _ else _) = _
      by_cases known : file ∈ files
      · rw [eraseDups_concat_of_mem known, if_pos]
        simpa using known
      · rw [eraseDups_concat_of_not_mem known, if_neg]
        simpa using known

end TypeVerdict
