import TypeVerdict.Proofs.Groups

/-!
# Reports in the order of their emission

A checker's reports are grouped by the path as it is written, and only then by the file that
the path stands for.  The list of a file therefore has its reports spelling by spelling
(`byKey`), each spelling's reports in their order.  This is the order of emission as long as
the checker changes to another spelling of a file only once and for all; where a spelling
comes back after another (`Recurs`), its later reports overtake those of the other one.

## Main definitions

* `Recurs`: a key comes back after another
* `byKey`: a list key by key

## Main statements

* `byKey_eq_iff`: when a list is in the order of its keys
* `Diagnostic.gathered_eq`: the reports of a file, spelling by spelling
* `Diagnostic.order_of_groups`: the order of the reports of a file
-/

namespace TypeVerdict

/-! ### Key by key -/

/-- **A key comes back after another.** -/
def Recurs {κ : Type} (keys : List κ) : Prop := ∃ p q, p ≠ q ∧ [p, q, p].Sublist keys

theorem Recurs.mono {κ : Type} {few many : List κ} (h : Recurs few) (sub : few.Sublist many) :
    Recurs many := by
  obtain ⟨p, q, differ, found⟩ := h
  exact ⟨p, q, differ, found.trans sub⟩

/-- Behind the last of its kind nothing comes back to it. -/
theorem recurs_append_iff {κ : Type} {k : κ} {first rest : List κ} (same : ∀ p ∈ first, p = k)
    (new : k ∉ rest) : Recurs (first ++ rest) ↔ Recurs rest := by
  constructor
  · rintro ⟨p, q, differ, found⟩
    obtain ⟨before, behind, split, left, right⟩ := List.sublist_append_iff.mp found
    match before with
    | [] =>
        rw [List.nil_append] at split
        exact ⟨p, q, differ, split ▸ right⟩
    | [_] =>
        cases split
        exact absurd (right.subset (by simp)) (same p (left.subset (by simp)) ▸ new)
    | _ :: _ :: _ =>
        obtain ⟨rfl, rfl, -⟩ : _ = p ∧ _ = q ∧ _ := by simpa [eq_comm] using split
        exact absurd ((same _ (left.subset (by simp))).trans (same _ (left.subset (by simp))).symm)
          differ
  · exact fun h => h.mono (List.sublist_append_right _ _)

section ByKey

variable {α κ : Type} [BEq κ] [LawfulBEq κ] [DecidableEq κ] {key : α → κ}

/-- **A list key by key**, in the order in which the keys first come. -/
def byKey (key : α → κ) (xs : List α) : List α :=
  (xs.map key).eraseDups.flatMap fun k => xs.filter fun x => key x = k

theorem byKey_cons (x : α) (xs : List α) :
    byKey key (x :: xs) = x :: ((xs.filter fun y => key y = key x) ++
      byKey key (xs.filter fun y => key y ≠ key x)) := by
  have others : (xs.map key).filter (fun k => !k == key x) =
      (xs.filter fun y => key y ≠ key x).map key := by
    rw [List.filter_map]
    congr 1
    apply List.filter_congr
    intro y _
    by_cases same : key y = key x <;> simp [same]
  rw [byKey, List.map_cons, List.eraseDups_cons, others, List.flatMap_cons,
    List.filter_cons_of_pos (by simp), List.cons_append, byKey]
  congr 2
  apply List.flatMap_congr
  intro k mem
  have other : k ≠ key x := by
    obtain ⟨y, found, rfl⟩ := List.mem_map.mp (List.mem_eraseDups.mp mem)
    simpa using (List.mem_filter.mp found).2
  rw [List.filter_cons_of_neg (by simpa using Ne.symm other), List.filter_filter]
  apply List.filter_congr
  intro y _
  by_cases same : key y = k <;> simp [same, other]

omit [BEq κ] [LawfulBEq κ] in
/-- A list whose keys do not come back to a given one has the values of that key in front. -/
theorem filter_append_filter_of_not_recurs {k : κ} {xs : List α}
    (calm : ¬ Recurs (k :: xs.map key)) :
    (xs.filter fun y => key y = k) ++ (xs.filter fun y => key y ≠ k) = xs := by
  induction xs with
  | nil => rfl
  | cons x xs ih =>
      by_cases same : key x = k
      · have calm' : ¬ Recurs (k :: xs.map key) := fun h => calm
          (h.mono (List.cons_sublist_cons.mpr (List.sublist_cons_self _ _)))
        rw [List.filter_cons_of_pos (by simpa using same), List.filter_cons_of_neg (by simp [same]),
          List.cons_append, ih calm']
      · -- another key stands in front, so the given one comes no more
        have gone : k ∉ xs.map key := fun mem => calm ⟨k, key x, Ne.symm same,
          List.cons_sublist_cons.mpr (List.cons_sublist_cons.mpr (List.singleton_sublist.mpr mem))⟩
        have none : ∀ y ∈ x :: xs, key y ≠ k := by
          rintro y mem rfl
          rcases List.mem_cons.mp mem with rfl | mem
          · exact same rfl
          · exact gone (List.mem_map_of_mem mem)
        rw [List.filter_eq_nil_iff.mpr (by simpa using none),
          List.filter_eq_self.mpr (by simpa using none), List.nil_append]

omit [BEq κ] [LawfulBEq κ] [DecidableEq κ] in
/-- Key by key nothing comes back. -/
theorem not_recurs_flatMap {keys : List κ} (nodup : keys.Nodup) {content : κ → List α}
    (own : ∀ k, ∀ x ∈ content k, key x = k) :
    ¬ Recurs ((keys.flatMap content).map key) := by
  induction keys with
  | nil =>
      rintro ⟨p, q, -, found⟩
      cases found
  | cons k keys ih =>
      obtain ⟨new, nodup⟩ := List.nodup_cons.mp nodup
      rw [List.flatMap_cons, List.map_append, recurs_append_iff (k := k)]
      · exact ih nodup
      · intro p mem
        obtain ⟨x, here, rfl⟩ := List.mem_map.mp mem
        exact own k x here
      · intro mem
        obtain ⟨x, there, rfl⟩ := List.mem_map.mp mem
        obtain ⟨k', known, there⟩ := List.mem_flatMap.mp there
        exact new (own k' x there ▸ known)

/-- Each key has its own values. -/
theorem filter_flatMap_of_nodup {keys : List κ} (nodup : keys.Nodup) {content : κ → List α}
    (own : ∀ k, ∀ x ∈ content k, key x = k) (k : κ) :
    ((keys.flatMap content).filter fun x => key x = k) = if k ∈ keys then content k else [] := by
  induction keys with
  | nil => rfl
  | cons k' keys ih =>
      obtain ⟨new, nodup⟩ := List.nodup_cons.mp nodup
      rw [List.flatMap_cons, List.filter_append, ih nodup]
      by_cases same : k = k'
      · subst same
        have all : (content k).filter (fun x => key x = k) = content k := by
          rw [List.filter_eq_self]
          exact fun x mem => decide_eq_true (own k x mem)
        rw [all, if_neg new, if_pos List.mem_cons_self, List.append_nil]
      · have none : (content k').filter (fun x => key x = k) = [] := by
          rw [List.filter_eq_nil_iff]
          intro x mem
          simpa [own k' x mem] using Ne.symm same
        rw [none, List.nil_append]
        simp [same]

/-- **The values of a key keep their order.** -/
theorem filter_byKey (k : κ) (xs : List α) :
    ((byKey key xs).filter fun x => key x = k) = xs.filter fun x => key x = k := by
  rw [byKey, filter_flatMap_of_nodup (nodup_eraseDups _)]
  · split
    · rfl
    · next unknown =>
        rw [filter_eq_nil_of_not_mem fun mem => unknown (List.mem_eraseDups.mpr mem)]
  · exact fun k x mem => of_decide_eq_true (List.mem_filter.mp mem).2

/-- **When a list is in the order of its keys.** -/
theorem byKey_eq_iff (xs : List α) : byKey key xs = xs ↔ ¬ Recurs (xs.map key) := by
  constructor
  · intro same
    rw [← same]
    refine not_recurs_flatMap (nodup_eraseDups _) fun k x mem => ?_
    exact of_decide_eq_true (List.mem_filter.mp mem).2
  · intro calm
    -- behind the values of the first key stands a shorter list, in which nothing comes back either
    induction length : xs.length using Nat.strongRecOn generalizing xs with
    | ind n ih =>
        cases xs with
        | nil => rfl
        | cons x xs =>
            have shorter : (xs.filter fun y => key y ≠ key x).length < n := by
              rw [← length, List.length_cons]
              exact Nat.lt_succ_of_le (List.length_filter_le _ _)
            have calm' : ¬ Recurs ((xs.filter fun y => key y ≠ key x).map key) := fun h => calm
              (h.mono (((List.filter_sublist).map key).trans (List.sublist_cons_self _ _)))
            rw [byKey_cons, ih _ shorter _ calm' rfl, filter_append_filter_of_not_recurs calm]

omit [DecidableEq κ] in
/-- Keys that a filter keeps come in the same order. -/
theorem filter_eraseDups (p : κ → Bool) (keys : List κ) :
    keys.eraseDups.filter p = (keys.filter p).eraseDups := by
  induction keys using List.reverseRecOn with
  | nil => rfl
  | append_singleton keys k ih =>
      by_cases known : k ∈ keys
      · by_cases kept : p k = true
        · have known' : k ∈ keys.filter p := List.mem_filter.mpr ⟨known, kept⟩
          rw [eraseDups_concat_of_mem known, ih, List.filter_append,
            List.filter_cons_of_pos kept, List.filter_nil, eraseDups_concat_of_mem known']
        · rw [eraseDups_concat_of_mem known, ih, List.filter_append,
            List.filter_cons_of_neg kept, List.filter_nil, List.append_nil]
      · have new : k ∉ keys.filter p := fun mem => known (List.mem_filter.mp mem).1
        rw [eraseDups_concat_of_not_mem known, List.filter_append, ih, List.filter_append]
        by_cases kept : p k = true
        · rw [List.filter_cons_of_pos kept, List.filter_nil, eraseDups_concat_of_not_mem new]
        · rw [List.filter_cons_of_neg kept, List.filter_nil, List.append_nil, List.append_nil]

end ByKey

/-! ### The reports of a file -/

namespace Diagnostic

variable (root : String) (reports : List Diagnostic) (file? : Option String)

/-- **The reports of a file come spelling by spelling of its path.** -/
theorem gathered_eq :
    gathered root reports file? =
      (byKey (·.path?) (reports.filter fun d => d.file? root = file?)).map (located root) := by
  rw [gathered, byKey, List.map_flatMap, filter_eraseDups, List.filter_map]
  apply List.flatMap_congr
  intro path? mem
  have leads : path?.map (Path.resolveText root) = file? := by
    obtain ⟨d, found, rfl⟩ := List.mem_map.mp (List.mem_eraseDups.mp mem)
    exact of_decide_eq_true (List.mem_filter.mp found).2
  rw [List.filter_filter]
  congr 1
  apply List.filter_congr
  intro d _
  by_cases same : d.path? = path? <;> simp [same, Diagnostic.file?, leads]

theorem located_injective : Function.Injective (located root) :=
  fun _ _ same => congrArg LocatedDiagnostic.diagnostic same

/-- Spelling by spelling they are in the order of emission unless a spelling comes back. -/
theorem gathered_eq_about_iff :
    gathered root reports file? = about root reports file? ↔
      ¬ Recurs ((about root reports file?).map (·.diagnostic.path?)) := by
  have spellings : (about root reports file?).map (·.diagnostic.path?) =
      (reports.filter fun d => d.file? root = file?).map (·.path?) := by
    rw [about, List.map_map]
    rfl
  rw [spellings, ← byKey_eq_iff, gathered_eq, about]
  exact List.map_inj_right fun _ _ same => located_injective root same

/-- The reports under one spelling are in the order of emission. -/
theorem filter_gathered (path? : Option String) :
    (gathered root reports file?).filter (·.diagnostic.path? = path?) =
      (about root reports file?).filter (·.diagnostic.path? = path?) := by
  rw [gathered_eq, about, List.filter_map, List.filter_map]
  congr 1
  exact filter_byKey path? _

/-- **The order of the reports of a file.**  The list of a file has the reports about it, each
once, and those under one spelling of its path in the order of emission.  It is in the order
of emission as a whole exactly if no spelling comes back after another. -/
theorem order_of_groups (root : String) (output : List Char)
    {group : Option String × List LocatedDiagnostic} (mem : group ∈ (ofOutput root output).groups) :
    group.2.Perm (about root (parseAll output) group.1) ∧
    (∀ path?, group.2.filter (·.diagnostic.path? = path?) =
      (about root (parseAll output) group.1).filter (·.diagnostic.path? = path?)) ∧
    (group.2 = about root (parseAll output) group.1 ↔
      ¬ Recurs ((about root (parseAll output) group.1).map (·.diagnostic.path?))) := by
  rw [groups_ofOutput] at mem
  obtain ⟨file?, -, rfl⟩ := List.mem_map.mp mem
  exact ⟨gathered_perm root _ file?, filter_gathered root _ file?,
    gathered_eq_about_iff root _ file?⟩

/-- An output about one file in two spellings, the first of which comes back. -/
def outputOfTwoSpellings : List Char :=
  "a.ts(1,1): error TS1: m\n./a.ts(2,1): error TS2: n\na.ts(3,1): error TS3: o".toList

/-- Its reports as they are listed: the last one has overtaken the one before it. -/
def overtaken : List LocatedDiagnostic :=
  [located "/" ⟨some "a.ts", some ⟨1, 1⟩, .error, some 1, "m"⟩,
    located "/" ⟨some "a.ts", some ⟨3, 1⟩, .error, some 3, "o"⟩,
    located "/" ⟨some "./a.ts", some ⟨2, 1⟩, .error, some 2, "n"⟩]

/-- They are the reports about the file, but not in the order of emission. -/
theorem order_of_groups_overtaken :
    (some "/a.ts", overtaken) ∈ (ofOutput "/" outputOfTwoSpellings).groups ∧
    Recurs ((about "/" (parseAll outputOfTwoSpellings) (some "/a.ts")).map
      (·.diagnostic.path?)) ∧
    overtaken.Perm (about "/" (parseAll outputOfTwoSpellings) (some "/a.ts")) ∧
    (∀ path?, overtaken.filter (·.diagnostic.path? = path?) =
      (about "/" (parseAll outputOfTwoSpellings) (some "/a.ts")).filter
        (·.diagnostic.path? = path?)) ∧
    (overtaken = about "/" (parseAll outputOfTwoSpellings) (some "/a.ts") ↔
      ¬ Recurs ((about "/" (parseAll outputOfTwoSpellings) (some "/a.ts")).map
        (·.diagnostic.path?))) := by
  have listed : (some "/a.ts", overtaken) ∈ (ofOutput "/" outputOfTwoSpellings).groups := by
    decide +kernel
  refine ⟨listed, ⟨some "a.ts", some "./a.ts", by decide, ?_⟩, order_of_groups "/" _ listed⟩
  have spellings : (about "/" (parseAll outputOfTwoSpellings) (some "/a.ts")).map
      (·.diagnostic.path?) = [some "a.ts", some "./a.ts", some "a.ts"] := by
    decide +kernel
  rw [spellings]

/-- **The order of emission can be lost.** -/
theorem not_listed_as_emitted :
    ¬ ∀ (root : String) (output : List Char), ∀ group ∈ (ofOutput root output).groups,
      group.2 = about root (parseAll output) group.1 := by
  intro kept
  exact absurd (kept "/" outputOfTwoSpellings) (by decide +kernel)

end Diagnostic

end TypeVerdict
