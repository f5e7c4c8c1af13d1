import TypeVerdict.Proofs.Lineage

/-!
# Recording type errors, again and again

A type error is recorded by a walk: the entry is marked, and the walk goes on with the group
that the entry names as its owner, until there is none.  Where no entry is among the groups
around itself such a walk comes to rest, because it passes through no entry twice and the
forest has only so many (`exists_ancestor?_eq_none`); and what it has marked then is the
lineage of the entry it began with (`climbs_failLineage`).

Marking an entry changes its result and nothing else, and the new result depends on the mode
of the entry alone.  So after any number of walks it can be read off the forest before the
first of them which entries are marked: those at which a walk began and the groups around
them (`MarkedFrom`).  In which order the walks were taken, and which of them more than once,
makes no difference.

## Main definitions

* `Forest.Acyclic`: no entry is among the groups around itself
* `Forest.Climbs`: one round of the walk that records a type error
* `Forest.failLineages`: type errors recorded one after the other
* `Forest.MarkedFrom`: what recording them comes to

## Main statements

* `climbs_failLineage`: each walk comes to rest
* `markedFrom_failLineages`: what several walks mark
* `recorded_once_and_for_all`: both, and that neither order nor repetition matters
-/

namespace TypeVerdict.Forest

variable {f g : Forest} {k j : Key} {keys : List Key}

/-- Forests with the same entries under the same keys are the same. -/
theorem ext_get? (same : ∀ k, f.get? k = g.get? k) : f = g := by
  cases f
  cases g
  congr 1
  exact Array.ext_getElem? same

/-! ### The walk -/

/-- **No entry is among the groups around itself.** -/
def Acyclic (f : Forest) : Prop :=
  ∀ k, ¬ Relation.TransGen (fun k s => f.suiteOf? k = some s) k k

/-- Where every group came before the entries that name it, no entry is around itself. -/
theorem acyclic_of_lt (before : ∀ k s, f.suiteOf? k = some s → s < k) : f.Acyclic := by
  have outwards : ∀ k s, Relation.TransGen (fun k s => f.suiteOf? k = some s) k s → s < k := by
    intro k s around
    induction around with
    | single step => exact before _ _ step
    | tail _ step ih => exact (before _ _ step).trans ih
  intro k around
  exact Nat.lt_irrefl k (outwards k k around)

/-- **One round of the walk** that records a type error: an entry is marked, and the walk goes
on with the group around it.  Where there is none, it is at rest. -/
inductive Climbs : Forest × Option Key → Forest × Option Key → Prop where
  | mark (f : Forest) (k : Key) : Climbs (f, some k) (f.fail k, f.suiteOf? k)

theorem suiteOf?_fail (f : Forest) (j k : Key) : (f.fail j).suiteOf? k = f.suiteOf? k := by
  rw [suiteOf?, suiteOf?, get?_fail]
  cases f.get? k with
  | none => rfl
  | some t =>
      rw [Option.map_some, Option.bind_some, Option.bind_some]
      split <;> rfl

/-- A way that leads on from an entry to itself is a cycle. -/
theorem transGen_of_ancestor? {n : Nat} (leads : f.ancestor? (n + 1) k = some j) :
    Relation.TransGen (fun k s => f.suiteOf? k = some s) k j := by
  obtain ⟨s, step, rest⟩ := Option.bind_eq_some_iff.mp leads
  exact Relation.TransGen.head' step (around_iff.mpr ⟨n, rest⟩)

/-- **Without a cycle the references end** before they have led on as often as the forest has
entries. -/
theorem exists_ancestor?_eq_none (closed : f.Closed) (acyclic : f.Acyclic) (inside : k < f.next) :
    f.ancestor? f.next k = none := by
  by_contra goesOn
  obtain ⟨last, leads⟩ := Option.ne_none_iff_exists'.mp goesOn
  have lastInside : last < f.next :=
    closed.lt_next_of_around (around_iff.mpr ⟨f.next, leads⟩) inside
  obtain ⟨p, q, b, before, -, first, later⟩ := exists_visited_twice leads lastInside le_rfl
  obtain ⟨n, rfl⟩ := Nat.exists_eq_add_of_lt before
  have again : f.ancestor? (n + 1) b = some b := by
    rwa [Nat.add_assoc, ancestor?_add, first, Option.bind_some] at later
  exact acyclic b (transGen_of_ancestor? again)

/-- A number of rounds mark as many entries of the ancestry, and the walk is then where as many
references lead. -/
theorem climbs_ancestry (closed : f.Closed) (inside : k < f.next) (n : Nat) :
    Relation.ReflTransGen Climbs (f, some k)
      ((f.ancestry n k).foldl fail f, f.ancestor? n k) := by
  -- the marked forests keep the references of the one at the beginning
  suffices ∀ g : Forest, (∀ s, g.suiteOf? s = f.suiteOf? s) →
      Relation.ReflTransGen Climbs (g, some k)
        ((f.ancestry n k).foldl fail g, f.ancestor? n k) from this f fun _ => rfl
  induction n generalizing k with
  | zero =>
      intro g _
      exact .refl
  | succ n ih =>
      intro g references
      obtain ⟨t, found⟩ := exists_get? inside
      have suite : f.suiteOf? k = t.suite? := suiteOf?_eq_some found
      have round : Climbs (g, some k) (g.fail k, f.suiteOf? k) := by
        rw [← references]
        exact .mark g k
      refine .head round ?_
      rw [ancestor?, ancestry, found, suite]
      dsimp only
      cases owner : t.suite? with
      | none => exact .refl
      | some s =>
          apply ih (closed.suite_lt found owner)
          intro r
          rw [suiteOf?_fail, references]

/-- **A walk comes to rest** when it has marked the lineage of its entry. -/
theorem climbs_failLineage (closed : f.Closed) (acyclic : f.Acyclic) (inside : k < f.next) :
    Relation.ReflTransGen Climbs (f, some k) (f.failLineage k, none) := by
  rw [← exists_ancestor?_eq_none closed acyclic inside]
  exact climbs_ancestry closed inside f.next

/-! ### Several walks -/

/-- Type errors recorded one after the other. -/
def failLineages (f : Forest) (keys : List Key) : Forest := keys.foldl failLineage f

theorem failLineages_append (f : Forest) (keys more : List Key) :
    f.failLineages (keys ++ more) = (f.failLineages keys).failLineages more :=
  List.foldl_append

theorem suiteOf?_failLineage (f : Forest) (j k : Key) :
    (f.failLineage j).suiteOf? k = f.suiteOf? k := by
  suffices ∀ (keys : List Key) (g : Forest), (keys.foldl fail g).suiteOf? k = g.suiteOf? k from
    this (f.lineage j) f
  intro keys
  induction keys with
  | nil =>
      intro g
      rfl
  | cons i keys ih =>
      intro g
      rw [List.foldl_cons, ih, suiteOf?_fail]

theorem around_failLineage (f : Forest) (j k s : Key) :
    (f.failLineage j).Around k s ↔ f.Around k s := by
  simp only [Around, suiteOf?_failLineage]

/-- **Which entries several walks mark** can be read off the forest before the first of them. -/
theorem get?_failLineages [∀ a, Decidable (∃ k ∈ keys, f.Around k a)] (j : Key) :
    (f.failLineages keys).get? j =
      (f.get? j).map fun t => if ∃ k ∈ keys, f.Around k j then t.failed else t := by
  classical
  induction keys generalizing f with
  | nil => simp [failLineages]
  | cons k keys ih =>
      rw [failLineages, List.foldl_cons, ← failLineages, ih, get?_failLineage, Option.map_map]
      congr 1
      funext t
      simp only [around_failLineage, Function.comp_apply, List.exists_mem_cons_iff]
      -- an entry that is marked again has the result that it had been given
      by_cases first : f.Around k j <;> by_cases others : ∃ k ∈ keys, f.Around k j <;>
        simp [first, others, Task.failed]

theorem next_failLineages (f : Forest) (keys : List Key) :
    (f.failLineages keys).next = f.next := by
  induction keys generalizing f with
  | nil => rfl
  | cons k keys ih => rw [failLineages, List.foldl_cons, ← failLineages, ih, next_failLineage]

/-- The same entries, in whatever order and how often each: the same marks. -/
theorem failLineages_congr {keys' : List Key} (same : ∀ k, k ∈ keys' ↔ k ∈ keys) :
    f.failLineages keys' = f.failLineages keys := by
  classical
  apply ext_get?
  intro j
  rw [get?_failLineages, get?_failLineages]
  simp only [same]

/-- **What recording type errors comes to**: the entries at which they are recorded, and the groups
around these, have the state of their mode and no error of their own; any other entry is as it
was, and so is everything else about these. -/
structure MarkedFrom (f : Forest) (keys : List Key) (g : Forest) : Prop where
  next : g.next = f.next
  marked : ∀ k ∈ keys, ∀ j t, f.Around k j → f.get? j = some t →
    g.get? j = some { t with result? := some ⟨State.ofMode t.mode, none⟩ }
  kept : ∀ j t, (∀ k ∈ keys, ¬ f.Around k j) → f.get? j = some t → g.get? j = some t

/-- Marks leave a forest closed. -/
theorem Closed.failLineages (closed : f.Closed) (keys : List Key) :
    (f.failLineages keys).Closed := by
  classical
  rw [closed_iff]
  intro k t found
  rw [get?_failLineages] at found
  obtain ⟨u, before, rfl⟩ := Option.map_eq_some_iff.mp found
  rw [next_failLineages]
  split <;> exact closed_iff.mp closed k u before

theorem markedFrom_failLineages (f : Forest) (keys : List Key) :
    MarkedFrom f keys (f.failLineages keys) where
  next := next_failLineages f keys
  marked k mem j t around found := by
    classical
    have some : ∃ k ∈ keys, f.Around k j := ⟨k, mem, around⟩
    rw [get?_failLineages, found, Option.map_some, if_pos some]
    rfl
  kept j t apart found := by
    classical
    have none : ¬ ∃ k ∈ keys, f.Around k j := by
      rintro ⟨k, mem, around⟩
      exact apart k mem around
    rw [get?_failLineages, found, Option.map_some, if_neg none]

/-- Several walks leave the references as they are. -/
theorem suiteOf?_failLineages (f : Forest) (keys : List Key) (k : Key) :
    (f.failLineages keys).suiteOf? k = f.suiteOf? k := by
  induction keys generalizing f with
  | nil => rfl
  | cons j keys ih =>
      rw [failLineages, List.foldl_cons, ← failLineages, ih, suiteOf?_failLineage]

/-- **Type errors recorded once and for all.**  Let no entry of a forest be among the groups
around itself, and let type errors be recorded on some of its entries one after the other.  Each
walk comes to rest when it has marked the lineage of its entry.  In the end the entries at which
walks began, and the groups around these, have the state of their mode and no error, and
everything else is as it was.  Walks that begin at the same entries come to the same forest;
recording an error twice is recording it once, and of two errors either can be recorded first. -/
theorem recorded_once_and_for_all (closed : f.Closed) (acyclic : f.Acyclic)
    (inside : ∀ k ∈ keys, k < f.next) :
    (∀ before k after, keys = before ++ k :: after →
      Relation.ReflTransGen Climbs (f.failLineages before, some k)
        (f.failLineages (before ++ [k]), none)) ∧
    MarkedFrom f keys (f.failLineages keys) ∧
    (∀ keys', (∀ k, k ∈ keys' ↔ k ∈ keys) → f.failLineages keys' = f.failLineages keys) ∧
    (∀ k, (f.failLineage k).failLineage k = f.failLineage k) ∧
    ∀ j k, (f.failLineage j).failLineage k = (f.failLineage k).failLineage j := by
  refine ⟨?_, markedFrom_failLineages f keys, fun _ => failLineages_congr, ?_, ?_⟩
  · rintro before k after rfl
    have references := suiteOf?_failLineages f before
    have still : (f.failLineages before).Acyclic := by
      intro k
      simp only [references]
      exact acyclic k
    rw [failLineages_append]
    exact climbs_failLineage (closed.failLineages before) still
      (by rw [next_failLineages]; exact inside k (by simp))
  · intro k
    show f.failLineages [k, k] = f.failLineages [k]
    exact failLineages_congr (by simp)
  · intro j k
    show f.failLineages [j, k] = f.failLineages [k, j]
    exact failLineages_congr (by simp [or_comm])

/-- A file with a skipped group, in it a test that had failed for another reason, and besides
them a group that passed. -/
def mixedModes : Forest where
  tasks := #[
    { id := "f", name := "f", shape := .file "/a.ts" [1, 3], file? := some 0 },
    { id := "s", name := "s", shape := .suite [2], mode := .skip, suite? := some 0,
      file? := some 0 },
    { id := "t", name := "t", shape := .test, mode := .only, suite? := some 1, file? := some 0,
      result? := some ⟨.fail, some ⟨"timeout", []⟩⟩ },
    { id := "p", name := "p", shape := .suite [], suite? := some 0, file? := some 0,
      result? := some ⟨.pass, none⟩ }]

theorem mixedModes_acyclic : mixedModes.Acyclic := by
  apply acyclic_of_lt
  intro k s names
  have inside : k < 4 := lt_next_of_suiteOf? names
  have each : ∀ k < 4, ∀ s ∈ mixedModes.suiteOf? k, s < k := by decide
  exact each k inside s names

/-- Recorded on the test, then on the skipped group, then on the test again: the group passed by
is as it was, and the failure of the test is no longer explained. -/
theorem recorded_once_and_for_all_mixed :
    mixedModes.Closed ∧ mixedModes.Acyclic ∧ (∀ k ∈ [2, 1, 2], k < mixedModes.next) ∧
    (mixedModes.failLineages [2, 1, 2]).tasks.toList.map (·.result?) =
      [some ⟨.fail, none⟩, some ⟨.skip, none⟩, some ⟨.fail, none⟩, some ⟨.pass, none⟩] ∧
    Relation.ReflTransGen Climbs (mixedModes.failLineages [2], some 1)
      (mixedModes.failLineages [2, 1], none) ∧
    MarkedFrom mixedModes [2, 1, 2] (mixedModes.failLineages [2, 1, 2]) ∧
    mixedModes.failLineages [1, 2] = mixedModes.failLineages [2, 1, 2] := by
  have closed : mixedModes.Closed := by decide
  have inside : ∀ k ∈ [2, 1, 2], k < mixedModes.next := by decide
  obtain ⟨rests, marked, same, -, -⟩ :=
    recorded_once_and_for_all closed mixedModes_acyclic inside
  refine ⟨closed, mixedModes_acyclic, inside, by decide, ?_, marked, ?_⟩
  · exact rests [2] 1 [2] rfl
  · exact same [1, 2] (by simp [or_comm])

end TypeVerdict.Forest
