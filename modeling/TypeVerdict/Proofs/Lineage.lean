import Mathlib.Data.Finset.Card
import Mathlib.Data.Fintype.Card
import Mathlib.Logic.Relation
import TypeVerdict.Task.Forest

/-!
# The groups around an entry

The entries of a forest refer to the groups that own them, and following these references
leads from an entry outwards (`Around`).  The model follows them only as often as the
forest has entries.  That is enough, whatever the references are: a shortest way from one
entry to another visits no entry twice, so a lineage has all groups around its entry, and
a type error that is recorded on a lineage is recorded on just these.

## Main definitions

* `Forest.Around`: an entry or one of the groups around it
* `Forest.Closed`: all references of a forest lead to its entries
* `Task.failed`: an entry with a type error recorded on it

## Main statements

* `Closed.insert`, `Closed.add`: forests that are put together are closed
* `mem_lineage_iff`: a lineage has the entry and all groups around it
* `get?_failLineage`: what recording a type error on a lineage changes
-/

namespace TypeVerdict

/-- An entry with a type error recorded on it or below it. -/
def Task.failed (t : Task) : Task := { t with result? := some (Result.ofMode t.mode) }

namespace Forest

variable {f : Forest} {k a s : Key}

/-! ### References -/

/-- **All references lead to entries**: the groups that entries name, and the entries that
groups own, are entries of the forest. -/
def Closed (f : Forest) : Prop :=
  ∀ t ∈ f.tasks, (∀ s ∈ t.suite?, s < f.next) ∧ ∀ c ∈ t.shape.tasks?.getD [], c < f.next

instance : Decidable f.Closed :=
  inferInstanceAs (Decidable (∀ t ∈ f.tasks,
    (∀ s ∈ t.suite?, s < f.next) ∧ ∀ c ∈ t.shape.tasks?.getD [], c < f.next))

theorem get?_isSome_iff : (f.get? k).isSome ↔ k < f.next := by
  simp [get?, next]

theorem lt_next_of_get? {t : Task} (h : f.get? k = some t) : k < f.next :=
  get?_isSome_iff.mp (by simp [h])

theorem exists_get? (h : k < f.next) : ∃ t, f.get? k = some t :=
  Option.isSome_iff_exists.mp (get?_isSome_iff.mpr h)

theorem Closed.suite_lt (h : f.Closed) {t : Task} (ht : f.get? k = some t)
    (hs : t.suite? = some s) : s < f.next :=
  (h t (Array.mem_of_getElem? ht)).1 s (by simp [hs])

@[simp] theorem next_modify (f : Forest) (k : Key) (change : Task → Task) :
    (f.modify k change).next = f.next := by
  simp [next, modify]

@[simp] theorem next_insert (f : Forest) (t : Task) : (f.insert t).next = f.next + 1 := by
  simp [next, insert]

/-! Trees are put together from new entries, which refer to nothing yet, by giving entries to
groups.  Both leave a forest closed. -/

theorem closed_iff : f.Closed ↔ ∀ k t, f.get? k = some t →
    (∀ s ∈ t.suite?, s < f.next) ∧ ∀ c ∈ t.shape.tasks?.getD [], c < f.next := by
  constructor
  · intro h k t ht
    exact h t (Array.mem_of_getElem? ht)
  · intro h t mem
    obtain ⟨k, ht⟩ := Array.mem_iff_getElem?.mp mem
    exact h k t ht

/-- **A new entry leaves a forest closed.** -/
theorem Closed.insert (h : f.Closed) {t : Task} (outer : t.suite? = none)
    (empty : t.shape.tasks?.getD [] = []) : (f.insert t).Closed := by
  rw [closed_iff]
  intro k u hu
  rw [get?_insert] at hu
  rw [next_insert]
  split at hu
  · cases hu
    rw [outer, empty]
    simp
  · obtain ⟨suites, tasks⟩ := closed_iff.mp h k u hu
    exact ⟨fun s mem => Nat.lt_succ_of_lt (suites s mem),
      fun c mem => Nat.lt_succ_of_lt (tasks c mem)⟩

theorem Closed.modify (h : f.Closed) (j : Key) {change : Task → Task}
    (keeps : ∀ t, (∀ s ∈ t.suite?, s < f.next) ∧ (∀ c ∈ t.shape.tasks?.getD [], c < f.next) →
      (∀ s ∈ (change t).suite?, s < f.next) ∧
        ∀ c ∈ (change t).shape.tasks?.getD [], c < f.next) :
    (f.modify j change).Closed := by
  rw [closed_iff]
  intro k u hu
  rw [get?_modify] at hu
  rw [next_modify]
  split at hu
  · obtain ⟨t, ht, rfl⟩ := Option.map_eq_some_iff.mp hu
    exact keeps t (closed_iff.mp h k t ht)
  · exact closed_iff.mp h k u hu

/-- **An entry given to a group leaves a forest closed.** -/
theorem Closed.add (h : f.Closed) {owner child : Key} (inside : child < f.next) {f' : Forest}
    (added : f.add owner child = .ok f') : f'.Closed := by
  unfold Forest.add at added
  split at added
  · cases added
  · next tasks owns =>
      cases added
      obtain ⟨t, ht, -⟩ := Option.bind_eq_some_iff.mp owns
      have wired : (f.modify child fun t =>
          { t with suite? := some owner, file? := (f.get? owner).bind (·.file?) }).Closed :=
        h.modify child fun t ok => ⟨by simpa using lt_next_of_get? ht, ok.2⟩
      refine wired.modify owner fun t ok => ⟨ok.1, ?_⟩
      intro c mem
      rw [next_modify] at ok ⊢
      cases shape : t.shape with
      | test | typecheck => simp [shape, Shape.push, Shape.tasks?] at mem
      | suite tasks | file path tasks =>
          rw [shape] at mem ok
          rcases List.mem_append.mp mem with old | new
          · exact ok.2 c old
          · cases List.mem_singleton.mp new
            exact inside

/-! ### Around an entry -/

/-- The group that an entry names as its owner. -/
def suiteOf? (f : Forest) (k : Key) : Option Key := (f.get? k).bind (·.suite?)

/-- **An entry or one of the groups around it**, as the references to groups lead. -/
def Around (f : Forest) : Key → Key → Prop :=
  Relation.ReflTransGen fun k s => f.suiteOf? k = some s

theorem suiteOf?_eq_some {t : Task} (ht : f.get? k = some t) : f.suiteOf? k = t.suite? := by
  rw [suiteOf?, ht, Option.bind_some]

theorem lt_next_of_suiteOf? (h : f.suiteOf? k = some s) : k < f.next := by
  obtain ⟨t, ht, -⟩ := Option.bind_eq_some_iff.mp h
  exact lt_next_of_get? ht

/-- From inside a closed forest the references do not lead out of it. -/
theorem Closed.lt_next_of_around (h : f.Closed) (around : f.Around k a) (inside : k < f.next) :
    a < f.next := by
  induction around with
  | refl => exact inside
  | tail _ step _ =>
      obtain ⟨t, ht, hs⟩ := Option.bind_eq_some_iff.mp step
      exact h.suite_lt ht hs

/-- Where a number of references lead. -/
def ancestor? (f : Forest) : Nat → Key → Option Key
  | 0, k => some k
  | n + 1, k => (f.suiteOf? k).bind (f.ancestor? n)

theorem ancestor?_add (m n : Nat) :
    f.ancestor? (m + n) k = (f.ancestor? m k).bind (f.ancestor? n) := by
  induction m generalizing k with
  | zero => rw [Nat.zero_add]; rfl
  | succ m ih =>
      rw [Nat.succ_add, ancestor?, ancestor?, Option.bind_assoc]
      congr 1
      funext s
      exact ih

theorem around_iff : f.Around k a ↔ ∃ n, f.ancestor? n k = some a := by
  constructor
  · intro h
    induction h using Relation.ReflTransGen.head_induction_on with
    | refl => exact ⟨0, rfl⟩
    | head step _ ih =>
        obtain ⟨n, hn⟩ := ih
        exact ⟨n + 1, by rw [ancestor?, step, Option.bind_some, hn]⟩
  · rintro ⟨n, hn⟩
    induction n generalizing k with
    | zero =>
        cases hn
        exact .refl
    | succ n ih =>
        obtain ⟨s, step, rest⟩ := Option.bind_eq_some_iff.mp hn
        exact .head step (ih rest)

/-- Only entries of the forest lead on. -/
theorem lt_next_of_ancestor? {m n : Nat} (h : f.ancestor? n k = some a) (inside : a < f.next)
    (le : m ≤ n) : ∃ b, f.ancestor? m k = some b ∧ b < f.next := by
  obtain ⟨rest, rfl⟩ := Nat.exists_eq_add_of_le le
  rw [ancestor?_add] at h
  obtain ⟨b, hb, h⟩ := Option.bind_eq_some_iff.mp h
  refine ⟨b, hb, ?_⟩
  cases rest with
  | zero =>
      cases h
      exact inside
  | succ rest =>
      obtain ⟨s, step, -⟩ := Option.bind_eq_some_iff.mp h
      exact lt_next_of_suiteOf? step

/-- **A way as long as the forest is large visits an entry twice**: it has more places than there
are entries. -/
theorem exists_visited_twice {n : Nat} (leads : f.ancestor? n k = some a) (inside : a < f.next)
    (long : f.next ≤ n) :
    ∃ p q b, p < q ∧ q ≤ n ∧ f.ancestor? p k = some b ∧ f.ancestor? q k = some b := by
  have visits : ∀ m ∈ Finset.range (n + 1), (f.ancestor? m k).getD 0 ∈ Finset.range f.next := by
    intro m hm
    obtain ⟨b, hb, lt⟩ := lt_next_of_ancestor? leads inside
      (Nat.lt_succ_iff.mp (Finset.mem_range.mp hm))
    rw [hb]
    exact Finset.mem_range.mpr lt
  have more : (Finset.range f.next).card < (Finset.range (n + 1)).card := by
    rw [Finset.card_range, Finset.card_range]
    exact Nat.lt_succ_of_le long
  obtain ⟨p, hp, q, hq, differ, same⟩ :=
    Finset.exists_ne_map_eq_of_card_lt_of_maps_to more visits
  wlog before : p < q generalizing p q
  · exact this q hq p hp differ.symm same.symm (by omega)
  have le : q ≤ n := Nat.lt_succ_iff.mp (Finset.mem_range.mp hq)
  obtain ⟨b, hb, -⟩ := lt_next_of_ancestor? leads inside (before.le.trans le)
  obtain ⟨c, hc, -⟩ := lt_next_of_ancestor? leads inside le
  have twice : b = c := by simpa [hb, hc] using same
  exact ⟨p, q, b, before, le, hb, twice ▸ hc⟩

/-- **A way that leads to an entry can be chosen shorter than the forest is large**, because
the shortest one visits no entry twice. -/
theorem exists_ancestor?_lt (h : f.Around k a) (inside : a < f.next) :
    ∃ n < f.next, f.ancestor? n k = some a := by
  classical
  have leads : ∃ n, f.ancestor? n k = some a := around_iff.mp h
  obtain ⟨n, hn, least⟩ : ∃ n, f.ancestor? n k = some a ∧ ∀ m < n, f.ancestor? m k ≠ some a :=
    ⟨Nat.find leads, Nat.find_spec leads, fun m lt => Nat.find_min leads lt⟩
  refine ⟨n, ?_, hn⟩
  by_contra large
  obtain ⟨p, q, b, before, le, first, again⟩ :=
    exists_visited_twice hn inside (Nat.le_of_not_lt large)
  -- leaving out what lies between the two visits makes the way shorter
  have shorter : f.ancestor? (p + (n - q)) k = some a := by
    obtain ⟨rest, split⟩ := Nat.exists_eq_add_of_le le
    rw [split, ancestor?_add, again, Option.bind_some] at hn
    rw [ancestor?_add, first, Option.bind_some, split, Nat.add_sub_cancel_left, hn]
  exact least (p + (n - q)) (by omega) shorter

/-! ### Lineages -/

/-- An ancestry has what at most that many references lead to. -/
theorem mem_ancestry_iff {n : Nat} :
    a ∈ f.ancestry n k ↔ a < f.next ∧ ∃ i < n, f.ancestor? i k = some a := by
  induction n generalizing k with
  | zero => simp [ancestry]
  | succ n ih =>
      unfold ancestry
      cases ht : f.get? k with
      | none =>
          have outside : ¬ k < f.next := by
            rw [← get?_isSome_iff, ht]
            simp
          constructor
          · intro mem
            simp at mem
          · rintro ⟨inside, i, -, hi⟩
            obtain ⟨b, hb, lt⟩ := lt_next_of_ancestor? hi inside (Nat.zero_le i)
            cases hb
            exact absurd lt outside
      | some t =>
          have inside : k < f.next := lt_next_of_get? ht
          have suite : f.suiteOf? k = t.suite? := suiteOf?_eq_some ht
          constructor
          · intro mem
            rcases List.mem_cons.mp mem with rfl | mem
            · exact ⟨inside, 0, Nat.succ_pos n, rfl⟩
            · cases hs : t.suite? with
              | none => simp [hs] at mem
              | some s =>
                  rw [hs] at mem
                  obtain ⟨lt, i, hi, leads⟩ := ih.mp mem
                  refine ⟨lt, i + 1, Nat.succ_lt_succ hi, ?_⟩
                  rw [ancestor?, suite, hs, Option.bind_some, leads]
          · rintro ⟨lt, i, hi, leads⟩
            cases i with
            | zero =>
                cases leads
                exact List.mem_cons_self
            | succ i =>
                obtain ⟨s, step, leads⟩ := Option.bind_eq_some_iff.mp leads
                have further : a ∈ f.ancestry n s :=
                  ih.mpr ⟨lt, i, Nat.lt_of_succ_lt_succ hi, leads⟩
                simp [← suite, step, further]

/-- **A lineage has the entry and all groups around it.** -/
theorem mem_lineage_iff : a ∈ f.lineage k ↔ a < f.next ∧ f.Around k a := by
  rw [lineage, mem_ancestry_iff]
  constructor
  · rintro ⟨inside, n, -, leads⟩
    exact ⟨inside, around_iff.mpr ⟨n, leads⟩⟩
  · rintro ⟨inside, around⟩
    exact ⟨inside, exists_ancestor?_lt around inside⟩

theorem get?_fail (j : Key) :
    (f.fail k).get? j = (f.get? j).map fun t => if k = j then t.failed else t := by
  rw [fail, get?_modify]
  split
  · rfl
  · simp

theorem get?_foldl_fail (keys : List Key) (j : Key) :
    (keys.foldl fail f).get? j = (f.get? j).map fun t => if j ∈ keys then t.failed else t := by
  induction keys generalizing f with
  | nil => simp
  | cons k keys ih =>
      rw [List.foldl_cons, ih, get?_fail, Option.map_map]
      congr 1
      funext t
      by_cases same : k = j
      · -- recording a type error twice is recording it once
        by_cases mem : j ∈ keys <;> simp [same, mem, Task.failed]
      · have other : ¬ j = k := fun h => same h.symm
        simp [same, other]

@[simp] theorem next_failLineage : (f.failLineage k).next = f.next := by
  have kept : ∀ keys : List Key, ∀ g : Forest, (keys.foldl fail g).next = g.next := by
    intro keys
    induction keys with
    | nil =>
        intro g
        rfl
    | cons j keys ih =>
        intro g
        rw [List.foldl_cons, ih]
        simp [fail, modify, next]
  exact kept _ f

/-- **What recording a type error on a lineage changes**: the results of the entry and of all
groups around it, and nothing else. -/
theorem get?_failLineage [∀ a, Decidable (f.Around k a)] (j : Key) :
    (f.failLineage k).get? j = (f.get? j).map fun t => if f.Around k j then t.failed else t := by
  rw [failLineage, get?_foldl_fail]
  cases ht : f.get? j with
  | none => rfl
  | some t =>
      have member : j ∈ f.lineage k ↔ f.Around k j := by
        rw [mem_lineage_iff]
        exact and_iff_right (lt_next_of_get? ht)
      simp [member]

end Forest

end TypeVerdict
