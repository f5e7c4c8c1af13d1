import Mathlib.Data.List.Induction
import Mathlib.Data.List.Nodup
import TypeVerdict.Proofs.Accounting
import TypeVerdict.Proofs.Recording

/-!
# Trees put together in any order

A tree is put together by giving entries to groups.  The entry that is given away then names the
group as its owner, and as its file it takes the one that the group has at that moment; what it
owns already is not touched.  So whatever the order, every entry names the group that owns it.
The files are another matter: a file hands itself down only along gifts that are made from the
outside inwards (`Given.file`).  An entry in the tree of a file names this file just if the gifts
that lead down to it were made in this order, and otherwise it names none.  All entries do where
a group is given away before anything is given to it (`OutsideIn`), and the smallest tree that is
put together from the inside has one that does not (`not_every_order_hands_down`).

## Main definitions

* `Forest.Gift`, `Forest.giveAll`: an entry given to a group, and several of them in turn
* `Forest.Loose`: entries that refer to nothing yet
* `Forest.Gifts`: gifts that can be made
* `Forest.Leads`: the gifts that lead down from one entry to another
* `Forest.OutsideIn`: gifts from the outside inwards
* `Forest.Given`: what has been given, read off the references

## Main statements

* `get?_of_add`: what a gift changes
* `Given.add`, `given_of_giveAll`: what one gift, and what any number of them come to
* `references_of_giveAll`: the references of a tree, whatever the order of its gifts
* `not_every_order_hands_down`: the order matters
-/

namespace TypeVerdict.Forest

/-- An entry given to a group. -/
@[ext]
structure Gift where
  owner : Key
  child : Key
deriving DecidableEq, Repr

variable {f f' f₀ : Forest} {gifts : List Gift} {k r c s : Key}

/-- Entries given to groups, one after the other. -/
def giveAll (f : Forest) (gifts : List Gift) : Except NotASuite Forest :=
  gifts.foldlM (fun f gift => f.add gift.owner gift.child) f

/-- The file that an entry names as its own. -/
def fileOf? (f : Forest) (k : Key) : Option Key := (f.get? k).bind (·.file?)

/-- Whether an entry is a file. -/
def isFile (f : Forest) (k : Key) : Bool := (f.get? k).any (·.path?.isSome)

/-- **Entries that refer to nothing yet**, except that a file belongs to itself. -/
def Loose (f : Forest) : Prop :=
  ∀ k t, f.get? k = some t → t.suite? = none ∧ t.shape.tasks?.getD [] = [] ∧
    t.file? = if t.path?.isSome then some k else none

/-- **Gifts that can be made** in a forest: groups are given entries other than files, and no
entry is given away twice. -/
structure Gifts (f : Forest) (gifts : List Gift) : Prop where
  owners : ∀ gift ∈ gifts, f.IsSuite gift.owner
  inside : ∀ gift ∈ gifts, gift.child < f.next
  inner : ∀ gift ∈ gifts, f.isFile gift.child = false
  once : (gifts.map (·.child)).Nodup

/-- **The gifts that lead down** from one entry to another. -/
inductive Leads : Key → List Gift → Key → Prop where
  | nil (k : Key) : Leads k [] k
  | concat {k s : Key} {way : List Gift} (above : Leads k way s) (c : Key) :
      Leads k (way ++ [⟨s, c⟩]) c

/-- A way down is empty or ends with a gift of the entry that it leads to. -/
theorem Leads.eq_or_concat {way : List Gift} (leads : Leads r way c) :
    way = [] ∧ c = r ∨ ∃ s above, way = above ++ [⟨s, c⟩] ∧ Leads r above s := by
  cases leads with
  | nil => exact .inl ⟨rfl, rfl⟩
  | @concat s above leads => exact .inr ⟨s, above, rfl, leads⟩

/-- A way down by some of several gifts either ends with the last of these or does without it. -/
theorem Leads.last_or_before {gift : Gift} {way : List Gift} (leads : Leads r way c)
    (sub : way.Sublist (gifts ++ [gift])) :
    way.Sublist gifts ∨
      gift.child = c ∧ ∃ above, Leads r above gift.owner ∧ above.Sublist gifts := by
  obtain ⟨front, back, rfl, before, last⟩ := List.sublist_append_iff.mp sub
  obtain rfl | rfl := List.sublist_singleton.mp last
  · rw [List.append_nil]
    exact .inl before
  · obtain ⟨empty, -⟩ | ⟨s, above, same, upper⟩ := leads.eq_or_concat
    · simp at empty
    · obtain ⟨rfl, ends⟩ := List.append_inj' same rfl
      cases ends
      exact .inr ⟨rfl, front, upper, before⟩

/-- **Gifts from the outside inwards**: once something is given to a group, this group is given
to nobody any more. -/
def OutsideIn (gifts : List Gift) : Prop :=
  ∀ before gift after, gifts = before ++ gift :: after →
    ∀ later ∈ gift :: after, later.child ≠ gift.owner

/-! ### One gift -/

/-- **What a gift changes**: the group owns an entry more, and this entry names the group and the
file that the group belongs to. -/
theorem get?_of_add {owner child : Key} (added : f.add owner child = .ok f') (k : Key) :
    f'.get? k = (f.get? k).map fun t => { t with
      shape := if owner = k then t.shape.push child else t.shape
      suite? := if child = k then some owner else t.suite?
      file? := if child = k then f.fileOf? owner else t.file? } := by
  unfold Forest.add at added
  split at added
  · cases added
  · cases added
    rw [get?_own, get?_modify]
    cases f.get? k with
    | none => simp
    | some t =>
        by_cases given : child = k <;> by_cases owns : owner = k <;> simp [given, owns, fileOf?]

/-- A group can be given any entry. -/
theorem exists_add {owner : Key} (group : f.IsSuite owner) (child : Key) :
    ∃ f', f.add owner child = .ok f' := by
  obtain ⟨tasks, tasks?⟩ := group
  rw [Forest.add, tasks?]
  exact ⟨_, rfl⟩

theorem tasksOf?_of_add {owner child : Key} (added : f.add owner child = .ok f') (k : Key) :
    f'.tasksOf? k = (f.tasksOf? k).map (· ++ if owner = k then [child] else []) := by
  rw [tasksOf?, tasksOf?, get?_of_add added]
  cases f.get? k with
  | none => rfl
  | some t =>
      by_cases owns : owner = k
      · simp [owns, Shape.tasks?_push]
      · simp [owns]

theorem next_of_add {owner child : Key} (added : f.add owner child = .ok f') :
    f'.next = f.next := by
  unfold Forest.add at added
  split at added
  · cases added
  · cases added
    simp [own]

/-! ### What has been given -/

/-- **What has been given**, read off the references: a group owns what it was given, in order;
an entry names the group that it was given to; and it names a file just if the gifts that lead
down to it from the file were made in their order. -/
structure Given (f₀ : Forest) (gifts : List Gift) (f : Forest) : Prop where
  next : f.next = f₀.next
  suites : ∀ k, f.IsSuite k ↔ f₀.IsSuite k
  owned : ∀ k, f.owned k = (gifts.filter (·.owner = k)).map (·.child)
  suite : ∀ s c, f.suiteOf? c = some s ↔ ⟨s, c⟩ ∈ gifts
  file : ∀ r c, f.fileOf? c = some r ↔ f₀.isFile r = true ∧ ∃ way, Leads r way c ∧ way.Sublist gifts

namespace Given

theorem mem_owned (given : Given f₀ gifts f) : c ∈ f.owned s ↔ ⟨s, c⟩ ∈ gifts := by
  rw [given.owned, List.mem_map]
  constructor
  · rintro ⟨gift, mem, rfl⟩
    obtain ⟨mem, owner⟩ := List.mem_filter.mp mem
    rwa [← of_decide_eq_true owner]
  · intro mem
    exact ⟨⟨s, c⟩, List.mem_filter.mpr ⟨mem, decide_eq_true rfl⟩, rfl⟩

/-- Before the first gift every file has itself. -/
theorem nil (loose : f₀.Loose) : Given f₀ [] f₀ where
  next := rfl
  suites _ := Iff.rfl
  owned k := by
    rw [Forest.owned, tasksOf?]
    cases found : f₀.get? k with
    | none => rfl
    | some t => exact (loose k t found).2.1
  suite s c := by
    rw [suiteOf?]
    cases found : f₀.get? c with
    | none => simp
    | some t => simp [(loose c t found).1]
  file r c := by
    constructor
    · intro names
      obtain ⟨t, found, file?⟩ := Option.bind_eq_some_iff.mp names
      rw [(loose c t found).2.2] at file?
      split at file?
      · next path =>
          cases file?
          exact ⟨by rw [isFile, found, Option.any_some, path], [], .nil r, .refl []⟩
      · cases file?
    · rintro ⟨file, way, leads, sub⟩
      cases List.sublist_nil.mp sub
      obtain ⟨-, rfl⟩ | ⟨s, above, empty, -⟩ := leads.eq_or_concat
      · obtain ⟨t, found, path⟩ := (Option.any_eq_true _ _).mp file
        rw [fileOf?, found, Option.bind_some, (loose c t found).2.2, if_pos path]
      · simp at empty

/-- **One gift more.**  The gifts that lead down to the entry given are those that led down to
the group, and this one; to every other entry they are the same as before. -/
theorem add {gift : Gift} (given : Given f₀ gifts f) (fits : Gifts f₀ (gifts ++ [gift]))
    (added : f.add gift.owner gift.child = .ok f') : Given f₀ (gifts ++ [gift]) f' := by
  have inside : gift.child < f₀.next := fits.inside gift (by simp)
  have inner : f₀.isFile gift.child = false := fits.inner gift (by simp)
  have first : ∀ g ∈ gifts, g.child ≠ gift.child := by
    have once := fits.once
    rw [List.map_append, List.nodup_append] at once
    intro g mem
    exact once.2.2 g.child (List.mem_map_of_mem mem) gift.child (by simp)
  obtain ⟨t, found⟩ := exists_get? (given.next ▸ inside)
  constructor
  case next => rw [next_of_add added, given.next]
  case suites =>
    intro k
    rw [← given.suites, IsSuite, IsSuite, tasksOf?_of_add added]
    simp
  case owned =>
    intro k
    have group : f.IsSuite gift.owner := (given.suites _).mpr (fits.owners gift (by simp))
    have before := given.owned k
    rw [Forest.owned] at before ⊢
    rw [tasksOf?_of_add added, List.filter_append, List.map_append, ← before]
    by_cases owns : gift.owner = k
    · obtain ⟨tasks, tasks?⟩ := group
      rw [owns] at tasks?
      simp [owns, tasks?]
    · simp [owns]
  case suite =>
    intro s c
    rw [suiteOf?, get?_of_add added]
    by_cases new : gift.child = c
    · have noneBefore : ⟨s, c⟩ ∉ gifts := fun mem => first _ mem new.symm
      subst new
      simp [found, noneBefore, Gift.ext_iff, eq_comm]
    · have other : ¬ (⟨s, c⟩ : Gift) = gift := fun same => new (by rw [← same])
      rw [List.mem_append, List.mem_singleton, or_iff_left other, ← given.suite, suiteOf?]
      cases f.get? c with
      | none => rfl
      | some u => simp [new]
  case file =>
    intro r c
    by_cases new : gift.child = c
    · subst new
      have takes : f'.fileOf? gift.child = f.fileOf? gift.owner := by
        rw [fileOf?, get?_of_add added, found]
        simp
      rw [takes, given.file]
      apply and_congr_right
      intro file
      constructor
      · rintro ⟨way, leads, sub⟩
        exact ⟨way ++ [gift], .concat leads gift.child, sub.append_right [gift]⟩
      · rintro ⟨way, leads, sub⟩
        obtain before | ⟨-, above⟩ := leads.last_or_before sub
        · -- the entry given is no file, and no gift before led to it
          obtain ⟨-, same⟩ | ⟨s, above, rfl, -⟩ := leads.eq_or_concat
          · exact absurd (same ▸ file) (Bool.eq_false_iff.mp inner)
          · exact absurd rfl (first ⟨s, gift.child⟩ (before.subset (by simp)))
        · exact above
    · have keeps : f'.fileOf? c = f.fileOf? c := by
        rw [fileOf?, fileOf?, get?_of_add added]
        cases f.get? c with
        | none => rfl
        | some u => simp [new]
      rw [keeps, given.file]
      apply and_congr_right
      intro _
      constructor
      · rintro ⟨way, leads, sub⟩
        exact ⟨way, leads, sub.trans (List.sublist_append_left gifts [gift])⟩
      · rintro ⟨way, leads, sub⟩
        obtain before | ⟨same, -⟩ := leads.last_or_before sub
        · exact ⟨way, leads, before⟩
        · exact absurd same new

/-- What gifts lead down to is in the tree. -/
theorem below_of_leads (given : Given f₀ gifts f) {way : List Gift} (leads : Leads r way c)
    (sub : way.Sublist gifts) : f.Below r c := by
  induction leads with
  | nil => exact .refl
  | concat above c ih =>
      have front := (List.sublist_append_left _ _).trans sub
      exact (ih front).tail (given.mem_owned.mpr (sub.subset (by simp)))

/-- An entry in the tree of another that is given away from the outside inwards is led down to. -/
theorem exists_way (given : Given f₀ gifts f) (order : OutsideIn gifts) (below : f.Below r c) :
    ∃ way, Leads r way c ∧ way.Sublist gifts := by
  induction below with
  | refl => exact ⟨[], .nil r, List.nil_sublist gifts⟩
  | @tail b c _ owns ih =>
      obtain ⟨way, leads, sub⟩ := ih
      obtain ⟨before, after, rfl⟩ := List.append_of_mem (given.mem_owned.mp owns)
      -- the way to the group was complete when the entry was given to the group
      have complete : way.Sublist before := by
        obtain ⟨front, back, rfl, sub, rest⟩ := List.sublist_append_iff.mp sub
        obtain rfl | ⟨back, last, rfl⟩ := List.eq_nil_or_concat' back
        · rwa [List.append_nil]
        · obtain ⟨empty, -⟩ | ⟨s, above, same, -⟩ := leads.eq_or_concat
          · simp at empty
          · rw [← List.append_assoc] at same
            obtain ⟨-, ends⟩ := List.append_inj' same rfl
            cases ends
            exact absurd rfl (order before ⟨b, c⟩ after rfl ⟨s, b⟩ (rest.subset (by simp)))
      exact ⟨way ++ [⟨b, c⟩], leads.concat c, complete.append (by simp)⟩

/-- No entry is in the trees of two files. -/
theorem eq_of_below (given : Given f₀ gifts f) (fits : Gifts f₀ gifts) {q : Key}
    (file : f₀.isFile r = true) (other : f₀.isFile q = true) (below : f.Below r c)
    (also : f.Below q c) : q = r := by
  have top : ∀ {file b}, f₀.isFile file = true → file ∉ f.owned b := by
    intro file b isFile owns
    have inner : f₀.isFile file = false := fits.inner _ (given.mem_owned.mp owns)
    rw [isFile] at inner
    cases inner
  induction below with
  | refl =>
      cases also with
      | refl => rfl
      | tail _ owns => exact absurd owns (top file)
  | @tail b c _ owns ih =>
      cases also with
      | refl => exact absurd owns (top other)
      | @tail b' _ also owns' =>
          have first := given.mem_owned.mp owns
          have second := given.mem_owned.mp owns'
          have same : (⟨b, c⟩ : Gift) = ⟨b', c⟩ :=
            List.inj_on_of_nodup_map fits.once first second rfl
          cases same
          exact ih also

end Given

/-! ### Any number of gifts -/

theorem Gifts.of_append {more : List Gift} (fits : Gifts f (gifts ++ more)) : Gifts f gifts where
  owners gift mem := fits.owners gift (List.mem_append_left more mem)
  inside gift mem := fits.inside gift (List.mem_append_left more mem)
  inner gift mem := fits.inner gift (List.mem_append_left more mem)
  once := by
    have once := fits.once
    rw [List.map_append] at once
    exact once.of_append_left

theorem given_of_giveAll (loose : f₀.Loose) (fits : Gifts f₀ gifts) :
    ∃ f, f₀.giveAll gifts = .ok f ∧ Given f₀ gifts f := by
  induction gifts using List.reverseRecOn with
  | nil => exact ⟨f₀, rfl, .nil loose⟩
  | append_singleton gifts gift ih =>
      obtain ⟨f, before, given⟩ := ih fits.of_append
      have group : f.IsSuite gift.owner := (given.suites _).mpr (fits.owners gift (by simp))
      obtain ⟨f', added⟩ := exists_add group gift.child
      refine ⟨f', ?_, given.add fits added⟩
      rw [giveAll, List.foldlM_append, ← giveAll, before]
      simp only [List.foldlM_cons, List.foldlM_nil, bind_pure]
      exact added

/-- **The references of a tree, whatever the order of its gifts.**  Let no entry of a forest refer
to another yet, and let entries other than files be given to groups, none of them twice.  Then
every entry names the group that owns it.  An entry in the tree of a file names this file just if
some of the gifts lead down to it from the file in the order in which they were made, and no file
otherwise.  If nothing was given to a group before this group was given away itself, then
everything in the tree of a file names the file. -/
theorem references_of_giveAll (loose : f₀.Loose) (fits : Gifts f₀ gifts) :
    ∃ f, f₀.giveAll gifts = .ok f ∧
      (∀ s, ∀ c ∈ f.owned s, f.suiteOf? c = some s) ∧
      (∀ r c, f₀.isFile r = true → f.Below r c →
        (f.fileOf? c = some r ↔ ∃ way, Leads r way c ∧ way.Sublist gifts) ∧
        (f.fileOf? c = some r ∨ f.fileOf? c = none)) ∧
      (OutsideIn gifts → ∀ r c, f₀.isFile r = true → f.Below r c → f.fileOf? c = some r) := by
  obtain ⟨f, gave, given⟩ := given_of_giveAll loose fits
  refine ⟨f, gave, ?_, ?_, ?_⟩
  · intro s c owns
    exact (given.suite s c).mpr (given.mem_owned.mp owns)
  · intro r c file below
    refine ⟨?_, ?_⟩
    · rw [given.file, and_iff_right file]
    · cases names : f.fileOf? c with
      | none => exact .inr rfl
      | some q =>
          obtain ⟨other, way, leads, sub⟩ := (given.file q c).mp names
          have also : f.Below q c := given.below_of_leads leads sub
          rw [given.eq_of_below fits file other below also]
          exact .inl rfl
  · intro order r c file below
    exact (given.file r c).mpr ⟨file, given.exists_way order below⟩

/-- A file, two groups and a test. -/
def unassembled : Forest where
  tasks := #[
    { id := "f", name := "f", shape := .file "/a.ts" [], file? := some 0 },
    { id := "s", name := "s", shape := .suite [] },
    { id := "u", name := "u", shape := .suite [] },
    { id := "t", name := "t", shape := .test }]

theorem unassembled_loose : unassembled.Loose := by
  intro k t found
  have inside : k < 4 := lt_next_of_get? found
  have each : ∀ k < 4, ∀ t ∈ unassembled.get? k, t.suite? = none ∧
      t.shape.tasks?.getD [] = [] ∧ t.file? = if t.path?.isSome then some k else none := by decide
  exact each k inside t found

/-- The test to the inner group, and only then this one to the outer, which the file has already:
everything names its owner, and the test alone does not name the file. -/
theorem references_of_giveAll_mixed :
    unassembled.Loose ∧ Gifts unassembled [⟨0, 1⟩, ⟨2, 3⟩, ⟨1, 2⟩] ∧
    ∃ f, unassembled.giveAll [⟨0, 1⟩, ⟨2, 3⟩, ⟨1, 2⟩] = .ok f ∧
      f.tasks.toList.map (·.suite?) = [none, some 0, some 1, some 2] ∧
      f.tasks.toList.map (·.file?) = [some 0, some 0, some 0, none] ∧
      (∀ s, ∀ c ∈ f.owned s, f.suiteOf? c = some s) ∧
      ∀ c, f.Below 0 c →
        (f.fileOf? c = some 0 ↔ ∃ way, Leads 0 way c ∧ way.Sublist [⟨0, 1⟩, ⟨2, 3⟩, ⟨1, 2⟩]) := by
  have fits : Gifts unassembled [⟨0, 1⟩, ⟨2, 3⟩, ⟨1, 2⟩] :=
    { owners := by simp [IsSuite, tasksOf?, Forest.get?, unassembled, Shape.tasks?]
      inside := by decide
      inner := by decide
      once := by decide }
  obtain ⟨f, gave, owners, files, -⟩ := references_of_giveAll unassembled_loose fits
  refine ⟨unassembled_loose, fits, f, gave, ?_, ?_, owners, fun c below => (files 0 c rfl below).1⟩
  all_goals
    cases gave
    decide

/-- **The order matters**: a test given to a group that is given to a file only afterwards does not
name the file, although no entry is around itself. -/
theorem not_every_order_hands_down :
    ¬ ∀ (f₀ f : Forest) (gifts : List Gift), f₀.Loose → Gifts f₀ gifts →
      f₀.giveAll gifts = .ok f → f.Acyclic →
      (∀ s, ∀ c ∈ f.owned s, f.suiteOf? c = some s) ∧
      ∀ r c, f₀.isFile r = true → f.Below r c → f.fileOf? c = some r := by
  intro always
  have fits : Gifts unassembled [⟨1, 3⟩, ⟨0, 1⟩] :=
    { owners := by simp [IsSuite, tasksOf?, Forest.get?, unassembled, Shape.tasks?]
      inside := by decide
      inner := by decide
      once := by decide }
  obtain ⟨f, gave, given⟩ := given_of_giveAll unassembled_loose fits
  have acyclic : f.Acyclic := by
    apply acyclic_of_lt
    intro k s names
    have gift := (given.suite s k).mp names
    simp only [List.mem_cons, Gift.mk.injEq, List.not_mem_nil, or_false] at gift
    rcases gift with ⟨rfl, rfl⟩ | ⟨rfl, rfl⟩ <;> decide
  have below : f.Below 0 3 :=
    .head (given.mem_owned.mpr (by decide : ⟨0, 1⟩ ∈ [(⟨1, 3⟩ : Gift), ⟨0, 1⟩]))
      (.single (given.mem_owned.mpr (by decide)))
  have names := (always _ f _ unassembled_loose fits gave acyclic).2 0 3 rfl below
  cases gave
  revert names
  decide

end TypeVerdict.Forest
