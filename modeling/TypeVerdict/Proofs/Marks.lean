import Mathlib.Data.List.Sort
import TypeVerdict.Proofs.Banner

/-!
# Where banners stand

The places of a text where a banner stands, from left to right.  Banners do not
overlap, so each stands wholly to the left of the next, and a list of marks is
determined by what is in it.  A search for a banner is a search in this list.

## Main definitions

* `Mark`: a banner at a place
* `Mark.In`: the banner stands there in a text
* `marks`: all marks of a text, from left to right

## Main statements

* `mem_marks`, `pairwise_marks`: the marks of a text are the banners in it, in order
* `marks_take`: the marks of the beginning of a text
* `find_drop`: a search for a banner finds the first mark of it
-/

namespace TypeVerdict

open Text Pattern

/-- A banner at a place: which one, the offset where it begins, and its text. -/
structure Mark where
  banner : Banner
  start : Nat
  text : List Char
  written : banner.Writes text

namespace Mark

/-- The offset behind a mark. -/
def stop (m : Mark) : Nat := m.start + m.text.length

/-- The banner stands there in a text. -/
def In (m : Mark) (s : List Char) : Prop := m.text <+: s.drop m.start

theorem start_lt_stop (m : Mark) : m.start < m.stop :=
  Nat.lt_add_of_pos_right (List.length_pos_iff.mpr m.written.ne_nil)

/-- Marks are equal if they begin at one place of a text. -/
theorem eq_of_start {m m' : Mark} {s : List Char} (h : m.In s) (h' : m'.In s)
    (start : m.start = m'.start) : m = m' := by
  obtain ⟨r, hr⟩ := h
  obtain ⟨r', hr'⟩ := h'
  obtain ⟨banner, text⟩ :=
    m.written.unique m'.written (hr.trans (start ▸ hr'.symm))
  cases m
  cases m'
  simp_all

/-- **A mark ends before the next begins.** -/
theorem stop_le_start {m m' : Mark} {s : List Char} (h : m.In s) (h' : m'.In s)
    (start : m.start < m'.start) : m.stop ≤ m'.start := by
  obtain ⟨r, hr⟩ := h
  obtain ⟨d, hd⟩ := Nat.exists_eq_add_of_lt start
  refine Nat.le_of_not_lt fun inside => ?_
  rw [stop] at inside
  refine m.written.not_prefix_inside (i := d + 1) (r := r) m'.written (by omega) (by omega) ?_
  rwa [In, hd, Nat.add_assoc, ← List.drop_drop, ← hr, List.drop_append_of_le_length (by omega)]
    at h'

theorem In.stop_le {m : Mark} {s : List Char} (h : m.In s) : m.stop ≤ s.length := by
  have fits := h.length_le
  have pos := m.start_lt_stop
  rw [List.length_drop] at fits
  rw [stop] at pos ⊢
  omega

/-- The banners in the beginning of a text are those that end in it. -/
theorem in_take_iff {m : Mark} {s : List Char} {n : Nat} :
    m.In (s.take n) ↔ m.In s ∧ m.stop ≤ n := by
  have pos := m.start_lt_stop
  rw [In, In, List.drop_take, List.prefix_take_iff, stop] at *
  exact and_congr_right fun _ => by omega

/-- The same banner farther to the right. -/
def shift (n : Nat) (m : Mark) : Mark := { m with start := n + m.start }

@[simp] theorem shift_start (n : Nat) (m : Mark) : (m.shift n).start = n + m.start := rfl

@[simp] theorem shift_stop (n : Nat) (m : Mark) : (m.shift n).stop = n + m.stop :=
  Nat.add_assoc _ _ _

/-- The banners behind a place are those of the text from there on. -/
theorem exists_shift_iff {n : Nat} {s : List Char} {m : Mark} :
    (∃ m' : Mark, m'.In (s.drop n) ∧ m'.shift n = m) ↔ m.In s ∧ n ≤ m.start := by
  constructor
  · rintro ⟨m', h, rfl⟩
    rw [In, List.drop_drop] at h
    exact ⟨h, Nat.le_add_right _ _⟩
  · rintro ⟨h, behind⟩
    refine ⟨{ m with start := m.start - n }, ?_, ?_⟩
    · rw [In, List.drop_drop, Nat.add_sub_cancel' behind]
      exact h
    · rw [shift]
      simp only [Nat.add_sub_cancel' behind]

/-- One mark is to the left of another. -/
def Before (m m' : Mark) : Prop := m.stop ≤ m'.start

instance : Std.Irrefl Before where
  irrefl m h := absurd m.start_lt_stop (Nat.not_lt.mpr h)

instance : Std.Antisymm Before where
  antisymm m m' h h' := by
    have pos := m.start_lt_stop
    have pos' := m'.start_lt_stop
    rw [Before] at h h'
    omega

end Mark

/-! ### All marks of a text -/

/-- The mark of a banner at the beginning of a text. -/
def Banner.mark? (b : Banner) (s : List Char) : Option Mark :=
  match h : b.behind? s with
  | none => none
  | some r => some ⟨b, 0, s.take (s.length - r.length), by
      obtain ⟨text, writes, rfl⟩ := Banner.behind?_eq_some_iff.mp h
      simpa using writes⟩

/-- The marks of a text, from left to right. -/
def marks : List Char → List Mark
  | [] => []
  | c :: s => (Banner.rerun.mark? (c :: s)).toList ++
      ((Banner.passEnd.mark? (c :: s)).toList ++ (marks s).map (Mark.shift 1))

theorem Banner.mark?_eq_some_iff {b : Banner} {s : List Char} {m : Mark} :
    b.mark? s = some m ↔ m.banner = b ∧ m.start = 0 ∧ m.In s := by
  rw [mark?]
  constructor
  · intro h
    split at h
    · cases h
    · next r read =>
        cases h
        exact ⟨rfl, rfl, List.take_prefix _ _⟩
  · obtain ⟨b', start, text, written⟩ := m
    rintro ⟨rfl, rfl, r, rfl⟩
    have read := written.behind? r
    split
    · next none => simp [none] at read
    · next r' same =>
        rw [read, Option.some_inj] at same
        subst same
        simp

theorem mem_map_shift_iff {n : Nat} {s : List Char} {ms : List Mark}
    (h : ∀ m : Mark, m ∈ ms ↔ m.In (s.drop n)) {m : Mark} :
    m ∈ ms.map (Mark.shift n) ↔ m.In s ∧ n ≤ m.start := by
  rw [← Mark.exists_shift_iff, List.mem_map]
  simp only [h]

/-- **The marks of a text are the banners that stand in it.** -/
theorem mem_marks {s : List Char} {m : Mark} : m ∈ marks s ↔ m.In s := by
  induction s generalizing m with
  | nil => simp [marks, Mark.In, m.written.ne_nil]
  | cons c s ih =>
      have tail := mem_map_shift_iff (n := 1) (s := c :: s) (fun _ => ih) (m := m)
      simp only [marks, List.mem_append, Option.mem_toList, Banner.mark?_eq_some_iff, tail]
      cases m.banner <;> grind

theorem pairwise_map_shift {ms : List Mark} (h : ms.Pairwise Mark.Before) (n : Nat) :
    (ms.map (Mark.shift n)).Pairwise Mark.Before := by
  rw [List.pairwise_map]
  refine h.imp fun before => ?_
  rw [Mark.Before, Mark.shift_stop, Mark.shift_start]
  exact Nat.add_le_add_left before n

/-- **The marks of a text are in order.** -/
theorem pairwise_marks (s : List Char) : (marks s).Pairwise Mark.Before := by
  induction s with
  | nil => exact List.Pairwise.nil
  | cons c s ih =>
      have tail : ∀ m ∈ (marks s).map (Mark.shift 1), m.In (c :: s) ∧ 1 ≤ m.start :=
        fun m => (mem_map_shift_iff (n := 1) (s := c :: s) (fun _ => mem_marks)).mp
      have first : ∀ {b : Banner} {m m' : Mark}, b.mark? (c :: s) = some m →
          m' ∈ (marks s).map (Mark.shift 1) → m.Before m' := by
        intro b m m' here mem
        obtain ⟨-, start, stands⟩ := Banner.mark?_eq_some_iff.mp here
        obtain ⟨stands', behind⟩ := tail m' mem
        exact m.stop_le_start stands stands' (by omega)
      have single : ∀ m? : Option Mark, m?.toList.Pairwise Mark.Before := by
        intro m?
        cases m? <;> simp
      rw [marks, List.pairwise_append, List.pairwise_append]
      refine ⟨single _, ⟨single _, pairwise_map_shift ih 1, ?_⟩, ?_⟩
      · exact fun m here m' mem => first (Option.mem_toList.mp here) mem
      · intro m here m' mem
        rcases List.mem_append.mp mem with here' | mem
        · -- one place has one banner
          obtain ⟨rerun, start, stands⟩ :=
            Banner.mark?_eq_some_iff.mp (Option.mem_toList.mp here)
          obtain ⟨passEnd, start', stands'⟩ :=
            Banner.mark?_eq_some_iff.mp (Option.mem_toList.mp here')
          cases Mark.eq_of_start stands stands' (start.trans start'.symm)
          cases rerun.symm.trans passEnd
        · exact first (Option.mem_toList.mp here) mem

/-- The marks of the beginning of a text are those that end in it. -/
theorem marks_take (s : List Char) (n : Nat) :
    marks (s.take n) = (marks s).filter (·.stop ≤ n) := by
  refine (pairwise_marks _).eq_of_mem_iff ((pairwise_marks s).filter _) fun m => ?_
  rw [List.mem_filter, mem_marks, mem_marks, Mark.in_take_iff, decide_eq_true_iff]

/-- The marks of the rest of a text are those that begin in it. -/
theorem map_shift_marks_drop (s : List Char) (n : Nat) :
    (marks (s.drop n)).map (Mark.shift n) = (marks s).filter (n ≤ ·.start) := by
  refine (pairwise_map_shift (pairwise_marks _) n).eq_of_mem_iff
    ((pairwise_marks s).filter _) fun m => ?_
  rw [mem_map_shift_iff fun _ => mem_marks, List.mem_filter, mem_marks, decide_eq_true_iff]

/-! ### Searching -/

/-- The first mark of a banner. -/
def firstOf (b : Banner) (ms : List Mark) : Option Mark := ms.find? (·.banner = b)

theorem firstOf_append (b : Banner) (ms ms' : List Mark) :
    firstOf b (ms ++ ms') = (firstOf b ms).or (firstOf b ms') := List.find?_append

theorem firstOf_map_shift (b : Banner) (n : Nat) (ms : List Mark) :
    firstOf b (ms.map (Mark.shift n)) = (firstOf b ms).map (Mark.shift n) := List.find?_map

theorem firstOf_mark? (b b' : Banner) (s : List Char) :
    firstOf b (b'.mark? s).toList = if b' = b then b.mark? s else none := by
  cases here : b'.mark? s with
  | none =>
      split
      · next same => rw [← same, here]; rfl
      · rfl
  | some m =>
      obtain ⟨banner, -, -⟩ := Banner.mark?_eq_some_iff.mp here
      split
      · next same => simp [firstOf, ← same, here, banner]
      · next other => simp [firstOf, banner, other]

theorem firstOf_marks_cons (b : Banner) (c : Char) (s : List Char) :
    firstOf b (marks (c :: s)) =
      (b.mark? (c :: s)).or ((firstOf b (marks s)).map (Mark.shift 1)) := by
  rw [marks, firstOf_append, firstOf_append, firstOf_mark?, firstOf_mark?, firstOf_map_shift]
  cases b <;> simp

/-- The matcher ends where the mark ends. -/
theorem map_offset_run (b : Banner) (c : Cursor) :
    (run b.pattern some c).map Cursor.offset =
      (b.mark? c.rest).map fun m => c.offset + m.stop := by
  have reads := b.reads_pattern c
  cases here : run b.pattern some c with
  | none =>
      rw [here, Option.map_none] at reads
      rw [Banner.mark?]
      split
      · rfl
      · next r read => simp [read] at reads
  | some d =>
      rw [here, Option.map_some] at reads
      have extent := (confined_run b.pattern confined_some here).extent
      rw [Cursor.extent, Cursor.extent] at extent
      rw [Banner.mark?]
      split
      · next none => simp [none] at reads
      · next r read =>
          obtain ⟨text, -, whole⟩ := Banner.behind?_eq_some_iff.mp read
          rw [read, Option.some_inj] at reads
          simp only [Option.map_some, Option.some_inj, Mark.stop, List.length_take, Nat.zero_add]
          rw [reads] at extent
          have longer := congrArg List.length whole
          rw [List.length_append] at longer
          omega

/-- **A search for a banner finds the first mark of it.** -/
theorem search_eq (b : Banner) (offset : Nat) (before? : Option Char) (s : List Char) :
    search b.pattern offset before? s =
      (firstOf b (marks s)).map fun m => (offset + m.start, offset + m.stop) := by
  induction s generalizing offset before? with
  | nil =>
      have ends := map_offset_run b ⟨offset, before?, []⟩
      have empty : b.mark? [] = none := by cases b <;> rfl
      rw [empty, Option.map_none, Option.map_eq_none_iff] at ends
      rw [search, ends]
      rfl
  | cons c s ih =>
      have ends := map_offset_run b ⟨offset, before?, c :: s⟩
      rw [firstOf_marks_cons, search]
      cases here : run b.pattern some ⟨offset, before?, c :: s⟩ with
      | some d =>
          rw [here, Option.map_some] at ends
          obtain ⟨m, mark, stop⟩ := Option.map_eq_some_iff.mp ends.symm
          obtain ⟨-, start, -⟩ := Banner.mark?_eq_some_iff.mp mark
          rw [mark]
          simp [start, stop]
      | none =>
          rw [here, Option.map_none] at ends
          rw [Option.map_eq_none_iff.mp ends.symm, Option.none_or, Option.map_map]
          simp only [ih]
          congr 1
          funext m
          simp only [Function.comp, Mark.shift_start, Mark.shift_stop, Nat.add_assoc]

/-- A search in the rest of a text finds the first mark of the whole text that is not
before the place where it begins. -/
theorem find_drop (b : Banner) {s : List Char} {n offset : Nat} (h : n + offset ≤ s.length) :
    b.pattern.find (s.drop n) offset =
      (firstOf b ((marks s).filter (n + offset ≤ ·.start))).map
        fun m => (m.start - n, m.stop - n) := by
  have inside : min offset (s.drop n).length = offset := by
    rw [List.length_drop]
    omega
  rw [find, inside, search_eq, List.drop_drop, ← map_shift_marks_drop, firstOf_map_shift,
    Option.map_map]
  congr 1
  funext m
  simp only [Function.comp, Mark.shift_start, Mark.shift_stop, Nat.add_assoc,
    Nat.add_sub_cancel_left]

end TypeVerdict
