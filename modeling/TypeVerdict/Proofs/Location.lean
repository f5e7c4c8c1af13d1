import Mathlib.Data.List.Nodup
import Mathlib.Data.List.Perm.Basic
import TypeVerdict.Position.Span

/-!
# The innermost definition

The spans around an offset are searched by descending start, and the first one that contains the
offset is taken.  Since the sort is stable, this is the span that starts last, and of several that
start there the one that comes first in the document (`Span.Innermost`).

Only where spans are properly nested is this also the smallest of the spans around the offset:
if any two of them are apart or one within the other, the one that starts last lies within all
others.  Where starts are distinct besides, no tie is left for the order of the spans to decide.

## Main definitions

* `Span.Innermost`: the span around an offset that starts last, the first of several
* `Span.Laminar`: spans that are apart or nested
* `Span.DistinctStarts`: spans around an offset none of which starts where another does

## Main statements

* `Span.filter_byStart`: the sort keeps the order of spans that start together
* `Span.innermost?_eq_some_iff`: which span is found
* `Span.Innermost.within`: among nested spans it is the smallest
* `Span.innermost?_perm`: the order of the spans does not matter
* `Locator.locates`: what is located at a position
-/

namespace TypeVerdict

namespace Span

variable {α : Type}

/-- **An offset lies in a span**, whose bounds belong to it. -/
def Around (s : Span α) (offset : Int) : Prop := s.start ≤ offset ∧ offset ≤ s.stop

/-- A span lies within another. -/
def Within (s t : Span α) : Prop := t.start ≤ s.start ∧ s.stop ≤ t.stop

/-- Two spans have no offset in common. -/
def Apart (s t : Span α) : Prop := s.stop < t.start ∨ t.stop < s.start

/-- **Any two spans are apart or nested.** -/
def Laminar (spans : List (Span α)) : Prop :=
  ∀ s ∈ spans, ∀ t ∈ spans, s.Apart t ∨ s.Within t ∨ t.Within s

/-- **No two spans around an offset start together.** -/
def DistinctStarts (spans : List (Span α)) (offset : Int) : Prop :=
  ((spans.filter (·.contains offset)).map (·.start)).Nodup

/-- **The innermost of several spans around an offset**: none around it starts later, and none that
starts at the same place comes earlier in the list. -/
structure Innermost (s : Span α) (spans : List (Span α)) (offset : Int) : Prop where
  around : s.Around offset
  last : ∃ before behind, spans = before ++ s :: behind ∧
    (∀ t ∈ before, t.Around offset → t.start < s.start) ∧
    ∀ t ∈ behind, t.Around offset → t.start ≤ s.start

variable {spans : List (Span α)} {s t : Span α} {offset : Int}

theorem contains_iff : s.contains offset = true ↔ s.Around offset := by
  simp [contains, Around]

namespace Innermost

theorem mem (h : s.Innermost spans offset) : s ∈ spans := by
  obtain ⟨before, behind, rfl, -⟩ := h.last
  exact List.mem_append_right _ List.mem_cons_self

theorem start_le (h : s.Innermost spans offset) (mem : t ∈ spans) (around : t.Around offset) :
    t.start ≤ s.start := by
  obtain ⟨before, behind, rfl, earlier, later⟩ := h.last
  rcases List.mem_append.mp mem with mem | mem
  · exact Nat.le_of_lt (earlier t mem around)
  · rcases List.mem_cons.mp mem with rfl | mem
    · exact Nat.le_refl _
    · exact later t mem around

end Innermost

/-! ### The stable sort -/

theorem byStart_perm (spans : List (Span α)) : (byStart spans).Perm spans :=
  List.mergeSort_perm spans _

theorem pairwise_byStart (spans : List (Span α)) :
    (byStart spans).Pairwise fun s t => t.start ≤ s.start := by
  have sorted : (byStart spans).Pairwise fun s t => decide (t.start ≤ s.start) = true :=
    List.pairwise_mergeSort (by simp; omega) (by simp; omega) spans
  simpa using sorted

/-- **Spans that start together stay in their order.** -/
theorem filter_byStart {p : Span α → Bool} (together : ∀ s t, p s → p t → s.start = t.start)
    (spans : List (Span α)) : (byStart spans).filter p = spans.filter p := by
  have sorted : (spans.filter p).Pairwise fun s t => decide (t.start ≤ s.start) = true := by
    refine List.pairwise_of_forall_mem_list fun s mem t mem' => decide_eq_true ?_
    exact (together t s (List.of_mem_filter mem') (List.of_mem_filter mem)).symm ▸ Nat.le_refl _
  -- they are a sorted part of the list already, which a stable sort leaves in its order
  have kept : (spans.filter p).Sublist ((byStart spans).filter p) := by
    have part := List.sublist_mergeSort (by simp; omega) (by simp; omega) sorted
      List.filter_sublist
    simpa [byStart] using part.filter p
  exact (kept.eq_of_length ((byStart_perm spans).filter p).length_eq.symm).symm

/-! ### What is found -/

theorem innermost?_eq_none_iff :
    innermost? spans offset = none ↔ ∀ s ∈ spans, ¬ s.Around offset := by
  simp [innermost?, List.find?_eq_none, (byStart_perm spans).mem_iff, contains_iff]

/-- The innermost span is the first one around the offset that starts as late as any. -/
theorem innermost_iff : s.Innermost spans offset ↔
    (∀ t ∈ spans, t.Around offset → t.start ≤ s.start) ∧
      spans.find? (fun t => t.contains offset && t.start = s.start) = some s := by
  rw [List.find?_eq_some_iff_append]
  simp only [Bool.and_eq_true, contains_iff, decide_eq_true_eq, Bool.not_eq_true',
    Bool.and_eq_false_imp, decide_eq_false_iff_not, and_true]
  constructor
  · intro h
    refine ⟨fun t mem => h.start_le mem, h.around, ?_⟩
    obtain ⟨before, behind, split, earlier, -⟩ := h.last
    exact ⟨before, behind, split, fun t mem around => Nat.ne_of_lt (earlier t mem around)⟩
  · rintro ⟨start_le, around, before, behind, rfl, passed⟩
    refine ⟨around, before, behind, rfl, fun t mem around' => ?_, fun t mem around' => ?_⟩
    · exact Nat.lt_of_le_of_ne (start_le t (by simp [mem]) around') (passed t mem around')
    · exact start_le t (by simp [mem]) around'

/-- Sorting spans by their start changes nothing about which one is innermost. -/
theorem innermost_byStart_iff :
    s.Innermost (byStart spans) offset ↔ s.Innermost spans offset := by
  have kept := filter_byStart (p := fun t => t.contains offset && t.start = s.start)
    (by simp; omega) spans
  rw [innermost_iff, innermost_iff, ← List.head?_filter, kept, List.head?_filter]
  simp only [(byStart_perm spans).mem_iff]

/-- Among sorted spans the innermost one is the first around the offset. -/
theorem find?_eq_some_iff (sorted : spans.Pairwise fun s t => t.start ≤ s.start) :
    spans.find? (·.contains offset) = some s ↔ s.Innermost spans offset := by
  simp only [List.find?_eq_some_iff_append, Bool.not_eq_true', ← Bool.not_eq_true, contains_iff]
  constructor
  · rintro ⟨around, before, behind, rfl, passed⟩
    refine ⟨around, before, behind, rfl, fun t mem around' => ?_, fun t mem _ => ?_⟩
    · exact absurd around' (passed t mem)
    · exact (List.pairwise_cons.mp (List.pairwise_append.mp sorted).2.1).1 t mem
  · intro h
    obtain ⟨before, behind, rfl, earlier, -⟩ := h.last
    refine ⟨h.around, before, behind, rfl, fun t mem around' => ?_⟩
    have order := (List.pairwise_append.mp sorted).2.2 t mem s List.mem_cons_self
    exact absurd (earlier t mem around') (Nat.not_lt.mpr order)

/-- **The innermost span is found.** -/
theorem innermost?_eq_some_iff :
    innermost? spans offset = some s ↔ s.Innermost spans offset := by
  rw [innermost?, find?_eq_some_iff (pairwise_byStart spans), innermost_byStart_iff]

/-! ### Nested spans -/

/-- The innermost span starts where no other span around the offset does. -/
theorem DistinctStarts.start_ne {before behind : List (Span α)}
    (distinct : DistinctStarts (before ++ s :: behind) offset) (around : s.Around offset)
    (mem : t ∈ before ++ behind) (around' : t.Around offset) : t.start ≠ s.start := by
  have moved := (@List.perm_middle _ s before behind).filter fun t => t.contains offset
  rw [List.filter_cons, if_pos (contains_iff.mpr around)] at moved
  have alone := (List.nodup_cons.mp ((moved.map Span.start).nodup_iff.mp distinct)).1
  intro same
  exact alone (List.mem_map.mpr ⟨t, List.mem_filter.mpr ⟨mem, contains_iff.mpr around'⟩, same⟩)

/-- **Among nested spans with distinct starts the innermost one lies within all others.** -/
theorem Innermost.within (h : s.Innermost spans offset) (laminar : Laminar spans)
    (distinct : DistinctStarts spans offset) (mem : t ∈ spans) (around : t.Around offset) :
    s.Within t := by
  rcases laminar s h.mem t mem with apart | within | within
  · -- both have the offset
    obtain ⟨low, high⟩ := h.around
    obtain ⟨low', high'⟩ := around
    rcases apart with apart | apart <;> omega
  · exact within
  · -- the other one would start where this one does, and so be this one
    obtain ⟨before, behind, rfl, -⟩ := h.last
    have same : t.start = s.start := Nat.le_antisymm (h.start_le mem around) within.1
    rcases List.mem_append.mp mem with mem | mem
    · exact absurd same (distinct.start_ne h.around (List.mem_append_left _ mem) around)
    · rcases List.mem_cons.mp mem with rfl | mem
      · exact within
      · exact absurd same (distinct.start_ne h.around (List.mem_append_right _ mem) around)

/-- **Where starts are distinct the order of the spans does not matter.** -/
theorem innermost?_perm {others : List (Span α)} (perm : others.Perm spans)
    (distinct : DistinctStarts spans offset) :
    innermost? others offset = innermost? spans offset := by
  cases found : innermost? spans offset with
  | none =>
      rw [innermost?_eq_none_iff] at found ⊢
      exact fun s mem => found s (perm.mem_iff.mp mem)
  | some s =>
      rw [innermost?_eq_some_iff] at found ⊢
      obtain ⟨before, behind, rfl⟩ := List.append_of_mem (perm.mem_iff.mpr found.mem)
      have distinct' : DistinctStarts (before ++ s :: behind) offset :=
        (((perm.filter _).map _).nodup_iff).mpr distinct
      have start_le (t : Span α) (mem : t ∈ before ++ s :: behind) (around : t.Around offset) :
          t.start ≤ s.start := found.start_le (perm.mem_iff.mp mem) around
      refine ⟨found.around, before, behind, rfl, fun t mem around => ?_, fun t mem around => ?_⟩
      · exact Nat.lt_of_le_of_ne (start_le t (List.mem_append_left _ mem) around)
          (distinct'.start_ne found.around (List.mem_append_left _ mem) around)
      · exact start_le t (List.mem_append_right _ (List.mem_cons_of_mem _ mem)) around

end Span

/-! ### What is located at a position -/

namespace Locator

variable {α : Type}

/-- **Locating finds the innermost span around a position**, and finds nothing only where the
position has no offset or no span is around it.  Among nested spans with distinct starts it is
the smallest one, in whatever order the spans are given. -/
theorem locates (l : Locator α) (p? : Option Position) :
    (l.locate? p? = none ↔ l.offset? p? = none ∨
      ∃ offset, l.offset? p? = some offset ∧ ∀ s ∈ l.spans, ¬ s.Around offset) ∧
    (∀ s, l.locate? p? = some s ↔
      ∃ offset, l.offset? p? = some offset ∧ s.Innermost l.spans offset) ∧
    ∀ offset, l.offset? p? = some offset → Span.Laminar l.spans →
      Span.DistinctStarts l.spans offset →
        (∀ s, l.locate? p? = some s → ∀ t ∈ l.spans, t.Around offset → s.Within t) ∧
        ∀ others, others.Perm l.spans → locate? ⟨others, l.index⟩ p? = l.locate? p? := by
  refine ⟨?_, fun s => ?_, fun offset known laminar distinct => ⟨fun s found t => ?_, ?_⟩⟩
  · cases known : l.offset? p? with
    | none => simp [locate?, known]
    | some offset => simp [locate?, known, Span.innermost?_eq_none_iff]
  · rw [locate?, Option.bind_eq_some_iff]
    simp only [Span.innermost?_eq_some_iff]
  · rw [locate?, known, Option.bind_some, Span.innermost?_eq_some_iff] at found
    exact found.within laminar distinct
  · intro others perm
    have known' : offset? ⟨others, l.index⟩ p? = some offset := known
    rw [locate?, known', locate?, known]
    exact Span.innermost?_perm perm distinct

/-- A group of two tests, the second of which begins behind the first. -/
def groupOfTests : Locator String :=
  ⟨[⟨0, 9, "group", by decide⟩, ⟨2, 5, "first", by decide⟩, ⟨6, 8, "second", by decide⟩],
    IndexMap.ofText "g(\na();b()".toList⟩

/-- At its second line the first test is located, in whatever order the spans are given. -/
theorem locates_groupOfTests :
    groupOfTests.offset? (some ⟨2, 1⟩) = some 3 ∧ Span.Laminar groupOfTests.spans ∧
    Span.DistinctStarts groupOfTests.spans 3 ∧
    (∀ s, groupOfTests.locate? (some ⟨2, 1⟩) = some s →
      ∀ t ∈ groupOfTests.spans, t.Around 3 → s.Within t) ∧
    ∀ others, others.Perm groupOfTests.spans →
      locate? ⟨others, groupOfTests.index⟩ (some ⟨2, 1⟩) = groupOfTests.locate? (some ⟨2, 1⟩) := by
  have known : groupOfTests.offset? (some ⟨2, 1⟩) = some 3 := by decide
  have laminar : Span.Laminar groupOfTests.spans := by
    simp [Span.Laminar, Span.Apart, Span.Within, groupOfTests]
  have distinct : Span.DistinctStarts groupOfTests.spans 3 := by
    simp [Span.DistinctStarts, Span.contains, groupOfTests]
  exact ⟨known, laminar, distinct, (locates _ _).2.2 3 known laminar distinct⟩

end Locator

end TypeVerdict
