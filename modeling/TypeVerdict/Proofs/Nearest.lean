import Mathlib.Order.Lattice
import TypeVerdict.Proofs.Except
import TypeVerdict.SourceMap.Projection

/-!
# The nearest mapping

A place of the generated text is looked up in two ways: a mapping that starts just there is taken
at once, and otherwise the columns of the line are halved.  Where the columns of each line
ascend, both ways lead to the same mapping: of those that cover the place, which start on its
line at or before it, the one that starts furthest on, and the last one of several that start
there (`SourceMap.Nearest`).

Halving keeps that nothing before its lower bound is greater than the column sought, and everything
from its upper bound on is.  Which line is halved depends on the number of the line alone, and
a number before the first line leads to a line counted from the end.  Nothing is found there,
because decoded mappings know the lines on which they stand (`SourceMap.Numbered`).

## Main definitions

* `SourceMap.Mapping.Covers`: a mapping at or before a place on its line
* `SourceMap.Nearest`: the nearest of several mappings
* `SourceMap.Numbered`: mappings that know their lines

## Main statements

* `SourceMap.bisectBetween_spec`: where halving leads
* `SourceMap.lookup?_cases`: what is found
* `SourceMap.numbered_of_decode`: decoded mappings know their lines
* `Projection.applies_nearest`: where a position goes
-/

namespace TypeVerdict

namespace SourceMap

/-! ### Halving -/

section Halving

variable {columns : List ℕ} {i v : ℕ}

theorem le_of_mem_take_succ (ascending : columns.Pairwise (· ≤ ·)) (here : columns[i]? = some v) :
    ∀ c ∈ columns.take (i + 1), c ≤ v := by
  have order := ascending.sublist (List.take_sublist (i + 1) columns)
  rw [List.take_add_one, here, Option.toList_some, List.pairwise_append] at order
  rw [List.take_add_one, here, Option.toList_some]
  intro c mem
  rcases List.mem_append.mp mem with mem | mem
  · exact order.2.2 c mem v (List.mem_singleton_self v)
  · exact (List.mem_singleton.mp mem).le

theorem le_of_mem_drop (ascending : columns.Pairwise (· ≤ ·)) (here : columns[i]? = some v) :
    ∀ c ∈ columns.drop i, v ≤ c := by
  obtain ⟨inside, rfl⟩ := List.getElem?_eq_some_iff.mp here
  have order := ascending.sublist (List.drop_sublist i columns)
  rw [List.drop_eq_getElem_cons inside, List.pairwise_cons] at order
  rw [List.drop_eq_getElem_cons inside]
  intro c mem
  rcases List.mem_cons.mp mem with rfl | mem
  · exact le_rfl
  · exact order.1 c mem

/-- **Halving ascending columns leads behind all that are not greater**, and no further. -/
theorem bisectBetween_spec (ascending : columns.Pairwise (· ≤ ·)) {column : ℤ} {low high : ℕ}
    (ordered : low ≤ high) (bounded : high ≤ columns.length)
    (before : ∀ c ∈ columns.take low, (c : ℤ) ≤ column)
    (behind : ∀ c ∈ columns.drop high, column < c) :
    bisectBetween columns.toArray column low high ≤ columns.length ∧
    (∀ c ∈ columns.take (bisectBetween columns.toArray column low high), (c : ℤ) ≤ column) ∧
    ∀ c ∈ columns.drop (bisectBetween columns.toArray column low high), column < c := by
  fun_induction bisectBetween columns.toArray column low high with
  | case1 low high inside middle less ih =>
      have here : columns[middle]? = some columns[middle] := List.getElem?_eq_getElem (by omega)
      rw [List.getElem?_toArray, here, Option.getD_some] at less
      refine ih (by omega) (by omega) before fun c mem => ?_
      exact less.trans_le (Int.ofNat_le.mpr (le_of_mem_drop ascending here c mem))
  | case2 low high inside middle notLess ih =>
      have here : columns[middle]? = some columns[middle] := List.getElem?_eq_getElem (by omega)
      rw [List.getElem?_toArray, here, Option.getD_some, not_lt] at notLess
      refine ih (by omega) bounded (fun c mem => ?_) behind
      exact (Int.ofNat_le.mpr (le_of_mem_take_succ ascending here c mem)).trans notLess
  | case3 low high done =>
      obtain rfl : low = high := by omega
      exact ⟨bounded, before, behind⟩

/-- **Among ascending columns halving finds the greatest that is not greater than a given one**,
if there is one. -/
theorem columnBefore?_cases (ascending : columns.Pairwise (· ≤ ·)) (column : ℤ) :
    (columnBefore? columns column = none ∧ ∀ d ∈ columns, column < d) ∨
    ∃ c, columnBefore? columns column = some c ∧ c ∈ columns ∧ (c : ℤ) ≤ column ∧
      ∀ d ∈ columns, (d : ℤ) ≤ column → d ≤ c := by
  have halved : bisect columns.toArray column =
      bisectBetween columns.toArray column 0 columns.length := rfl
  obtain ⟨bounded, before, behind⟩ := bisectBetween_spec ascending (Nat.zero_le columns.length)
    le_rfl (by simp) (by simp : ∀ c ∈ columns.drop columns.length, column < (c : ℤ))
  rw [← halved] at bounded before behind
  rw [columnBefore?]
  cases at_index : bisect columns.toArray column with
  | zero =>
      rw [at_index, List.drop_zero] at behind
      exact Or.inl ⟨rfl, behind⟩
  | succ i =>
      rw [at_index] at bounded before behind
      have here : columns[i]? = some columns[i] := List.getElem?_eq_getElem bounded
      have last : columns[i] ∈ columns.take (i + 1) := by
        rw [List.take_add_one, here]
        exact List.mem_append_right _ (List.mem_singleton_self _)
      refine Or.inr ⟨columns[i], here, List.getElem_mem _, before _ last, fun d mem le => ?_⟩
      rw [← List.take_append_drop (i + 1) columns, List.mem_append] at mem
      rcases mem with mem | mem
      · exact le_of_mem_take_succ ascending here d mem
      · exact absurd le (not_le.mpr (behind d mem))

end Halving

/-! ### Looking a place up -/

/-- **A mapping covers a place**: it starts on the line of the place, at it or before it. -/
def Mapping.Covers (m : Mapping) (line column : ℤ) : Prop :=
  (m.line : ℤ) = line ∧ (m.column : ℤ) ≤ column

/-- **The nearest of several mappings to a place**: none that covers the place starts further on,
and none that starts where it does comes later. -/
structure Nearest (m : Mapping) (mappings : List Mapping) (line column : ℤ) : Prop where
  covers : m.Covers line column
  last : ∃ earlier later, mappings = earlier ++ m :: later ∧
    (∀ m' ∈ earlier, m'.Covers line column → m'.column ≤ m.column) ∧
    ∀ m' ∈ later, m'.Covers line column → m'.column < m.column

theorem Nearest.mem {m : Mapping} {mappings : List Mapping} {line column : ℤ}
    (h : Nearest m mappings line column) : m ∈ mappings := by
  obtain ⟨earlier, later, rfl, -⟩ := h.last
  exact List.mem_append_right _ List.mem_cons_self

/-- The mappings of each line know its number. -/
def Numbered (lines : List (List Mapping)) : Prop :=
  ∀ (i : ℕ) (mappings : List Mapping), lines[i]? = some mappings → ∀ m ∈ mappings, m.line = i

variable {lines : List (List Mapping)} {line column : ℤ} {m : Mapping}

/-- The last mapping at a place has none at that place behind it. -/
theorem startingAt?_eq_some_iff : startingAt? lines line column = some m ↔
    ((m.line : ℤ) = line ∧ (m.column : ℤ) = column) ∧
      ∃ earlier later, lines.flatten = earlier ++ m :: later ∧
        ∀ m' ∈ later, ¬ ((m'.line : ℤ) = line ∧ (m'.column : ℤ) = column) := by
  simp only [startingAt?, List.find?_eq_some_iff_append, Bool.and_eq_true, decide_eq_true_eq,
    Bool.not_eq_true', ← Bool.not_eq_true]
  refine and_congr_right fun _ => ⟨?_, ?_⟩
  · rintro ⟨before, behind, split, other⟩
    refine ⟨behind.reverse, before.reverse, ?_, fun m' mem => other m' (List.mem_reverse.mp mem)⟩
    rw [← List.reverse_reverse lines.flatten, split]
    simp
  · rintro ⟨earlier, later, split, other⟩
    refine ⟨later.reverse, earlier.reverse, ?_, fun m' mem => other m' (List.mem_reverse.mp mem)⟩
    rw [split]
    simp

theorem startingAt?_eq_none_iff : startingAt? lines line column = none ↔
    ∀ m ∈ lines.flatten, ¬ ((m.line : ℤ) = line ∧ (m.column : ℤ) = column) := by
  simp [startingAt?]

/-- The nearest mapping is the last one at the furthest column. -/
theorem nearest_iff : Nearest m lines.flatten line column ↔
    (m.column : ℤ) ≤ column ∧
      (∀ m' ∈ lines.flatten, m'.Covers line column → m'.column ≤ m.column) ∧
      startingAt? lines line m.column = some m := by
  rw [startingAt?_eq_some_iff]
  constructor
  · rintro ⟨⟨onLine, le⟩, earlier, later, split, before, behind⟩
    refine ⟨le, fun m' mem covers => ?_, ⟨onLine, rfl⟩, earlier, later, split, ?_⟩
    · rw [split] at mem
      rcases List.mem_append.mp mem with mem | mem
      · exact before m' mem covers
      · rcases List.mem_cons.mp mem with rfl | mem
        · exact le_rfl
        · exact (behind m' mem covers).le
    · rintro m' mem ⟨onLine', same⟩
      have further := behind m' mem ⟨onLine', same.le.trans le⟩
      omega
  · rintro ⟨le, furthest, ⟨onLine, -⟩, earlier, later, split, other⟩
    refine ⟨⟨onLine, le⟩, earlier, later, split, fun m' mem covers => ?_, fun m' mem covers => ?_⟩
    · exact furthest m' (by simp [split, mem]) covers
    · refine lt_of_le_of_ne (furthest m' (by simp [split, mem]) covers) fun same => ?_
      exact other m' mem ⟨covers.1, congrArg Nat.cast same⟩

/-- **There is one nearest mapping.** -/
theorem Nearest.unique {m m' : Mapping} (h : Nearest m lines.flatten line column)
    (h' : Nearest m' lines.flatten line column) : m = m' := by
  obtain ⟨-, furthest, found⟩ := nearest_iff.mp h
  obtain ⟨-, furthest', found'⟩ := nearest_iff.mp h'
  have same := le_antisymm (furthest' m h.mem h.covers) (furthest m' h'.mem h'.covers)
  rw [same] at found
  exact Option.some_inj.mp (found.symm.trans found')

/-- A mapping stands on the line whose number it knows. -/
theorem Numbered.mem_iff (numbered : Numbered lines) {mappings : List Mapping} {n : ℕ}
    (here : lines[n]? = some mappings) : m ∈ mappings ↔ m ∈ lines.flatten ∧ m.line = n := by
  constructor
  · intro mem
    exact ⟨List.mem_flatten.mpr ⟨mappings, List.mem_of_getElem? here, mem⟩, numbered n _ here m mem⟩
  · rintro ⟨mem, rfl⟩
    obtain ⟨others, there, mem⟩ := List.mem_flatten.mp mem
    obtain ⟨i, there⟩ := List.getElem?_of_mem there
    rw [numbered i others there m mem, there] at here
    cases here
    exact mem

/-- Where a place is not the start of a mapping, its line is halved. -/
theorem lookup?_of_not_start (h : startingAt? lines line column = none) :
    lookup? lines line column = (lineAt? lines line).bind fun mappings =>
      (columnBefore? (mappings.map (·.column)) column).bind fun c => startingAt? lines line c := by
  rw [lookup?, h]
  rfl

/-- On a line without mappings nothing is found, even if its number leads to another line. -/
theorem lookup?_of_empty (empty : ∀ m ∈ lines.flatten, (m.line : ℤ) ≠ line) (column : ℤ) :
    lookup? lines line column = none := by
  have none (c : ℤ) : startingAt? lines line c = none :=
    startingAt?_eq_none_iff.mpr fun m mem at_c => empty m mem at_c.1
  simp [lookup?_of_not_start, none]

/-- **The nearest mapping is found**, if a mapping covers the place at all. -/
theorem lookup?_cases (numbered : Numbered lines)
    (ascending : ∀ mappings ∈ lines, (mappings.map (·.column)).Pairwise (· ≤ ·))
    (line column : ℤ) :
    (lookup? lines line column = none ∧ ∀ m ∈ lines.flatten, ¬ m.Covers line column) ∨
    ∃ m, lookup? lines line column = some m ∧ Nearest m lines.flatten line column := by
  by_cases empty : ∀ m ∈ lines.flatten, (m.line : ℤ) ≠ line
  · exact Or.inl ⟨lookup?_of_empty empty column, fun m mem covers => empty m mem covers.1⟩
  -- the place is on a line of the map, and the mappings of that line are those in its row
  obtain ⟨m₀, mem₀, rfl⟩ : ∃ m ∈ lines.flatten, (m.line : ℤ) = line := by
    push Not at empty
    exact empty
  obtain ⟨row, row_mem, mem₀⟩ := List.mem_flatten.mp mem₀
  obtain ⟨n, here⟩ := List.getElem?_of_mem row_mem
  have mem_row {m : Mapping} : m ∈ row ↔ m ∈ lines.flatten ∧ m.line = n := numbered.mem_iff here
  rw [numbered n row here m₀ mem₀]
  cases start : startingAt? lines n column with
  | some m =>
      have found : lookup? lines n column = some m := by rw [lookup?, start]; rfl
      obtain ⟨-, same⟩ := (startingAt?_eq_some_iff.mp start).1
      refine Or.inr ⟨m, found, nearest_iff.mpr ⟨same.le, fun m' _ covers => ?_, same ▸ start⟩⟩
      exact Int.ofNat_le.mp (same ▸ covers.2)
  | none =>
      have row_eq : lineAt? lines (n : ℤ) = some row := here
      rw [lookup?_of_not_start start, row_eq, Option.bind_some]
      rcases columnBefore?_cases (ascending row row_mem) column with
        ⟨before, greater⟩ | ⟨c, before, mem, le, greatest⟩
      · rw [before]
        refine Or.inl ⟨rfl, fun m mem covers => ?_⟩
        have mem' := mem_row.mpr ⟨mem, Int.ofNat_inj.mp covers.1⟩
        exact absurd covers.2 (not_le.mpr (greater _ (List.mem_map_of_mem mem')))
      · rw [before, Option.bind_some]
        obtain ⟨m₁, mem₁, rfl⟩ := List.mem_map.mp mem
        obtain ⟨m, found⟩ : ∃ m, startingAt? lines n m₁.column = some m := by
          refine Option.ne_none_iff_exists'.mp fun none => ?_
          obtain ⟨known, number⟩ := mem_row.mp mem₁
          exact startingAt?_eq_none_iff.mp none m₁ known ⟨congrArg Nat.cast number, rfl⟩
        have same : m.column = m₁.column := Int.ofNat_inj.mp (startingAt?_eq_some_iff.mp found).1.2
        refine Or.inr ⟨m, found, nearest_iff.mpr ⟨same ▸ le, fun m' mem covers => ?_, same ▸ found⟩⟩
        have mem' := mem_row.mpr ⟨mem, Int.ofNat_inj.mp covers.1⟩
        exact same ▸ greatest _ (List.mem_map_of_mem mem') covers.2

/-! ### Decoded mappings -/

variable {limits : Limits} {n : ℕ}

/-- A segment starts a mapping on its line. -/
theorem line_of_decodeSegment {c : ℤ} {cur : Cursor} {segment : List Char}
    {r : Mapping × ℤ × Cursor} (decoded : decodeSegment limits n c cur segment = .ok r) :
    r.1.line = n := by
  unfold decodeSegment at decoded
  split at decoded
  · cases decoded
  · cases decoded
  · cases decoded
  · obtain ⟨cur', -, decoded⟩ := Except.exists_of_bind_eq_ok decoded
    dsimp only at decoded
    split at decoded
    · cases decoded
    · cases decoded
      rfl

theorem line_of_decodeSegments {c : ℤ} {cur : Cursor} {texts : List (List Char)}
    {r : List Mapping × Cursor} (decoded : decodeSegments limits n c cur texts = .ok r) :
    ∀ m ∈ r.1, m.line = n := by
  fun_induction decodeSegments limits n c cur texts generalizing r with
  | case1 c cur =>
      cases decoded
      exact List.forall_mem_nil _
  | case2 c cur more ih => exact ih decoded
  | case3 c cur text more _ ih =>
      obtain ⟨first, here, decoded⟩ := Except.exists_of_bind_eq_ok decoded
      obtain ⟨rest, later, decoded⟩ := Except.exists_of_bind_eq_ok decoded
      cases decoded
      exact List.forall_mem_cons.mpr ⟨line_of_decodeSegment here, ih _ _ later⟩

theorem line_of_decodeLines {cur : Cursor} {texts : List (List Char)}
    {lines : List (List Mapping)} (decoded : decodeLines limits n cur texts = .ok lines) :
    ∀ i mappings, lines[i]? = some mappings → ∀ m ∈ mappings, m.line = n + i := by
  fun_induction decodeLines limits n cur texts generalizing lines with
  | case1 n cur =>
      cases decoded
      simp
  | case2 n cur text more ih =>
      obtain ⟨first, here, decoded⟩ := Except.exists_of_bind_eq_ok decoded
      obtain ⟨rest, later, decoded⟩ := Except.exists_of_bind_eq_ok decoded
      cases decoded
      intro i mappings found
      cases i with
      | zero =>
          cases found
          exact line_of_decodeSegments here
      | succ i =>
          intro m mem
          rw [ih _ later i mappings found m mem]
          omega

/-- The mappings of an object are decoded last. -/
theorem exists_decodeLines_of_decodeJson {map : Json} {lines : List (List Mapping)}
    (decoded : decodeJson map = .ok lines) :
    ∃ limits texts, decodeLines limits 0 {} texts = .ok lines := by
  unfold decodeJson at decoded
  split at decoded
  · split at decoded
    · obtain ⟨names, -, decoded⟩ := Except.exists_of_bind_eq_ok decoded
      split at decoded
      · cases decoded
      · obtain ⟨sources?, -, decoded⟩ := Except.exists_of_bind_eq_ok decoded
        exact ⟨_, _, decoded⟩
      · cases decoded
    · cases decoded
  · cases decoded

/-- **Decoded mappings know their lines.** -/
theorem numbered_of_decode {source : Source} {lines : List (List Mapping)}
    (decoded : decode source = .ok lines) : Numbered lines := by
  obtain ⟨map, decoded⟩ : ∃ map, decodeJson map = .ok lines := by
    cases source with
    | object map => exact ⟨map, decoded⟩
    | text s =>
        obtain ⟨body, -, decoded⟩ := Except.exists_of_bind_eq_ok decoded
        split at decoded
        · cases decoded
        · cases decoded
        · exact ⟨_, decoded⟩
  obtain ⟨limits, texts, decoded⟩ := exists_decodeLines_of_decodeJson decoded
  intro i mappings found m mem
  rw [line_of_decodeLines decoded i mappings found m mem, Nat.zero_add]

end SourceMap

namespace Projection

open SourceMap

/-- **A position goes where the nearest mapping at or before it on its line comes from**, and stays
where it is if there is none.  Lines and columns of a map are counted from zero, those of
positions from one. -/
theorem applies_nearest {source : Source} {lines : List (List Mapping)}
    (decoded : decode source = .ok lines)
    (ascending : ∀ mappings ∈ lines, (mappings.map (·.column)).Pairwise (· ≤ ·)) :
    ∃ t, ofSource (some source) = .ok t ∧ ∀ p : Position,
      (∀ m, Nearest m lines.flatten (p.line - 1) (p.column - 1) →
        t.apply p = ⟨m.sourceLine + 1, m.sourceColumn + 1⟩) ∧
      ((∃ m ∈ lines.flatten, m.Covers (p.line - 1) (p.column - 1)) →
        ∃ m, Nearest m lines.flatten (p.line - 1) (p.column - 1)) ∧
      ((∀ m ∈ lines.flatten, ¬ m.Covers (p.line - 1) (p.column - 1)) → t.apply p = p) := by
  refine ⟨⟨some lines⟩, by rw [ofSource, decoded], fun p => ?_⟩
  rcases lookup?_cases (numbered_of_decode decoded) ascending (p.line - 1) (p.column - 1) with
    ⟨found, uncovered⟩ | ⟨m, found, nearest⟩
  · refine ⟨fun m nearest => ?_, fun ⟨m, mem, covers⟩ => ?_, fun _ => ?_⟩
    · exact absurd nearest.covers (uncovered m nearest.mem)
    · exact absurd covers (uncovered m mem)
    · rw [apply, Option.bind_some, found]
  · refine ⟨fun m' nearest' => ?_, fun _ => ⟨m, nearest⟩, fun uncovered => ?_⟩
    · rw [nearest'.unique nearest, apply, Option.bind_some, found]
      exact if_pos nearest.covers
    · exact absurd nearest.covers (uncovered m nearest.mem)

/-- A map of three lines, the first of which maps its column 4 twice. -/
def repeatingMap : Source :=
  .object (.object [("sources", .array [.text "a.ts"]), ("names", .array []),
    ("mappings", .text "AAAA,IACA,AACA;;EACA")])

/-- Its mappings. -/
def repeatingLines : List (List Mapping) :=
  [[⟨0, 0, 0, 0⟩, ⟨0, 4, 1, 0⟩, ⟨0, 4, 2, 0⟩], [], [⟨2, 2, 3, 0⟩]]

/-- Behind the repeated column the later mapping counts; a line without mappings and one before
the first leave positions where they are. -/
theorem applies_nearest_repeating :
    decode repeatingMap = .ok repeatingLines ∧
    (∀ mappings ∈ repeatingLines, (mappings.map (·.column)).Pairwise (· ≤ ·)) ∧
    ∃ t, ofSource (some repeatingMap) = .ok t ∧ t.apply ⟨1, 9⟩ = ⟨3, 1⟩ ∧
      t.apply ⟨2, 9⟩ = ⟨2, 9⟩ ∧ t.apply ⟨0, 9⟩ = ⟨0, 9⟩ := by
  have decoded : decode repeatingMap = .ok repeatingLines := by decide +kernel
  have ascending : ∀ mappings ∈ repeatingLines, (mappings.map (·.column)).Pairwise (· ≤ ·) := by
    decide
  obtain ⟨t, projected, applied⟩ := applies_nearest decoded ascending
  refine ⟨decoded, ascending, t, projected, (applied ⟨1, 9⟩).1 ⟨0, 4, 2, 0⟩ ?_,
    (applied ⟨2, 9⟩).2.2 ?_, (applied ⟨0, 9⟩).2.2 ?_⟩
  · refine ⟨⟨rfl, by decide⟩, [⟨0, 0, 0, 0⟩, ⟨0, 4, 1, 0⟩], [⟨2, 2, 3, 0⟩], rfl, ?_, ?_⟩
    · simp
    · simp [Mapping.Covers]
  · simp [Mapping.Covers, repeatingLines]
  · simp [Mapping.Covers, repeatingLines]

end Projection

end TypeVerdict
