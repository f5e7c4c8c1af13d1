import Mathlib.Data.List.Basic
import Mathlib.Data.Nat.Count
import Mathlib.Data.Nat.Find
import Mathlib.Data.Prod.Lex
import TypeVerdict.Position.IndexMap
import TypeVerdict.Text.Digit

/-!
# Numbering a text

An index map is written in one pass over its text, which counts lines and columns as it goes.
What it counts can be said without the pass: the line of an offset is one more than the number of
line breaks that end at or before it, and its column is one more than its distance from the
last of these ends, or from the start of the text (`IndexMap.placeOf`).

From one offset to the next the place moves to a new line if a break ends there and by a column
if none does.  The pass takes this step for each character, for the two characters of `\r\n` in
one go, and with the step the places ascend.  Each offset thus has a place of its own, and
since different positions are written differently, a key of its own.

## Main definitions

* `Position.rank`: the order of positions
* `IndexMap.EndsBreak`: the ends of line breaks
* `IndexMap.placeOf`: the place of an offset

## Main statements

* `Position.key_injective`: different positions are written differently
* `IndexMap.entriesFrom_eq`: what the pass writes
* `IndexMap.rank_placeOf_lt_iff`: places ascend with the offsets
* `IndexMap.ofText_numbers`: the index map of a text
-/

namespace TypeVerdict

/-! ### Positions -/

namespace Position

/-- **The order of positions**: by line, and on a line by column. -/
def rank (p : Position) : ℤ ×ₗ ℤ := toLex (p.line, p.column)

/-- A number is written as its sign and its digits. -/
theorem toList_repr (n : ℤ) :
    n.repr.toList = (if n < 0 then ['-'] else []) ++ Nat.toDigits 10 n.natAbs := by
  rw [Int.repr_eq_if]
  split
  · next positive =>
      rw [Nat.toList_repr, if_neg (by omega), List.nil_append]
      congr 1
      omega
  · next negative =>
      rw [String.toList_append, Nat.toList_repr, if_pos (by omega)]
      congr 2
      omega

/-- There is no colon in it. -/
theorem not_mem_toList_repr (n : ℤ) : ':' ∉ n.repr.toList := by
  rw [toList_repr, List.mem_append]
  rintro (sign | digit)
  · split at sign <;> simp at sign
  · exact Text.not_mem_toDigits rfl _ digit

/-- The sign can be told from the digits. -/
theorem toList_repr_inj {m n : ℤ} (same : m.repr.toList = n.repr.toList) : m = n := by
  have unsigned (k : ℕ) : '-' ∉ Nat.toDigits 10 k := Text.not_mem_toDigits rfl k
  rw [toList_repr, toList_repr] at same
  split at same <;> split at same
  · have digits := Text.toDigits_inj (List.append_cancel_left same)
    omega
  · have digits : '-' :: Nat.toDigits 10 m.natAbs = Nat.toDigits 10 n.natAbs := same
    exact absurd (digits ▸ List.mem_cons_self) (unsigned n.natAbs)
  · have digits : Nat.toDigits 10 m.natAbs = '-' :: Nat.toDigits 10 n.natAbs := same
    exact absurd (digits ▸ List.mem_cons_self) (unsigned m.natAbs)
  · have digits := Text.toDigits_inj same
    omega

/-- **Different positions are written differently.** -/
theorem key_injective : Function.Injective key := by
  rintro ⟨line, column⟩ ⟨line', column'⟩ same
  have written : line.repr.toList ++ ':' :: column.repr.toList =
      line'.repr.toList ++ ':' :: column'.repr.toList := by
    have colon : (toString ":").toList = [':'] := by decide
    simpa [key, colon, Int.toString_eq_repr] using congrArg String.toList same
  obtain ⟨lines, -, columns⟩ := (List.append_cons_inj_of_notMem (not_mem_toList_repr line)
    (not_mem_toList_repr column)).mp written
  rw [toList_repr_inj lines, toList_repr_inj columns]

end Position

namespace IndexMap

/-! ### Lines and columns by counting -/

/-- **A line break ends at an offset**: behind a line feed, or behind a carriage return that no
line feed follows. -/
def EndsBreak (s : List Char) : ℕ → Prop
  | 0 => False
  | o + 1 => s[o]? = some '\n' ∨ s[o]? = some '\r' ∧ s[o + 1]? ≠ some '\n'

instance (s : List Char) : DecidablePred (EndsBreak s)
  | 0 => instDecidableFalse
  | o + 1 => inferInstanceAs (Decidable (s[o]? = some '\n' ∨ s[o]? = some '\r' ∧ _))

variable (s : List Char)

/-- The line of an offset: one more than the breaks that end at or before it. -/
def lineOf (o : ℕ) : ℕ := 1 + Nat.count (EndsBreak s) (o + 1)

/-- Where the line of an offset starts: at the last break that ends at or before it, or at the
start of the text. -/
def lineStart (o : ℕ) : ℕ := Nat.findGreatest (EndsBreak s) o

/-- The column of an offset: one more than its distance from the start of its line. -/
def columnOf (o : ℕ) : ℕ := 1 + (o - lineStart s o)

/-- **The place of an offset.** -/
def placeOf (o : ℕ) : Position := ⟨lineOf s o, columnOf s o⟩

variable {s} {o : ℕ}

/-- Where a break ends, a line starts. -/
theorem step_of_endsBreak (h : EndsBreak s (o + 1)) :
    lineOf s (o + 1) = lineOf s o + 1 ∧ columnOf s (o + 1) = 1 := by
  constructor
  · rw [lineOf, Nat.count_succ, if_pos h, lineOf, Nat.add_assoc]
  · rw [columnOf, lineStart, Nat.findGreatest_eq h, Nat.sub_self]

/-- Elsewhere a line goes on. -/
theorem step_of_not_endsBreak (h : ¬ EndsBreak s (o + 1)) :
    lineOf s (o + 1) = lineOf s o ∧ columnOf s (o + 1) = columnOf s o + 1 := by
  constructor
  · rw [lineOf, Nat.count_succ, if_neg h, lineOf, Nat.add_zero]
  · have before : lineStart s o ≤ o := Nat.findGreatest_le o
    rw [columnOf, lineStart, Nat.findGreatest_of_not h, ← lineStart, columnOf]
    omega

/-- **Places ascend with the offsets.** -/
theorem rank_placeOf_lt_iff {o o' : ℕ} : (placeOf s o).rank < (placeOf s o').rank ↔ o < o' := by
  have ascending : StrictMono fun o => (placeOf s o).rank := by
    refine strictMono_nat_of_lt_succ fun o => Prod.Lex.toLex_lt_toLex.mpr ?_
    by_cases h : EndsBreak s (o + 1)
    · left
      simp only [placeOf, (step_of_endsBreak h).1]
      omega
    · right
      simp only [placeOf, step_of_not_endsBreak h, true_and]
      omega
  exact ascending.lt_iff_lt

/-- Different offsets have different places. -/
theorem placeOf_injective (s : List Char) : Function.Injective (placeOf s) := by
  intro o o' same
  have notBefore : ¬ o < o' := by
    rw [← @rank_placeOf_lt_iff s, same]
    exact lt_irrefl _
  have notBehind : ¬ o' < o := by
    rw [← @rank_placeOf_lt_iff s, same]
    exact lt_irrefl _
  omega

/-! ### What the pass writes -/

theorem getElem?_of_drop {rest : List Char} (here : s.drop o = rest) (i : ℕ) :
    s[o + i]? = rest[i]? := by
  rw [← here, List.getElem?_drop]

/-- A character that is not the first of `\r\n` ends a line if it is one of the two. -/
theorem endsBreak_succ_iff {c : Char} {rest : List Char} (here : s.drop o = c :: rest)
    (single : ∀ r, c = '\r' → rest = '\n' :: r → False) :
    EndsBreak s (o + 1) ↔ c = '\r' ∨ c = '\n' := by
  have first : s[o]? = some c := getElem?_of_drop here 0
  have second : s[o + 1]? = rest.head? := by
    rw [List.head?_eq_getElem?]
    exact getElem?_of_drop here 1
  have alone : c = '\r' → s[o + 1]? ≠ some '\n' := by
    intro isReturn isFeed
    obtain ⟨r, rfl⟩ := List.head?_eq_some_iff.mp (second ▸ isFeed)
    exact single r isReturn rfl
  rw [EndsBreak, first, Option.some_inj, Option.some_inj, or_comm]
  exact or_congr_left (and_iff_left_of_imp alone)

/-- **The pass writes the places of all offsets** from the one on where it stands. -/
theorem entriesFrom_eq {line column offset : ℕ} {rest : List Char} (here : s.drop offset = rest)
    (atLine : lineOf s offset = line) (atColumn : columnOf s offset = column) :
    entriesFrom line column offset rest =
      (List.range' offset (rest.length + 1)).map fun o => (placeOf s o, (o : ℤ)) := by
  induction line, column, offset, rest using entriesFrom.induct with
  | case1 line column offset => simp [entriesFrom, placeOf, atLine, atColumn]
  | case2 line column offset rest ih =>
      have first : s[offset]? = some '\r' := getElem?_of_drop here 0
      have second : s[offset + 1]? = some '\n' := getElem?_of_drop here 1
      have later : s.drop (offset + 2) = rest := by rw [← List.drop_drop, here]; rfl
      -- the break ends behind the second character only
      have inside : ¬ EndsBreak s (offset + 1) := by simp [EndsBreak, first, second]
      have behind : EndsBreak s (offset + 1 + 1) := Or.inl second
      obtain ⟨line₁, column₁⟩ := step_of_not_endsBreak inside
      obtain ⟨line₂, column₂⟩ := step_of_endsBreak behind
      rw [entriesFrom, ih later (by rw [line₂, line₁, atLine]) column₂]
      simp [List.range'_succ, placeOf, line₁, column₁, atLine, atColumn, Nat.add_assoc]
  | case3 line column offset c rest single ihBreak ihOn =>
      have later : s.drop (offset + 1) = rest := by rw [← List.drop_drop, here]; rfl
      have ends := endsBreak_succ_iff here single
      rw [entriesFrom, List.length_cons, List.range'_succ, List.map_cons]
      · congr 1
        · rw [placeOf, atLine, atColumn]
        · split
          · next h =>
              obtain ⟨line₁, column₁⟩ := step_of_endsBreak (ends.mpr h)
              exact ihBreak later (by rw [line₁, atLine]) column₁
          · next h =>
              obtain ⟨line₁, column₁⟩ := step_of_not_endsBreak (mt ends.mp h)
              exact ihOn later (by rw [line₁, atLine]) (by rw [column₁, atColumn])
      · exact single

/-- **The entries of a text**: the places of its offsets, that of its end included. -/
theorem entries_ofText (s : List Char) :
    (ofText s).entries = (List.range (s.length + 1)).map fun o => (placeOf s o, (o : ℤ)) := by
  rw [List.range_eq_range']
  exact entriesFrom_eq List.drop_zero rfl rfl

theorem mem_entries_ofText {e : Position × ℤ} :
    e ∈ (ofText s).entries ↔ ∃ o ≤ s.length, placeOf s o = e.1 ∧ e.2 = o := by
  rw [entries_ofText, List.mem_map]
  constructor
  · rintro ⟨o, mem, rfl⟩
    exact ⟨o, Nat.le_of_lt_succ (List.mem_range.mp mem), rfl, rfl⟩
  · rintro ⟨o, within, place, index⟩
    exact ⟨o, List.mem_range.mpr (Nat.lt_succ_of_le within), Prod.ext place index.symm⟩

/-- **No two keys of a text are written alike.** -/
theorem nodup_keys (s : List Char) : ((ofText s).entries.map fun e => e.1.key).Nodup := by
  rw [entries_ofText, List.map_map]
  exact List.nodup_range.map (Position.key_injective.comp (placeOf_injective s))

/-- What is found under a position is what was entered for it. -/
theorem offset?_eq_some_iff {m : IndexMap} (distinct : (m.entries.map fun e => e.1.key).Nodup)
    (p : Position) (i : ℤ) : m.offset? p = some i ↔ (p, i) ∈ m.entries := by
  rw [offset?, List.lookup_eq_some_iff]
  constructor
  · rintro ⟨before, behind, split, -⟩
    rw [split]
    exact List.mem_append_right _ List.mem_cons_self
  · intro mem
    obtain ⟨before, behind, split⟩ := List.append_of_mem mem
    refine ⟨before, behind, split, fun e earlier => ?_⟩
    rw [split, List.map_append, List.nodup_append] at distinct
    have differ := distinct.2.2 _ (List.mem_map_of_mem earlier) _ List.mem_cons_self
    rw [bne_iff_ne]
    rintro rfl
    exact differ rfl

/-! ### The index map of a text -/

/-- **An index map numbers a text by line and column.** -/
structure Numbers (m : IndexMap) (s : List Char) : Prop where
  /-- There is one entry for each offset, up to that of the end of the text, under its place. -/
  entries : m.entries = (List.range (s.length + 1)).map fun o => (placeOf s o, (o : ℤ))
  /-- No two keys are written alike. -/
  keys : (m.entries.map fun e => e.1.key).Nodup
  /-- Places ascend as the offsets do. -/
  ordered : ∀ e ∈ m.entries, ∀ e' ∈ m.entries, e.1.rank < e'.1.rank ↔ e.2 < e'.2
  /-- An offset is found under the key of its place, and under no other. -/
  found : ∀ p i, m.offset? p = some i ↔ ∃ o ≤ s.length, (placeOf s o).key = p.key ∧ i = o
  /-- The line feed of a pair stands on the line of its carriage return, one column behind it. -/
  paired : ∀ o, s[o]? = some '\r' → s[o + 1]? = some '\n' →
    placeOf s (o + 1) = ⟨(placeOf s o).line, (placeOf s o).column + 1⟩

/-- **The index map of a text numbers it.** -/
theorem ofText_numbers (s : List Char) : (ofText s).Numbers s where
  entries := entries_ofText s
  keys := nodup_keys s
  ordered := by
    intro e mem e' mem'
    obtain ⟨o, -, place, offset⟩ := mem_entries_ofText.mp mem
    obtain ⟨o', -, place', offset'⟩ := mem_entries_ofText.mp mem'
    rw [← place, ← place', offset, offset', Int.ofNat_lt]
    exact rank_placeOf_lt_iff
  found := by
    intro p i
    rw [offset?_eq_some_iff (nodup_keys s), mem_entries_ofText]
    simp [Position.key_injective.eq_iff]
  paired := by
    intro o isReturn isFeed
    have inside : ¬ EndsBreak s (o + 1) := by simp [EndsBreak, isReturn, isFeed]
    obtain ⟨line, column⟩ := step_of_not_endsBreak inside
    simp [placeOf, line, column]

/-- A lone carriage return ends the first line and a pair the second, which is empty. -/
example : (ofText "a\r\r\nb".toList).entries.map (·.1) =
    [⟨1, 1⟩, ⟨1, 2⟩, ⟨2, 1⟩, ⟨2, 2⟩, ⟨3, 1⟩, ⟨3, 2⟩] := by
  decide

end IndexMap

end TypeVerdict
