import Mathlib.Algebra.Ring.Int.Defs
import Mathlib.Data.List.TakeWhile
import TypeVerdict.SourceMap.Projection

/-!
# When a source map can be judged

A map that is malformed is taken for no map.  Not every map that cannot be decoded is malformed,
though: some cannot be judged at all, and then there is no projection.  Which ones these are can
be told without decoding them.

What a segment refers to and where it leads are sums of the fields written so far
(`total`): its column is a sum over its line, everything else a sum over the whole map.  A map's
mappings are therefore decoded up to the first segment at fault, and the kind of that fault
decides.  The induction is over the segments in order, with all of those before as the state of
the decoder (`cursorAfter`).

## Main definitions

* `SourceMap.segments`: the segments of some mappings, each with its line
* `SourceMap.total`: the sum of a field over some segments
* `SourceMap.Sound`, `SourceMap.Fault`: segments that can be decoded, and what is wrong with others
* `SourceMap.FirstFault`: what is wrong with the first segment that cannot be decoded
* `SourceMap.Source.Unjudgeable`: maps that cannot be judged

## Main statements

* `SourceMap.decodeSegment_of_sound`, `SourceMap.decodeSegment_of_fault`: decoding one segment
* `SourceMap.decodeLines_eq_error_iff`: decoding stops at the first fault
* `SourceMap.decode_eq_error_iff`: what the decoder says of maps that cannot be judged
* `Projection.exists_iff_judgeable`: which maps have a projection
-/

namespace TypeVerdict

open Text

namespace SourceMap

/-! ### Segments and their sums -/

/-- The segments of a line, but for empty ones, which are skipped. -/
def segmentsOfLine (line : Nat) (texts : List (List Char)) : List (Nat × List Char) :=
  (texts.filter (· ≠ [])).map (line, ·)

/-- The segments of some lines, the first of which has a given number, each with its line. -/
def segmentsFrom (line : Nat) : List (List Char) → List (Nat × List Char)
  | [] => []
  | text :: more => segmentsOfLine line (splitAt ',' text) ++ segmentsFrom (line + 1) more

/-- The segments of some mappings, each with its line. -/
def segments (mappings : List Char) : List (Nat × List Char) :=
  segmentsFrom 0 (splitAt ';' mappings)

/-- The fields of a segment, if it can be read. -/
def fieldsOf (segment : List Char) : List Int := (quantities segment).toOption.getD []

/-- **The sum of a field over some segments.**  Segments that lack the field add nothing. -/
def total (i : Nat) (segments : List (Nat × List Char)) : Int :=
  (segments.map fun s => (fieldsOf s.2).getD i 0).sum

/-- The column at which a line stands behind some segments. -/
def columnAfter (segments : List (Nat × List Char)) (line : Nat) : Int :=
  total 0 (segments.filter (·.1 = line))

/-- The running quantities of a map behind some segments. -/
def cursorAfter (segments : List (Nat × List Char)) : Cursor where
  source := total 1 segments
  line := total 2 segments
  column := total 3 segments
  name := total 4 segments

variable {limits : Limits} {before : List (Nat × List Char)} {s : Nat × List Char}
  {e : DecodeError}

theorem total_append (i : Nat) (xs ys : List (Nat × List Char)) :
    total i (xs ++ ys) = total i xs + total i ys := by
  simp [total]

theorem total_singleton (i : Nat) (s : Nat × List Char) :
    total i [s] = (fieldsOf s.2).getD i 0 := by
  simp [total]

theorem columnAfter_append_singleton (before : List (Nat × List Char)) (s : Nat × List Char) :
    columnAfter (before ++ [s]) s.1 = columnAfter before s.1 + (fieldsOf s.2).getD 0 0 := by
  rw [columnAfter, List.filter_append, total_append, columnAfter]
  simp [total]

/-! ### Sound segments and faults -/

/-- **A segment can be read and what it refers to exists**: it has a column only, or also a source
with a place in it, or a name besides. -/
structure Refers (limits : Limits) (before : List (Nat × List Char)) (s : Nat × List Char) :
    Prop where
  reads : quantities s.2 = .ok (fieldsOf s.2)
  shape : (fieldsOf s.2).length = 1 ∨ 4 ≤ (fieldsOf s.2).length
  source : 4 ≤ (fieldsOf s.2).length → ∃ count, limits.sources? = some count ∧
    0 ≤ total 1 (before ++ [s]) ∧ total 1 (before ++ [s]) < count
  name : 5 ≤ (fieldsOf s.2).length →
    0 ≤ total 4 (before ++ [s]) ∧ total 4 (before ++ [s]) < limits.names

/-- A segment leads somewhere: neither its column nor its place in the source is negative. -/
def Leads (before : List (Nat × List Char)) (s : Nat × List Char) : Prop :=
  0 ≤ columnAfter (before ++ [s]) s.1 ∧ 0 ≤ total 2 (before ++ [s]) ∧ 0 ≤ total 3 (before ++ [s])

/-- A segment holds a character above `z`. -/
def Foreign (s : Nat × List Char) : Prop := ∃ c ∈ s.2, 'z' < c

/-- **A segment is sound**, given the segments before it. -/
def Sound (limits : Limits) (before : List (Nat × List Char)) (s : Nat × List Char) : Prop :=
  Refers limits before s ∧ Leads before s

/-- **What is wrong with a segment**, given the segments before it. -/
inductive Fault (limits : Limits) (before : List (Nat × List Char)) (s : Nat × List Char) :
    DecodeError → Prop where
  | foreign (h : Foreign s) : Fault limits before s .foreignCharacter
  | negative (refers : Refers limits before s) (lost : ¬ Leads before s) :
      Fault limits before s .negativeCoordinate
  | malformed (native : ¬ Foreign s) (dangling : ¬ Refers limits before s) :
      Fault limits before s .malformed

/-- A segment is sound or at fault. -/
theorem sound_or_fault (limits : Limits) (before : List (Nat × List Char)) (s : Nat × List Char) :
    Sound limits before s ∨ ∃ e, Fault limits before s e := by
  by_cases foreign : Foreign s
  · exact Or.inr ⟨_, .foreign foreign⟩
  by_cases refers : Refers limits before s
  · by_cases leads : Leads before s
    · exact Or.inl ⟨refers, leads⟩
    · exact Or.inr ⟨_, .negative refers leads⟩
  · exact Or.inr ⟨_, .malformed foreign refers⟩

/-! ### Decoding one segment -/

theorem group?_eq_none_iff {c : Char} : group? c = none ↔ 'z' < c := by
  have above : 'z' < c ↔ 122 < c.toNat := by
    rw [Char.lt_def, UInt32.lt_iff_toNat_lt]
    rfl
  rw [above, group?]
  split
  · next h => simp [h]
  · next h => cases base64Index? c <;> simp [h]

/-- **Reading fails for a foreign character wherever it stands**, and then for it alone. -/
theorem quantitiesFrom_foreign_iff (bits width : Nat) (segment : List Char) :
    (∃ c, quantitiesFrom bits width segment = .error (.foreignCharacter c)) ↔
      ∃ c ∈ segment, 'z' < c := by
  induction segment generalizing bits width with
  | nil =>
      rw [quantitiesFrom]
      split <;> simp
  | cons c more ih =>
      rw [quantitiesFrom]
      cases read : group? c with
      | none => simp [group?_eq_none_iff.mp read]
      | some group =>
          have native : ¬ 'z' < c := fun above => by
            rw [group?_eq_none_iff.mpr above] at read
            cases read
          simp only [List.mem_cons, exists_eq_or_imp, native, false_or]
          obtain ⟨v, goes⟩ := group
          cases goes with
          | true => exact ih _ _
          | false =>
              -- a quantity is complete, and whatever comes of the others is passed on
              rw [← ih 0 0]
              cases quantitiesFrom 0 0 more <;> simp [bind, Except.bind, pure, Except.pure]

theorem fieldsOf_of_reads {segment : List Char} {fields : List Int}
    (reads : quantities segment = .ok fields) : fieldsOf segment = fields := by
  rw [fieldsOf, reads]
  rfl

/-- The fields behind the column move the running quantities. -/
theorem cursorAfter_append_singleton {step : Int} {fields : List Int}
    (reads : fieldsOf s.2 = step :: fields) :
    cursorAfter (before ++ [s]) = ⟨total 1 before + fields.getD 0 0,
      total 2 before + fields.getD 1 0, total 3 before + fields.getD 2 0,
      total 4 before + fields.getD 3 0⟩ := by
  simp [cursorAfter, total_append, total_singleton, reads]

theorem inRange_iff {i : Int} {n : Nat} : inRange i n = true ↔ 0 ≤ i ∧ i < n := by
  simp [inRange]

/-- **A source with a place in it, and a name if there is one, have to exist.** -/
theorem advance_cons (limits : Limits) (cur : Cursor) (source line column : Int)
    (rest : List Int) :
    cur.advance limits (source :: line :: column :: rest) =
      if (∃ count, limits.sources? = some count ∧
          inRange (cur.source + source) count = true) ∧
        (rest ≠ [] → inRange (cur.name + rest.headD 0) limits.names = true) then
        .ok ⟨cur.source + source, cur.line + line, cur.column + column, cur.name + rest.headD 0⟩
      else .error .malformed := by
  cases known : limits.sources? with
  | none => simp [Cursor.advance, known]
  | some count =>
      cases inside : inRange (cur.source + source) count with
      | false =>
          simp [Cursor.advance, known, inside]
          rfl
      | true =>
          cases rest with
          | nil =>
              simp [Cursor.advance, known, inside]
              rfl
          | cons name rest =>
              cases named : inRange (cur.name + name) limits.names with
              | false => simp [Cursor.advance, known, inside, named]
              | true =>
                  simp [Cursor.advance, known, inside, named]
                  rfl

/-- **The fields behind the column are followed** if what they refer to exists. -/
theorem advance_of_refers (refers : Refers limits before s) {step : Int} {fields : List Int}
    (reads : fieldsOf s.2 = step :: fields) :
    (cursorAfter before).advance limits fields = .ok (cursorAfter (before ++ [s])) := by
  have shape := refers.shape
  have source := refers.source
  have name := refers.name
  rw [total_append, total_singleton] at name source
  rw [reads] at shape source name
  rw [cursorAfter_append_singleton reads]
  match fields with
  | [] => simp [Cursor.advance, cursorAfter]
  | [_] => simp at shape
  | [_, _] => simp at shape
  | a :: b :: c :: rest =>
      obtain ⟨count, known, inside⟩ := source (by simp)
      have named : rest ≠ [] →
          inRange ((cursorAfter before).name + rest.headD 0) limits.names = true := by
        intro some
        cases rest with
        | nil => exact absurd rfl some
        | cons d rest => exact inRange_iff.mpr (name (by simp))
      rw [advance_cons, if_pos ⟨⟨count, known, inRange_iff.mpr inside⟩, named⟩]
      cases rest <;> rfl

/-- **Else they are refused.** -/
theorem advance_of_not_refers (dangling : ¬ Refers limits before s) {step : Int}
    {fields : List Int} (reads : quantities s.2 = .ok (step :: fields)) :
    (cursorAfter before).advance limits fields = .error .malformed := by
  have written := fieldsOf_of_reads reads
  have readable : quantities s.2 = .ok (fieldsOf s.2) := by rw [written, reads]
  match fields with
  | [] =>
      exact absurd ⟨readable, by simp [written], by simp [written], by simp [written]⟩ dangling
  | [_] => rfl
  | [_, _] => rfl
  | a :: b :: c :: rest =>
      rw [advance_cons, if_neg]
      rintro ⟨⟨count, known, inside⟩, named⟩
      refine dangling ⟨readable, by simp [written], fun _ => ⟨count, known, ?_⟩, fun long => ?_⟩
      · rw [total_append, total_singleton, written]
        exact inRange_iff.mp inside
      · rw [total_append, total_singleton, written]
        cases rest with
        | nil => simp [written] at long
        | cons d rest => exact inRange_iff.mp (named (List.cons_ne_nil d rest))

/-- A segment whose references exist is judged by where it leads. -/
theorem decodeSegment_of_refers (refers : Refers limits before s) :
    decodeSegment limits s.1 (columnAfter before s.1) (cursorAfter before) s.2 =
      if columnAfter (before ++ [s]) s.1 < 0 ∨ total 2 (before ++ [s]) < 0 ∨
          total 3 (before ++ [s]) < 0 then .error .negativeCoordinate
      else .ok (⟨s.1, (columnAfter (before ++ [s]) s.1).toNat, (total 2 (before ++ [s])).toNat,
        (total 3 (before ++ [s])).toNat⟩, columnAfter (before ++ [s]) s.1,
        cursorAfter (before ++ [s])) := by
  cases written : fieldsOf s.2 with
  | nil => simpa [written] using refers.shape
  | cons step fields =>
      have after : columnAfter (before ++ [s]) s.1 = columnAfter before s.1 + step := by
        rw [columnAfter_append_singleton, written, List.getD_cons_zero]
      rw [decodeSegment, refers.reads, written, after]
      simp only [advance_of_refers refers written]
      rfl

/-- **A sound segment is decoded**, and joins those before it. -/
theorem decodeSegment_of_sound (sound : Sound limits before s) :
    ∃ mapping, decodeSegment limits s.1 (columnAfter before s.1) (cursorAfter before) s.2 =
      .ok (mapping, columnAfter (before ++ [s]) s.1, cursorAfter (before ++ [s])) := by
  obtain ⟨refers, column, line, sourceColumn⟩ := sound
  exact ⟨_, by rw [decodeSegment_of_refers refers, if_neg (by omega)]⟩

/-- **A segment at fault is refused** for what is wrong with it. -/
theorem decodeSegment_of_fault (fault : Fault limits before s e) :
    decodeSegment limits s.1 (columnAfter before s.1) (cursorAfter before) s.2 = .error e := by
  cases fault with
  | foreign h =>
      obtain ⟨c, read⟩ := (quantitiesFrom_foreign_iff 0 0 s.2).mpr h
      rw [decodeSegment, quantities, read]
  | negative refers lost =>
      rw [Leads] at lost
      rw [decodeSegment_of_refers refers, if_pos (by omega)]
  | malformed native dangling =>
      rw [decodeSegment]
      cases read : quantities s.2 with
      | error cause =>
          cases cause with
          | unfinished => rfl
          | foreignCharacter c =>
              exact absurd ((quantitiesFrom_foreign_iff 0 0 s.2).mp ⟨c, read⟩) native
      | ok fields =>
          cases fields with
          | nil => rfl
          | cons step fields =>
              simp only [advance_of_not_refers dangling read]
              rfl

/-! ### The first fault -/

/-- Each of several segments is sound, given those before it. -/
def AllSound (limits : Limits) : List (Nat × List Char) → List (Nat × List Char) → Prop
  | _, [] => True
  | before, s :: more => Sound limits before s ∧ AllSound limits (before ++ [s]) more

/-- **What is wrong with the first segment at fault** among several behind some others. -/
def FirstFault (limits : Limits) (before todo : List (Nat × List Char)) (e : DecodeError) : Prop :=
  ∃ earlier s later, todo = earlier ++ s :: later ∧ AllSound limits before earlier ∧
    Fault limits (before ++ earlier) s e

variable {todo more : List (Nat × List Char)}

theorem firstFault_nil : ¬ FirstFault limits before [] e := by
  rintro ⟨earlier, s, later, none, -⟩
  simp at none

/-- The first fault is that of the first segment, or stands behind it. -/
theorem firstFault_cons : FirstFault limits before (s :: more) e ↔
    Fault limits before s e ∨ Sound limits before s ∧ FirstFault limits (before ++ [s]) more e := by
  constructor
  · rintro ⟨_ | ⟨s', earlier⟩, t, later, split, sounds, fault⟩
    · obtain ⟨rfl, rfl⟩ := List.cons.inj split
      exact Or.inl (by rwa [List.append_nil] at fault)
    · obtain ⟨rfl, rfl⟩ := List.cons.inj split
      exact Or.inr ⟨sounds.1, earlier, t, later, rfl, sounds.2, by rwa [List.append_assoc]⟩
  · rintro (fault | ⟨sound, earlier, t, later, rfl, sounds, fault⟩)
    · exact ⟨[], s, more, rfl, trivial, by rwa [List.append_nil]⟩
    · exact ⟨s :: earlier, t, later, rfl, ⟨sound, sounds⟩, by rwa [List.append_assoc] at fault⟩

theorem allSound_append : AllSound limits before (todo ++ more) ↔
    AllSound limits before todo ∧ AllSound limits (before ++ todo) more := by
  induction todo generalizing before with
  | nil => simp [AllSound]
  | cons s todo ih => simp [AllSound, ih, and_assoc]

/-- The first fault stands in the one part or, if that is sound, in the other. -/
theorem firstFault_append : FirstFault limits before (todo ++ more) e ↔
    FirstFault limits before todo e ∨
      AllSound limits before todo ∧ FirstFault limits (before ++ todo) more e := by
  induction todo generalizing before with
  | nil => simp [AllSound, firstFault_nil]
  | cons s todo ih => simp [AllSound, firstFault_cons, ih, and_assoc, and_or_left, or_assoc]

/-- Segments are all sound, or there is a first one at fault. -/
theorem allSound_or_firstFault (limits : Limits) (before todo : List (Nat × List Char)) :
    AllSound limits before todo ∨ ∃ e, FirstFault limits before todo e := by
  induction todo generalizing before with
  | nil => exact Or.inl trivial
  | cons s more ih =>
      rcases sound_or_fault limits before s with sound | ⟨e, fault⟩
      · rcases ih (before ++ [s]) with sounds | ⟨e, fault⟩
        · exact Or.inl ⟨sound, sounds⟩
        · exact Or.inr ⟨e, firstFault_cons.mpr (Or.inr ⟨sound, fault⟩)⟩
      · exact Or.inr ⟨e, firstFault_cons.mpr (Or.inl fault)⟩

/-! ### Decoding all segments -/

theorem segmentsOfLine_cons (line : Nat) (c : Char) (text : List Char) (more : List (List Char)) :
    segmentsOfLine line ((c :: text) :: more) = (line, c :: text) :: segmentsOfLine line more := by
  simp [segmentsOfLine]

/-- A sound segment makes way for those behind it on its line. -/
theorem decodeSegments_cons_of_sound {line : Nat} {c : Char} {text : List Char}
    (sound : Sound limits before (line, c :: text)) (more : List (List Char)) :
    ∃ mapping, decodeSegments limits line (columnAfter before line) (cursorAfter before)
        ((c :: text) :: more) =
      (decodeSegments limits line (columnAfter (before ++ [(line, c :: text)]) line)
        (cursorAfter (before ++ [(line, c :: text)])) more).map
          fun (mappings, cur) => (mapping :: mappings, cur) := by
  obtain ⟨mapping, decoded⟩ := decodeSegment_of_sound sound
  refine ⟨mapping, ?_⟩
  rw [decodeSegments, decoded]
  · show (do
      let (mappings, cur) ← decodeSegments limits line
        (columnAfter (before ++ [(line, c :: text)]) line)
        (cursorAfter (before ++ [(line, c :: text)])) more
      return (mapping :: mappings, cur)) = _
    cases decodeSegments limits line (columnAfter (before ++ [(line, c :: text)]) line)
      (cursorAfter (before ++ [(line, c :: text)])) more <;> rfl
  · exact List.cons_ne_nil c text

/-- **The segments of a line are decoded** if all of them are sound. -/
theorem decodeSegments_of_allSound (line : Nat) (texts : List (List Char))
    (sounds : AllSound limits before (segmentsOfLine line texts)) :
    ∃ mappings, decodeSegments limits line (columnAfter before line) (cursorAfter before) texts =
      .ok (mappings, cursorAfter (before ++ segmentsOfLine line texts)) := by
  induction texts generalizing before with
  | nil => exact ⟨[], by simp [decodeSegments, segmentsOfLine]⟩
  | cons text more ih =>
      cases text with
      | nil => exact ih sounds
      | cons c text =>
          rw [segmentsOfLine_cons] at sounds ⊢
          obtain ⟨mapping, decoded⟩ := decodeSegments_cons_of_sound sounds.1 more
          obtain ⟨mappings, rest⟩ := ih sounds.2
          refine ⟨mapping :: mappings, ?_⟩
          rw [List.append_cons, decoded, rest]
          rfl

/-- **They are refused** for the first fault. -/
theorem decodeSegments_of_firstFault (line : Nat) (texts : List (List Char))
    (fault : FirstFault limits before (segmentsOfLine line texts) e) :
    decodeSegments limits line (columnAfter before line) (cursorAfter before) texts =
      .error e := by
  induction texts generalizing before with
  | nil => exact absurd fault firstFault_nil
  | cons text more ih =>
      cases text with
      | nil => exact ih fault
      | cons c text =>
          rw [segmentsOfLine_cons] at fault
          rcases firstFault_cons.mp fault with fault | ⟨sound, fault⟩
          · rw [decodeSegments, decodeSegment_of_fault fault]
            · rfl
            · exact List.cons_ne_nil c text
          · obtain ⟨mapping, decoded⟩ := decodeSegments_cons_of_sound sound more
            rw [decoded, ih fault]
            rfl

/-- Behind segments of earlier lines a line begins at column zero. -/
theorem columnAfter_of_forall_lt {line : Nat} (earlier : ∀ s ∈ before, s.1 < line) :
    columnAfter before line = 0 := by
  have none : before.filter (·.1 = line) = [] := by
    simp only [List.filter_eq_nil_iff, decide_eq_true_eq]
    intro s mem same
    exact absurd (earlier s mem) (by omega)
  rw [columnAfter, none]
  rfl

theorem line_lt_of_mem_segmentsOfLine {line : Nat} {texts : List (List Char)}
    (earlier : ∀ s ∈ before, s.1 < line) :
    ∀ s ∈ before ++ segmentsOfLine line texts, s.1 < line + 1 := by
  intro s mem
  rcases List.mem_append.mp mem with mem | mem
  · exact Nat.lt_succ_of_lt (earlier s mem)
  · obtain ⟨text, -, rfl⟩ := List.mem_map.mp mem
    exact Nat.lt_succ_self line

/-- **Lines are decoded** if all of their segments are sound. -/
theorem decodeLines_of_allSound (line : Nat) (texts : List (List Char))
    (earlier : ∀ s ∈ before, s.1 < line)
    (sounds : AllSound limits before (segmentsFrom line texts)) :
    ∃ lines, decodeLines limits line (cursorAfter before) texts = .ok lines := by
  induction texts generalizing before line with
  | nil => exact ⟨[], rfl⟩
  | cons text more ih =>
      obtain ⟨sounds, sounds'⟩ := allSound_append.mp sounds
      obtain ⟨mappings, decoded⟩ := decodeSegments_of_allSound line _ sounds
      obtain ⟨lines, rest⟩ := ih (line + 1) (line_lt_of_mem_segmentsOfLine earlier) sounds'
      -- the decoder begins each line at column zero, and so does the sum over the line
      rw [columnAfter_of_forall_lt earlier] at decoded
      refine ⟨mappings :: lines, ?_⟩
      rw [decodeLines, decoded]
      show (do
        let rest ← decodeLines limits (line + 1) _ more
        return mappings :: rest) = _
      rw [rest]
      rfl

/-- **They are refused** for the first fault. -/
theorem decodeLines_of_firstFault (line : Nat) (texts : List (List Char))
    (earlier : ∀ s ∈ before, s.1 < line)
    (fault : FirstFault limits before (segmentsFrom line texts) e) :
    decodeLines limits line (cursorAfter before) texts = .error e := by
  induction texts generalizing before line with
  | nil => exact absurd fault firstFault_nil
  | cons text more ih =>
      rw [decodeLines]
      rcases firstFault_append.mp fault with fault | ⟨sounds, fault⟩
      · have refused := decodeSegments_of_firstFault line _ fault
        rw [columnAfter_of_forall_lt earlier] at refused
        rw [refused]
        rfl
      · obtain ⟨mappings, decoded⟩ := decodeSegments_of_allSound line _ sounds
        rw [columnAfter_of_forall_lt earlier] at decoded
        rw [decoded]
        show (do
          let rest ← decodeLines limits (line + 1) _ more
          return mappings :: rest) = _
        rw [ih (line + 1) (line_lt_of_mem_segmentsOfLine earlier) fault]
        rfl

/-- **Mappings are decoded up to the first fault**, and refused for it. -/
theorem decodeLines_eq_error_iff (limits : Limits) (mappings : List Char) (e : DecodeError) :
    decodeLines limits 0 {} (splitAt ';' mappings) = .error e ↔
      FirstFault limits [] (segments mappings) e := by
  have nothing : ∀ s ∈ ([] : List (Nat × List Char)), s.1 < 0 := by simp
  constructor
  · intro refused
    rcases allSound_or_firstFault limits [] (segments mappings) with sounds | ⟨e', fault⟩
    · obtain ⟨lines, decoded⟩ := decodeLines_of_allSound 0 _ nothing sounds
      cases refused.symm.trans decoded
    · have refused' := decodeLines_of_firstFault 0 _ nothing fault
      cases refused.symm.trans refused'
      exact fault
  · exact decodeLines_of_firstFault 0 _ nothing

/-! ### Maps that cannot be judged -/

/-- **Why an object cannot be judged**: it has sources and names that can be counted, but what it
has for mappings is no text, or their first fault is a foreign character or a negative
coordinate. -/
inductive ObjectObstacle (map : Json) : DecodeError → Prop where
  | mappingsNotText {sources names mappings : Json} {count : Nat}
      (listed : map.field? "sources" = some sources) (named : map.field? "names" = some names)
      (counted : nameCount names = .ok count) (mapped : map.field? "mappings" = some mappings)
      (other : ∀ text, mappings ≠ .text text) : ObjectObstacle map .mappingsNotText
  | segment {sources names : Json} {count : Nat} {mappings : String} {sources? : Option Nat}
      {e : DecodeError} (listed : map.field? "sources" = some sources)
      (named : map.field? "names" = some names) (counted : nameCount names = .ok count)
      (mapped : map.field? "mappings" = some (.text mappings))
      (numbered : sourceCount (sourceRoot? map) sources = .ok sources?)
      (fault : FirstFault ⟨sources?, count⟩ [] (segments mappings.toList) e)
      (serious : e ≠ .malformed) : ObjectObstacle map e

/-- **Why a source map cannot be judged**: the object cannot, or a text is all header, is nested
too deeply or is that of such an object. -/
inductive Source.Obstacle : Source → DecodeError → Prop where
  | object {map : Json} {e : DecodeError} (h : ObjectObstacle map e) : Obstacle (.object map) e
  | headerOnly {s : String} (header : lit ")]\x7d" <+: s.toList) (single : '\n' ∉ s.toList) :
      Obstacle (.text s) .headerOnly
  | tooDeep {s : String} {body : List Char} (behind : dropHeader s.toList = .ok body)
      (deep : Json.parse body = .error .tooDeep) : Obstacle (.text s) .tooDeep
  | text {s : String} {body : List Char} {map : Json} {e : DecodeError}
      (behind : dropHeader s.toList = .ok body) (parsed : Json.parse body = .ok map)
      (h : ObjectObstacle map e) : Obstacle (.text s) e

/-- A source map cannot be judged. -/
def Source.Unjudgeable (source : Source) : Prop := ∃ e, source.Obstacle e

theorem ObjectObstacle.ne_malformed {map : Json} (h : ObjectObstacle map e) : e ≠ .malformed := by
  cases h with
  | mappingsNotText => decide
  | segment _ _ _ _ _ _ serious => exact serious

theorem Source.Obstacle.ne_malformed {source : Source} (h : source.Obstacle e) :
    e ≠ .malformed := by
  cases h with
  | object h => exact h.ne_malformed
  | headerOnly => decide
  | tooDeep => decide
  | text _ _ h => exact h.ne_malformed

/-- A text is all header just if it begins with one and is a single line. -/
theorem dropHeader_eq_error_iff {s : List Char} :
    dropHeader s = .error e ↔ e = .headerOnly ∧ lit ")]\x7d" <+: s ∧ '\n' ∉ s := by
  rw [dropHeader]
  cases header : stripPrefix? (lit ")]\x7d") s with
  | none =>
      have headless : ¬ lit ")]\x7d" <+: s := by
        rintro ⟨r, rfl⟩
        rw [stripPrefix?_eq_some_iff.mpr rfl] at header
        cases header
      simp [headless]
  | some r =>
      have headed : lit ")]\x7d" <+: s := ⟨r, (stripPrefix?_eq_some_iff.mp header).symm⟩
      have single : s.dropWhile (· ≠ '\n') = [] ↔ '\n' ∉ s := by
        rw [List.dropWhile_eq_nil_iff]
        simp only [decide_eq_true_eq]
        exact ⟨fun h mem => h _ mem rfl, fun h c mem same => h (same ▸ mem)⟩
      simp only [headed, true_and, ← single]
      cases s.dropWhile (· ≠ '\n') <;> simp [eq_comm]

/-- Sources that cannot be numbered are malformed. -/
theorem sourceCount_eq_error {root? : Option Json} {sources : Json}
    (h : sourceCount root? sources = .error e) : e = .malformed := by
  unfold sourceCount at h
  split at h <;> first | (cases h <;> rfl) | (split at h <;> cases h; rfl)

/-- So are names that cannot be counted. -/
theorem nameCount_eq_error {names : Json} (h : nameCount names = .error e) : e = .malformed := by
  cases names <;> cases h <;> rfl

/-- An object that lacks its sources, or names that can be counted, is malformed. -/
theorem exists_listed_of_refused {map : Json} (serious : e ≠ .malformed)
    (refused : decodeJson map = .error e) : ∃ sources names count,
      map.field? "sources" = some sources ∧ map.field? "names" = some names ∧
      nameCount names = .ok count := by
  cases listed : map.field? "sources" with
  | none =>
      simp only [decodeJson, listed] at refused
      cases refused
      exact absurd rfl serious
  | some sources =>
      cases named : map.field? "names" with
      | none =>
          simp only [decodeJson, listed, named] at refused
          cases refused
          exact absurd rfl serious
      | some names =>
          cases counted : nameCount names with
          | error e' =>
              simp only [decodeJson, listed, named, counted] at refused
              cases refused
              exact absurd (nameCount_eq_error counted) serious
          | ok count => exact ⟨sources, names, count, rfl, rfl, counted⟩

theorem decodeJson_eq_error_iff {map : Json} (serious : e ≠ .malformed) :
    decodeJson map = .error e ↔ ObjectObstacle map e := by
  constructor
  · intro refused
    obtain ⟨sources, names, count, listed, named, counted⟩ :=
      exists_listed_of_refused serious refused
    cases mapped : map.field? "mappings" with
    | none =>
        simp only [decodeJson, listed, named, counted, mapped] at refused
        cases refused
        exact absurd rfl serious
    | some mappings =>
        cases mappings with
        | text s =>
            cases numbered : sourceCount (sourceRoot? map) sources with
            | error e' =>
                simp only [decodeJson, listed, named, counted, mapped, numbered] at refused
                cases refused
                exact absurd (sourceCount_eq_error numbered) serious
            | ok sources? =>
                simp only [decodeJson, listed, named, counted, mapped, numbered] at refused
                have fault := (decodeLines_eq_error_iff ⟨sources?, count⟩ s.toList e).mp refused
                exact .segment listed named counted mapped numbered fault serious
        | _ =>
            simp only [decodeJson, listed, named, counted, mapped] at refused
            cases refused
            exact .mappingsNotText listed named counted mapped (by simp)
  · intro obstacle
    cases obstacle with
    | @mappingsNotText _ _ mappings _ listed named counted mapped other =>
        simp only [decodeJson, listed, named, counted, mapped]
        cases mappings with
        | text s => exact absurd rfl (other s)
        | _ => rfl
    | segment listed named counted mapped numbered fault _ =>
        have refused := (decodeLines_eq_error_iff _ _ _).mpr fault
        simp only [decodeJson, listed, named, counted, mapped, numbered]
        exact refused

/-- A text is decoded behind its header. -/
theorem decode_text {s : String} {body : List Char} (behind : dropHeader s.toList = .ok body) :
    decode (.text s) = match Json.parse body with
      | .error .malformed => .error .malformed
      | .error .tooDeep => .error .tooDeep
      | .ok map => decodeJson map := by
  rw [decode, behind]
  rfl

/-- **What the decoder says of a map that cannot be judged.** -/
theorem decode_eq_error_iff {source : Source} (serious : e ≠ .malformed) :
    decode source = .error e ↔ source.Obstacle e := by
  constructor
  · intro refused
    cases source with
    | object map => exact .object ((decodeJson_eq_error_iff serious).mp refused)
    | text s =>
        cases behind : dropHeader s.toList with
        | error e' =>
            simp only [decode, behind] at refused
            cases refused
            obtain ⟨rfl, header, single⟩ := dropHeader_eq_error_iff.mp behind
            exact .headerOnly header single
        | ok body =>
            rw [decode_text behind] at refused
            cases parsed : Json.parse body with
            | ok map =>
                rw [parsed] at refused
                exact .text behind parsed ((decodeJson_eq_error_iff serious).mp refused)
            | error cause =>
                rw [parsed] at refused
                cases cause with
                | malformed =>
                    cases refused
                    exact absurd rfl serious
                | tooDeep =>
                    cases refused
                    exact .tooDeep behind parsed
  · intro obstacle
    cases obstacle with
    | object h => exact (decodeJson_eq_error_iff serious).mpr h
    | headerOnly header single =>
        rw [decode, dropHeader_eq_error_iff.mpr ⟨rfl, header, single⟩]
        rfl
    | tooDeep behind deep => rw [decode_text behind, deep]
    | text behind parsed h =>
        rw [decode_text behind, parsed]
        exact (decodeJson_eq_error_iff serious).mpr h

end SourceMap

namespace Projection

open SourceMap

/-- **Which source maps have a projection.**  There is one just if there is no map or it can be
judged, and wherever a map cannot be decoded, the projection is as if there were none: it leaves
every position where it is. -/
theorem exists_iff_judgeable (source? : Option Source) :
    (∃ t, ofSource source? = .ok t ∧
      ((∀ source ∈ source?, ∀ lines, decode source ≠ .ok lines) →
        t.hasMap = false ∧ ∀ p, t.apply p = p)) ↔
      ∀ source ∈ source?, ¬ source.Unjudgeable := by
  constructor
  · rintro ⟨t, projected, -⟩ source mem ⟨e, obstacle⟩
    cases mem
    have serious := obstacle.ne_malformed
    rw [ofSource, (decode_eq_error_iff serious).mpr obstacle] at projected
    cases e with
    | malformed => exact serious rfl
    | _ => cases projected
  · intro judgeable
    cases source? with
    | none => exact ⟨⟨none⟩, rfl, fun _ => ⟨rfl, fun _ => rfl⟩⟩
    | some source =>
        cases decoded : decode source with
        | ok lines =>
            refine ⟨⟨some lines⟩, by rw [ofSource, decoded], fun undecodable => ?_⟩
            exact absurd decoded (undecodable source rfl lines)
        | error e =>
            have malformed : e = .malformed := by
              by_contra serious
              exact judgeable source rfl ⟨e, (decode_eq_error_iff serious).mp decoded⟩
            exact ⟨⟨none⟩, by rw [ofSource, decoded, malformed], fun _ => ⟨rfl, fun _ => rfl⟩⟩

/-- **Not every source map has one.** -/
theorem not_all_judged :
    ¬ ∀ source? : Option Source, ∃ t, ofSource source? = .ok t ∧
      ((∀ source ∈ source?, ∀ lines, decode source ≠ .ok lines) →
        t.hasMap = false ∧ ∀ p, t.apply p = p) := by
  intro judged
  obtain ⟨t, projected, -⟩ := judged (some (.text ")]\x7d'"))
  cases projected

end Projection

end TypeVerdict
