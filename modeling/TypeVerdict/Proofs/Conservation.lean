import TypeVerdict.Proofs.Marks
import TypeVerdict.Proofs.Settling

/-!
# No text is lost

Cutting a buffer into passes loses no text and makes none up: the texts of the
passes and what stays in the buffer are the buffer as it was, whatever the markers
are.  If the banner of a complete pass never matches the empty text, no pass is made
of nothing and the cutting ends; the other banner may match whatever it likes.

What makes it end is a quantity that every happening lowers.  An announcement takes
no text off the buffer, but it sets the flag, which nothing but a completed pass
clears; a completed pass takes off at least the text of its marker.  Counting the
buffer twice and a clear flag once (`Segment.measure`) lowers with both.

## Main definitions

* `Marker.NeverEmpty`: a marker that never matches the empty text
* `Segment.measure`: the quantity that every happening lowers
* `TakesApart`: happenings that take a text apart
* `Session.AtRest`: a session whose buffer calls for nothing

## Main statements

* `Segment.next_cases`: everything that a buffer can call for
* `Settles.flatMap_text`: text is conserved
* `exists_settles`: every buffer comes to rest
* `Session.feed_conserves_text`: both, for a session that is fed
-/

namespace TypeVerdict

/-- A marker that never matches the empty text, in no text and behind no offset. -/
def Marker.NeverEmpty (m : Marker) : Prop :=
  ∀ (s : List Char) (offset start stop : Nat),
    m.search.find s offset = some (start, stop) → start < stop

/-- A banner of the standard checker is never empty. -/
theorem Markers.neverEmpty_standard : Markers.standard.passEnd.NeverEmpty := by
  intro s offset start stop h
  obtain ⟨m, -, found⟩ := Option.map_eq_some_iff.mp ((search_eq .passEnd _ _ _).symm.trans h)
  have pos := m.start_lt_stop
  simp only [Prod.mk.injEq] at found
  omega

/-! ### What a buffer calls for -/

namespace Segment

variable {markers : Markers} {flag : Bool} {buffer output left : List Char}

/-- **Everything that a buffer can call for**, with what the markers say in each
case. -/
theorem next_cases (markers : Markers) (flag : Bool) (buffer : List Char) :
    (next markers flag buffer = .wait ∧ markers.nextPassEnd? buffer = none ∧
      (flag = false → markers.nextRerun? buffer = none)) ∨
    (next markers flag buffer = .rerun ∧ flag = false ∧
      ∃ announced, markers.nextRerun? buffer = some announced ∧
        ∀ completed, markers.nextPassEnd? buffer = some completed →
          announced.1 < completed.1) ∨
    (∃ start stop, markers.nextPassEnd? buffer = some (start, stop) ∧
      next markers flag buffer = cutBehind markers buffer stop ∧
      (flag = false → ∀ announced, markers.nextRerun? buffer = some announced →
        start ≤ announced.1)) := by
  -- the flag hides announcements, so it decides which searches matter
  cases flag with
  | true =>
      cases completed? : markers.nextPassEnd? buffer with
      | none => exact Or.inl ⟨by simp [next, completed?], rfl, by simp⟩
      | some completed =>
          exact Or.inr (Or.inr ⟨completed.1, completed.2, rfl, by simp [next, completed?],
            by simp⟩)
  | false =>
      cases announced? : markers.nextRerun? buffer with
      | none =>
          cases completed? : markers.nextPassEnd? buffer with
          | none => exact Or.inl ⟨by simp [next, announced?, completed?], rfl, by simp⟩
          | some completed =>
              exact Or.inr (Or.inr ⟨completed.1, completed.2, rfl,
                by simp [next, announced?, completed?], by simp⟩)
      | some announced =>
          cases completed? : markers.nextPassEnd? buffer with
          | none =>
              exact Or.inr (Or.inl ⟨by simp [next, announced?, completed?], rfl,
                announced, rfl, by simp⟩)
          | some completed =>
              by_cases before : announced.1 < completed.1
              · exact Or.inr (Or.inl ⟨by simp [next, announced?, completed?, before], rfl,
                  announced, rfl, by simp [before]⟩)
              · refine Or.inr (Or.inr ⟨completed.1, completed.2, rfl,
                  by simp [next, announced?, completed?, before], ?_⟩)
                intro _ other same
                cases same
                omega

/-- A buffer at rest completes no pass, and announces none unless an announcement
has been acted on already. -/
theorem next_eq_wait_iff :
    next markers flag buffer = .wait ↔
      markers.nextPassEnd? buffer = none ∧
        (flag = false → markers.nextRerun? buffer = none) := by
  rcases next_cases markers flag buffer with
    ⟨h, none, rest⟩ | ⟨h, rfl, announced, some, -⟩ | ⟨start, stop, some, h, -⟩
  · exact iff_of_true h ⟨none, rest⟩
  · simp [h, some]
  · rw [h, some, cutBehind]
    split <;> simp

/-- Cutting a buffer loses nothing. -/
theorem append_of_cutBehind {stop : Nat}
    (h : cutBehind markers buffer stop = .pass output left) : output ++ left = buffer := by
  rw [cutBehind] at h
  split at h
  · cases h
    exact List.take_append_drop _ _
  · cases h
    exact List.append_nil _

/-- A cut behind a marker that is not empty leaves the text of the pass not empty:
the next announcement begins at or behind the end of the marker. -/
theorem ne_nil_of_cutBehind {start stop : Nat} (nonempty : start < stop)
    (inside : stop ≤ buffer.length)
    (h : cutBehind markers buffer stop = .pass output left) : output ≠ [] := by
  rw [cutBehind] at h
  split at h
  · next cut _ found =>
      cases h
      obtain ⟨behind, forward, within⟩ := markers.rerun.search.bounds found
      rw [← List.length_pos_iff, List.length_take]
      omega
  · cases h
    rw [← List.length_pos_iff]
    omega

theorem append_of_next (h : next markers flag buffer = .pass output left) :
    output ++ left = buffer := by
  rcases next_cases markers flag buffer with
    ⟨h', -⟩ | ⟨h', -⟩ | ⟨start, stop, -, h', -⟩
  · simp [h] at h'
  · simp [h] at h'
  · exact append_of_cutBehind (h'.symm.trans h)

theorem ne_nil_of_next (nonempty : markers.passEnd.NeverEmpty)
    (h : next markers flag buffer = .pass output left) : output ≠ [] := by
  rcases next_cases markers flag buffer with
    ⟨h', -⟩ | ⟨h', -⟩ | ⟨start, stop, found, h', -⟩
  · simp [h] at h'
  · simp [h] at h'
  · exact ne_nil_of_cutBehind (nonempty _ _ _ _ found) (markers.passEnd.search.bounds found).2.2
      (h'.symm.trans h)

theorem flag_of_next (h : next markers flag buffer = .rerun) : flag = false := by
  rcases next_cases markers flag buffer with
    ⟨h', -⟩ | ⟨-, flag, -⟩ | ⟨start, stop, -, h', -⟩
  · simp [h] at h'
  · exact flag
  · rw [h, cutBehind] at h'
    split at h' <;> cases h'

/-- The quantity that every happening lowers: the buffer counts twice, a flag that
is clear counts once. -/
def measure (flag : Bool) (buffer : List Char) : Nat :=
  2 * buffer.length + if flag then 0 else 1

/-- A completed pass with a text lowers the measure, although it clears the flag. -/
theorem measure_lt_of_ne_nil (nonempty : output ≠ [])
    (h : next markers flag buffer = .pass output left) :
    measure false left < measure flag buffer := by
  have output_pos := List.length_pos_iff.mpr nonempty
  have total := congrArg List.length (append_of_next h)
  rw [List.length_append] at total
  -- clearing the flag adds one, and the text that is taken off subtracts two at least
  simp only [measure]
  split <;> simp <;> omega

theorem measure_lt_of_next (nonempty : markers.passEnd.NeverEmpty)
    (h : next markers flag buffer = .pass output left) :
    measure false left < measure flag buffer :=
  measure_lt_of_ne_nil (ne_nil_of_next nonempty h) h

/-- An announcement lowers the measure, because it sets the flag. -/
theorem measure_lt_of_rerun (h : next markers flag buffer = .rerun) :
    measure true buffer < measure flag buffer := by
  rw [flag_of_next h]
  simp [measure]

end Segment

/-! ### Coming to rest -/

namespace Settles

variable {markers : Markers} {flag flag' : Bool} {buffer buffer' : List Char}
  {happenings : List Happening}

/-- **Text is conserved**: the texts taken off and what is left are the buffer. -/
theorem flatMap_text (h : Settles markers flag buffer happenings flag' buffer') :
    happenings.flatMap Happening.text ++ buffer' = buffer := by
  induction h with
  | wait _ => rfl
  | rerun _ _ ih => simpa [Happening.text] using ih
  | pass next _ ih =>
      rw [List.flatMap_cons, List.append_assoc, ih]
      exact Segment.append_of_next next

/-- No pass is made of nothing. -/
theorem pass_ne_nil (nonempty : markers.passEnd.NeverEmpty)
    (h : Settles markers flag buffer happenings flag' buffer') {output : List Char}
    (mem : Happening.pass output ∈ happenings) : output ≠ [] := by
  induction h with
  | wait _ => cases mem
  | rerun _ _ ih =>
      rcases List.mem_cons.mp mem with same | mem
      · cases same
      · exact ih mem
  | pass next _ ih =>
      rcases List.mem_cons.mp mem with same | mem
      · cases same
        exact Segment.ne_nil_of_next nonempty next
      · exact ih mem

/-- Every happening lowers the measure. -/
theorem length_add_measure_le (nonempty : markers.passEnd.NeverEmpty)
    (h : Settles markers flag buffer happenings flag' buffer') :
    happenings.length + Segment.measure flag' buffer' ≤ Segment.measure flag buffer := by
  induction h with
  | wait _ => simp
  | rerun next _ ih =>
      cases Segment.flag_of_next next
      simp only [List.length_cons, Segment.measure] at ih ⊢
      simp at ih ⊢
      omega
  | pass next _ ih =>
      have lower := Segment.measure_lt_of_next nonempty next
      rw [List.length_cons]
      omega

end Settles

/-- **Every buffer comes to rest**, with either flag. -/
theorem exists_settles {markers : Markers} (nonempty : markers.passEnd.NeverEmpty)
    (flag : Bool) (buffer : List Char) :
    ∃ happenings flag' buffer', Settles markers flag buffer happenings flag' buffer' := by
  induction hn : Segment.measure flag buffer using Nat.strongRecOn
    generalizing flag buffer with
  | _ n ih =>
      -- whichever way a round goes, the measure is lower behind it
      cases next : Segment.next markers flag buffer with
      | wait => exact ⟨[], flag, buffer, .wait next⟩
      | rerun =>
          have lower : Segment.measure true buffer < n :=
            hn ▸ Segment.measure_lt_of_rerun next
          obtain ⟨happenings, flag', buffer', rest⟩ := ih _ lower true buffer rfl
          exact ⟨.rerun :: happenings, flag', buffer', .rerun next rest⟩
      | pass output left =>
          have lower : Segment.measure false left < n :=
            hn ▸ Segment.measure_lt_of_next nonempty next
          obtain ⟨happenings, flag', buffer', rest⟩ := ih _ lower false left rfl
          exact ⟨.pass output :: happenings, flag', buffer', .pass next rest⟩

/-! ### Piece by piece -/

namespace SettlesEach

variable {markers : Markers} {flag flag' : Bool} {buffer buffer' : List Char}
  {pieces : List (List Char)} {happenings : List Happening}

/-- Text is conserved from piece to piece. -/
theorem flatMap_text (h : SettlesEach markers flag buffer pieces happenings flag' buffer') :
    happenings.flatMap Happening.text ++ buffer' = buffer ++ pieces.flatten := by
  induction h with
  | nil => simp
  | cons here _ ih =>
      rw [List.flatMap_append, List.append_assoc, ih, ← List.append_assoc, here.flatMap_text]
      simp

theorem pass_ne_nil (nonempty : markers.passEnd.NeverEmpty)
    (h : SettlesEach markers flag buffer pieces happenings flag' buffer') {output : List Char}
    (mem : Happening.pass output ∈ happenings) : output ≠ [] := by
  induction h with
  | nil => cases mem
  | cons here _ ih =>
      rcases List.mem_append.mp mem with mem | mem
      · exact here.pass_ne_nil nonempty mem
      · exact ih mem

/-- A piece raises the measure by twice its length, and happenings lower it. -/
theorem length_add_measure_le (nonempty : markers.passEnd.NeverEmpty)
    (h : SettlesEach markers flag buffer pieces happenings flag' buffer') :
    happenings.length + Segment.measure flag' buffer' ≤
      Segment.measure flag buffer + 2 * pieces.flatten.length := by
  induction h with
  | nil => simp
  | cons here _ ih =>
      have lower := here.length_add_measure_le nonempty
      simp only [Segment.measure, List.length_append, List.flatten_cons] at lower ih ⊢
      omega

/-- Whatever the last piece was, the buffer is at rest behind it. -/
theorem next_eq_wait (h : SettlesEach markers flag buffer pieces happenings flag' buffer')
    (some : pieces ≠ []) : Segment.next markers flag' buffer' = .wait := by
  induction h with
  | nil => exact absurd rfl some
  | cons here rest ih =>
      cases rest with
      | nil => exact here.next_eq_wait
      | cons _ _ => exact ih (by simp)

end SettlesEach

theorem exists_settlesEach {markers : Markers} (nonempty : markers.passEnd.NeverEmpty)
    (flag : Bool) (buffer : List Char) (pieces : List (List Char)) :
    ∃ happenings flag' buffer',
      SettlesEach markers flag buffer pieces happenings flag' buffer' := by
  induction pieces generalizing flag buffer with
  | nil => exact ⟨[], flag, buffer, .nil⟩
  | cons piece pieces ih =>
      obtain ⟨happenings, flag₁, buffer₁, here⟩ :=
        exists_settles nonempty flag (buffer ++ piece)
      obtain ⟨more, flag', buffer', rest⟩ := ih flag₁ buffer₁
      exact ⟨happenings ++ more, flag', buffer', .cons here rest⟩

/-! ### A session that is fed -/

/-- Happenings that take a text apart: no pass is made of nothing, and the texts of
the passes in order, with what is left behind them, are the text. -/
structure TakesApart (happenings : List Happening) (left text : List Char) : Prop where
  nonempty : ∀ output, Happening.pass output ∈ happenings → output ≠ []
  conserved : happenings.flatMap Happening.text ++ left = text

namespace Session

open Text

/-- A session whose buffer calls for nothing: it completes no pass, and announces
none unless an announcement has been acted on already. -/
def AtRest (s : Session) : Prop :=
  s.options.markers.nextPassEnd? s.buffer = none ∧
    (s.rerunSeen = false → s.options.markers.nextRerun? s.buffer = none)

variable {host : Host} {w : World}

/-- Pieces of output are taken apart, with at most two rounds for each of their
characters and those in the buffer, and two more. -/
theorem exec_feedEach_takesApart (obliging : host.Obliging) (ready : w.session.Ready)
    (nonempty : w.session.options.markers.passEnd.NeverEmpty) (pieces : List (List Char))
    {rounds : Nat} (enough : 2 * (w.session.buffer ++ pieces.flatten).length + 1 < rounds) :
    ∃ w' happenings, exec (feedEach host rounds pieces) w = (.ok (), w') ∧
      Settled w happenings w'.session.rerunSeen w'.session.buffer w' ∧
      TakesApart happenings w'.session.buffer (w.session.buffer ++ pieces.flatten) ∧
      (pieces ≠ [] → w'.session.AtRest) := by
  obtain ⟨happenings, flag, buffer, settles⟩ :=
    exists_settlesEach nonempty w.session.rerunSeen w.session.buffer pieces
  have bound : happenings.length < rounds := by
    have lower := settles.length_add_measure_le nonempty
    have clear : (if w.session.rerunSeen then 0 else 1) ≤ 1 := by split <;> omega
    rw [List.length_append] at enough
    simp only [Segment.measure] at lower
    omega
  obtain ⟨w', run, settled⟩ := exec_feedEach obliging settles bound ready
  refine ⟨w', happenings, run, ?_, ?_, ?_⟩
  · rw [settled.rerunSeen, settled.buffer]
    exact settled
  · rw [settled.buffer]
    exact ⟨fun _ mem => settles.pass_ne_nil nonempty mem, settles.flatMap_text⟩
  · intro some
    rw [AtRest, settled.options, settled.rerunSeen, settled.buffer]
    exact Segment.next_eq_wait_iff.mp (settles.next_eq_wait some)

/-- **No text is lost and the loop comes to rest.**  Let the banner of a complete
pass never match the empty text, and let listeners and collector be obliging.  Then
a session that is fed a piece of output, whatever its buffer and flag, ends after
finitely many rounds.  No pass is made of nothing; the texts of the passes in order,
followed by the buffer, are the old buffer followed by the piece; and the buffer is
at rest.  The same holds for any number of pieces, one after the other. -/
theorem feed_conserves_text (obliging : host.Obliging) (ready : w.session.Ready)
    (nonempty : w.session.options.markers.passEnd.NeverEmpty) :
    (∀ (piece : List Char) (rounds : Nat),
      2 * (w.session.buffer ++ piece).length + 1 < rounds →
      ∃ w' happenings, exec (feed host rounds piece) w = (.ok (), w') ∧
        Settled w happenings w'.session.rerunSeen w'.session.buffer w' ∧
        TakesApart happenings w'.session.buffer (w.session.buffer ++ piece) ∧
        w'.session.AtRest) ∧
    (∀ (pieces : List (List Char)) (rounds : Nat),
      2 * (w.session.buffer ++ pieces.flatten).length + 1 < rounds →
      ∃ w' happenings, exec (feedEach host rounds pieces) w = (.ok (), w') ∧
        Settled w happenings w'.session.rerunSeen w'.session.buffer w' ∧
        TakesApart happenings w'.session.buffer (w.session.buffer ++ pieces.flatten) ∧
        (pieces ≠ [] → w'.session.AtRest)) := by
  refine ⟨fun piece rounds enough => ?_, fun pieces rounds enough => ?_⟩
  · obtain ⟨w', happenings, run, settled, apart, rest⟩ :=
      exec_feedEach_takesApart obliging ready nonempty [piece] (by simpa using enough)
    rw [exec_feedEach_singleton] at run
    exact ⟨w', happenings, run, settled, by simpa using apart, rest (by simp)⟩
  · exact exec_feedEach_takesApart obliging ready nonempty pieces enough

/-- A new session with the standard banners is fed two pieces with a banner cut in
half. -/
theorem feed_conserves_text_new :
    ∃ w' happenings, exec (feedEach .quiet 92 [lit "Found 1 error. Watch", lit "ing for\n 2"])
        ⟨new {} ["a.test-d.ts"], [], []⟩ = (.ok (), w') ∧
      Settled ⟨new {} ["a.test-d.ts"], [], []⟩ happenings w'.session.rerunSeen
        w'.session.buffer w' ∧
      TakesApart happenings w'.session.buffer (lit "Found 1 error. Watching for\n 2") ∧
      w'.session.AtRest := by
  obtain ⟨w', happenings, run, settled, apart, rest⟩ :=
    (feed_conserves_text Host.obliging_quiet
      (w := ⟨new {} ["a.test-d.ts"], [], []⟩) (ready_new {} ["a.test-d.ts"] {})
      Markers.neverEmpty_standard).2 [lit "Found 1 error. Watch", lit "ing for\n 2"] 92 (by decide)
  exact ⟨w', happenings, run, settled, apart, rest (by simp)⟩

end Session

end TypeVerdict
