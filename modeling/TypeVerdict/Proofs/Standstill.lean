import TypeVerdict.Proofs.Conservation
import TypeVerdict.Settings.Fields

/-!
# When the marker loop stands still

A marker that is accepted does not match in the empty text.  That is less than never
to match with nothing: a pattern that asks for a place, such as the border of a word,
finds none in the empty text and still takes no character anywhere else.  If such a
pattern completes a pass at the very place where the next pass is announced, the pass
ends where it begins.  Its text is nothing, all of the buffer is left, and the loop is
where it was: it stands still and never ends.

This is the only way not to come to rest.  A pass whose text is not nothing lowers the
measure that `exists_settles` goes by, and an announcement always does.  So there is
an exact condition, for a buffer (`Stalls`) and for a pair of markers
(`Markers.Standstill`).

## Main definitions

* `Markers.Standstill`: a text at whose beginning the loop stands still
* `Stalls`: acting on the markers of a buffer leads to such a text

## Main statements

* `settles_or_stalls`: a buffer comes to rest or stalls
* `Session.exec_drain_of_stalls`: a session with a buffer that stalls uses up any
  number of rounds
* `Session.feed_rests_iff`: exactly when a session with accepted markers comes to rest
-/

namespace TypeVerdict

/-- What is accepted as a marker does not match in the empty text, whatever the language of
patterns is. -/
theorem Settings.occursIn_nil_of_checkPattern {text : String}
    {compile : String → Except Pattern.Error Marker} {marker : Marker}
    (accepted : checkPattern text compile = .ok marker) : marker.occursIn [] = false := by
  unfold checkPattern at accepted
  split at accepted
  · cases accepted
  · split at accepted
    · cases accepted
    · split at accepted
      · cases accepted
      · next m _ none =>
          cases accepted
          simpa using none

/-- **A text at whose beginning the loop stands still**: both banners begin it, that of
a complete pass with nothing. -/
def Markers.Standstill (m : Markers) (text : List Char) : Prop :=
  m.nextPassEnd? text = some (0, 0) ∧ (m.nextRerun? text).map Prod.fst = some 0

instance (m : Markers) (text : List Char) : Decidable (m.Standstill text) :=
  inferInstanceAs (Decidable (_ ∧ _))

namespace Segment

variable {markers : Markers} {flag : Bool} {buffer output left : List Char}

/-- Where the loop stands still, it takes nothing off the buffer. -/
theorem next_of_standstill (h : markers.Standstill buffer) (flag : Bool) :
    next markers flag buffer = .pass [] buffer := by
  obtain ⟨completed, announced⟩ := h
  obtain ⟨⟨start, stop⟩, found, rfl⟩ := Option.map_eq_some_iff.mp announced
  cases flag <;> simp [next, completed, found, cutBehind]

/-- Only there: a pass without a text ends where it begins, because that is the one
place at or behind the end of its banner where no text has come yet. -/
theorem standstill_of_next (accepted : markers.passEnd.occursIn [] = false)
    (h : next markers flag buffer = .pass [] left) : markers.Standstill buffer := by
  rcases next_cases markers flag buffer with
    ⟨h', -⟩ | ⟨h', -⟩ | ⟨start, stop, completed, h', -⟩
  · simp [h] at h'
  · simp [h] at h'
  · -- the banner of a complete pass is found, so there is a text to find it in
    have some : buffer ≠ [] := by
      rintro rfl
      rw [Markers.nextPassEnd?] at completed
      simp [Marker.occursIn, completed] at accepted
    have length := List.length_pos_iff.mpr some
    rw [h, cutBehind] at h'
    split at h'
    · next cut _ found =>
        obtain ⟨nothing, -⟩ := Segment.pass.inj h'
        obtain ⟨behind, -, -⟩ := markers.rerun.search.bounds found
        obtain ⟨-, forward, -⟩ := markers.passEnd.search.bounds completed
        -- nothing is before the cut, which is behind the end of the banner
        have cut_eq : cut = 0 := by
          rcases List.take_eq_nil_iff.mp nothing.symm with zero | empty
          · exact zero
          · exact absurd empty some
        have stop_eq : stop = 0 := by omega
        have start_eq : start = 0 := by omega
        subst cut_eq stop_eq start_eq
        exact ⟨completed, by rw [found]; rfl⟩
    · obtain ⟨nothing, -⟩ := Segment.pass.inj h'
      exact absurd nothing.symm some

/-- Everywhere else a completed pass lowers the measure. -/
theorem measure_lt_of_not_standstill
    (accepted : markers.passEnd.occursIn [] = false)
    (moving : ¬ markers.Standstill buffer)
    (h : next markers flag buffer = .pass output left) :
    measure false left < measure flag buffer := by
  apply measure_lt_of_ne_nil _ h
  rintro rfl
  exact moving (standstill_of_next accepted h)

end Segment

/-- **Acting on the markers of a buffer leads to a standstill.** -/
inductive Stalls (markers : Markers) : Bool → List Char → Prop where
  /-- The loop stands still at once. -/
  | here {flag : Bool} {buffer : List Char} (h : markers.Standstill buffer) :
      Stalls markers flag buffer
  /-- An announcement is acted on before. -/
  | rerun {flag : Bool} {buffer : List Char} (h : Segment.next markers flag buffer = .rerun)
      (rest : Stalls markers true buffer) : Stalls markers flag buffer
  /-- A pass is completed before. -/
  | pass {flag : Bool} {buffer output left : List Char}
      (h : Segment.next markers flag buffer = .pass output left)
      (rest : Stalls markers false left) : Stalls markers flag buffer

/-- A standstill is one of a text that was left over. -/
theorem Stalls.exists_standstill {markers : Markers} {flag : Bool} {buffer : List Char}
    (h : Stalls markers flag buffer) : ∃ text, markers.Standstill text := by
  induction h with
  | here h => exact ⟨_, h⟩
  | rerun _ _ ih => exact ih
  | pass _ _ ih => exact ih

/-- **A buffer comes to rest or stalls**, with any markers that are accepted. -/
theorem settles_or_stalls {markers : Markers}
    (accepted : markers.passEnd.occursIn [] = false) (flag : Bool)
    (buffer : List Char) :
    (∃ happenings flag' buffer', Settles markers flag buffer happenings flag' buffer') ∨
      Stalls markers flag buffer := by
  induction hn : Segment.measure flag buffer using Nat.strongRecOn
    generalizing flag buffer with
  | _ n ih =>
      by_cases still : markers.Standstill buffer
      · exact Or.inr (.here still)
      -- whichever way a round goes, the measure is lower behind it
      cases next : Segment.next markers flag buffer with
      | wait => exact Or.inl ⟨[], flag, buffer, .wait next⟩
      | rerun =>
          have lower : Segment.measure true buffer < n :=
            hn ▸ Segment.measure_lt_of_rerun next
          rcases ih _ lower true buffer rfl with ⟨happenings, flag', buffer', rest⟩ | rest
          · exact Or.inl ⟨.rerun :: happenings, flag', buffer', .rerun next rest⟩
          · exact Or.inr (.rerun next rest)
      | pass output left =>
          have lower : Segment.measure false left < n :=
            hn ▸ Segment.measure_lt_of_not_standstill accepted still next
          rcases ih _ lower false left rfl with ⟨happenings, flag', buffer', rest⟩ | rest
          · exact Or.inl ⟨.pass output :: happenings, flag', buffer', .pass next rest⟩
          · exact Or.inr (.pass next rest)

namespace Session

open Text

variable {host : Host} {w : World} {markers : Markers}

/-- **A buffer that stalls uses up any number of rounds.** -/
theorem exec_drain_of_stalls (obliging : host.Obliging) {flag : Bool} {buffer : List Char}
    (h : Stalls markers flag buffer) (rounds : Nat) (ready : w.session.Ready)
    (hmarkers : w.session.options.markers = markers) (hflag : w.session.rerunSeen = flag)
    (hbuffer : w.session.buffer = buffer) :
    ∃ w', exec (drain host rounds) w = (.error .outOfRounds, w') := by
  -- behind every round the buffer still stalls
  induction rounds generalizing w flag buffer with
  | zero => exact ⟨w, rfl⟩
  | succ rounds ih =>
      subst hmarkers hflag hbuffer
      have again : ∀ {w₁ happenings flag left}, Settled w happenings flag left w₁ →
          Stalls w.session.options.markers flag left →
          ∃ w', exec (drain host rounds) w₁ = (.error .outOfRounds, w') :=
        fun settled rest => ih rest settled.ready (by rw [settled.options]) settled.rerunSeen
          settled.buffer
      cases h with
      | here still =>
          obtain ⟨w₁, round, settled⟩ :=
            exec_drain_pass obliging ready (Segment.next_of_standstill still _) rounds
          rw [round]
          exact again settled (.here still)
      | rerun next rest =>
          obtain ⟨w₁, round, settled⟩ := exec_drain_rerun obliging ready next rounds
          rw [round]
          exact again settled rest
      | pass next rest =>
          obtain ⟨w₁, round, settled⟩ := exec_drain_pass obliging ready next rounds
          rw [round]
          exact again settled rest

/-- A piece of output that makes the buffer stall is never done with. -/
theorem exec_feed_of_stalls (obliging : host.Obliging) (ready : w.session.Ready)
    {piece : List Char} (h : Stalls w.session.options.markers w.session.rerunSeen
      (w.session.buffer ++ piece)) (rounds : Nat) :
    ∃ w', exec (feed host rounds piece) w = (.error .outOfRounds, w') := by
  obtain ⟨w', run⟩ := exec_drain_of_stalls obliging
    (w := { w with session := { w.session with buffer := w.session.buffer ++ piece } })
    h rounds ⟨ready.isOpen, ready.named, ready.proper⟩ rfl rfl rfl
  refine ⟨w', ?_⟩
  rw [feed, exec_bind_ok (exec_update _ w)]
  exact run

/-- A session is done with a piece of output after finitely many rounds. -/
def Rests (host : Host) (w : World) (piece : List Char) : Prop :=
  ∃ bound, ∀ rounds, bound < rounds → ∃ w', exec (feed host rounds piece) w = (.ok (), w')

/-- **Exactly when a session with accepted markers comes to rest.**  Let listeners and
collector be obliging.  Then a session is done with a piece of output after finitely
many rounds if and only if the buffer with the piece does not stall.  And no buffer
stalls, with either flag, if and only if there is no text that both banners begin, that
of a complete pass with nothing.  This is so in every language of patterns. -/
theorem feed_rests_iff {compile : String → Except Pattern.Error Marker}
    {rerunText passEndText : String}
    (rerun : Settings.checkPattern rerunText compile = .ok markers.rerun)
    (passEnd : Settings.checkPattern passEndText compile = .ok markers.passEnd) :
    (∀ (host : Host) (w : World) (piece : List Char), host.Obliging → w.session.Ready →
      w.session.options.markers = markers →
      (Rests host w piece ↔
        ¬ Stalls markers w.session.rerunSeen (w.session.buffer ++ piece))) ∧
    ((∀ flag buffer, ¬ Stalls markers flag buffer) ↔ ∀ text, ¬ markers.Standstill text) := by
  have accepted := Settings.occursIn_nil_of_checkPattern passEnd
  refine ⟨?_, ?_⟩
  · rintro host w piece obliging ready rfl
    constructor
    · rintro ⟨bound, rests⟩ stalls
      obtain ⟨w', run⟩ := rests (bound + 1) (Nat.lt_succ_self bound)
      obtain ⟨w'', run'⟩ := exec_feed_of_stalls obliging ready stalls (bound + 1)
      rw [run] at run'
      cases run'
    · intro moving
      rcases settles_or_stalls accepted w.session.rerunSeen (w.session.buffer ++ piece) with
        ⟨happenings, flag', buffer', settles⟩ | stalls
      · refine ⟨happenings.length, fun rounds enough => ?_⟩
        obtain ⟨w', run, -⟩ := exec_feed obliging settles enough ready
        exact ⟨w', run⟩
      · exact absurd stalls moving
  · constructor
    · exact fun moving text still => moving false text (.here still)
    · intro moving flag buffer stalls
      obtain ⟨text, still⟩ := stalls.exists_standstill
      exact moving text still

/-- The banners of the standard checker are accepted, and a session with them comes to
rest. -/
theorem feed_rests_iff_standard :
    Settings.checkPattern Markers.rerunText = .ok Markers.standard.rerun ∧
    Settings.checkPattern Markers.passEndText = .ok Markers.standard.passEnd ∧
    (∀ text, ¬ Markers.standard.Standstill text) ∧
    Rests .quiet ⟨new { watch := true } [], [], []⟩ (lit "Found 1 error. Watching for") := by
  have rerun : Settings.checkPattern Markers.rerunText = .ok Markers.standard.rerun := by rfl
  have passEnd : Settings.checkPattern Markers.passEndText = .ok Markers.standard.passEnd := by
    rfl
  have moving : ∀ text, ¬ Markers.standard.Standstill text := by
    rintro text ⟨completed, -⟩
    exact absurd (Markers.neverEmpty_standard _ _ _ _ completed) (Nat.lt_irrefl 0)
  obtain ⟨each, all⟩ := feed_rests_iff rerun passEnd
  exact ⟨rerun, passEnd, moving, (each .quiet _ _ Host.obliging_quiet (ready_new _ _ _) rfl).mpr
    (all.mpr moving _ _)⟩

/-- The markers of two texts that are both accepted: a letter announces a pass, and the
border of a word completes one. -/
def bordering : Markers where
  rerun := ⟨"a", .ofPattern (.char 'a')⟩
  passEnd := ⟨"\\b", .ofPattern (.anchor .boundary)⟩

/-- **Accepted markers need not let the loop end.**  A session with these markers that is
fed a single word is never done. -/
theorem not_rests_bordering :
    Settings.checkPattern "a" = .ok bordering.rerun ∧
    Settings.checkPattern "\\b" = .ok bordering.passEnd ∧
    ∀ rounds, ∃ w', exec (feed .quiet rounds (lit "ab"))
      ⟨new { watch := true, markers := bordering } [], [], []⟩ = (.error .outOfRounds, w') :=
  ⟨by rfl, by rfl, exec_feed_of_stalls Host.obliging_quiet (ready_new _ _ _)
    (.here (by decide +kernel))⟩

end Session

end TypeVerdict
