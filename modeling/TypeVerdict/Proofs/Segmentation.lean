import Mathlib.Data.List.Destutter
import Mathlib.Data.List.TakeWhile
import TypeVerdict.Proofs.Marks
import TypeVerdict.Proofs.Settling

/-!
# The marks of a buffer decide what happens

The marker loop searches its buffer again in every round, and every completed pass
shortens the buffer.  What comes of it can be read off the marks of the whole buffer
in one pass from left to right: `tokenize`.  A run of marks of one banner counts
once, a leading run of announcements does not count if one has been acted on before,
and the text of a pass reaches up to the next announcement.

The loop is tied to this reading by one lemma on what a buffer calls for next
(`next_of_passEnd`, `next_of_rerun`, `next_of_wait`), stated for the rest of a text
from some place on.  The marks behind that place are all that the loop can see.

## Main definitions

* `leaders`: the first mark of each run
* `acted`: the marks that are acted on
* `tokenize`: what a buffer comes to

## Main statements

* `settles_marksBehind`: the loop on the rest of a text
* `Session.feed_eq_tokenize`: a session that is fed does what `tokenize` says
-/

namespace TypeVerdict

/-! ### The reference reading -/

/-- Two marks are of different banners. -/
def Mark.Differs (m m' : Mark) : Prop := m.banner ≠ m'.banner

instance : DecidableRel Mark.Differs := fun m m' =>
  inferInstanceAs (Decidable (m.banner ≠ m'.banner))

/-- The first mark of each run of marks of one banner. -/
def leaders (ms : List Mark) : List Mark := ms.destutter Mark.Differs

/-- The marks that are acted on: of each run the first, and none of a leading run of
announcements if an announcement has been acted on before. -/
def acted (flag : Bool) (ms : List Mark) : List Mark :=
  leaders (if flag then ms.dropWhile (·.banner = .rerun) else ms)

/-- Where the text of a pass ends, given the marks behind its own: where the next
announcement begins, or at the end. -/
def nextCut (s : List Char) (more : List Mark) : Nat :=
  ((firstOf .rerun more).map Mark.start).getD s.length

/-- What happens if some marks are acted on, with the texts of the passes cut from a
place on. -/
def happeningsFrom (s : List Char) (cut : Nat) : List Mark → List Happening
  | [] => []
  | m :: more => match m.banner with
    | .rerun => .rerun :: happeningsFrom s cut more
    | .passEnd => .pass (s.extract cut (nextCut s more)) :: happeningsFrom s (nextCut s more) more

/-- The last place where the text is cut. -/
def lastCut (s : List Char) (cut : Nat) : List Mark → Nat
  | [] => cut
  | m :: more => match m.banner with
    | .rerun => lastCut s cut more
    | .passEnd => lastCut s (nextCut s more) more

/-- Whether an announcement has been acted on since the last complete pass: the last
mark decides, if there is one. -/
def flagBehind (flag : Bool) (ms : List Mark) : Bool :=
  match ms.getLast? with
  | none => flag
  | some m => m.banner = .rerun

/-- What a buffer comes to. -/
structure Tokens where
  happenings : List Happening
  flag : Bool
  rest : List Char
deriving DecidableEq, Repr

/-- **The reference reading of a buffer**, from left to right. -/
def tokenize (flag : Bool) (s : List Char) : Tokens where
  happenings := happeningsFrom s 0 (acted flag (marks s))
  flag := flagBehind flag (marks s)
  rest := s.drop (lastCut s 0 (acted flag (marks s)))

/-! ### Runs -/

/-- The first mark stands for all marks of its run. -/
theorem leaders_cons (m : Mark) (ms : List Mark) :
    leaders (m :: ms) = m :: leaders (ms.dropWhile (·.banner = m.banner)) := by
  rw [leaders, List.destutter_cons']
  induction ms with
  | nil => rfl
  | cons m' ms ih =>
      by_cases same : m'.banner = m.banner
      · rw [List.destutter'_cons_neg _ (not_not_intro same.symm), ih]
        simp [same]
      · have differs : m.Differs m' := Ne.symm same
        rw [List.destutter'_cons_pos _ differs]
        simp [same, leaders, List.destutter_cons']

theorem leaders_eq_nil {ms : List Mark} : leaders ms = [] ↔ ms = [] := List.destutter_eq_nil _

theorem firstOf_cons (b : Banner) (m : Mark) (ms : List Mark) :
    firstOf b (m :: ms) = if m.banner = b then some m else firstOf b ms := by
  rw [firstOf, List.find?_cons]
  split <;> simp_all [firstOf]

/-- The first mark of a banner is behind all runs of the other. -/
theorem firstOf_dropWhile {b b' : Banner} (other : b' ≠ b) (ms : List Mark) :
    firstOf b (ms.dropWhile (·.banner = b')) = firstOf b ms := by
  induction ms with
  | nil => rfl
  | cons m ms ih =>
      by_cases same : m.banner = b'
      · simp [same, ih, firstOf_cons, other]
      · simp [same]

/-- The first mark of a banner is the first of its run. -/
theorem firstOf_leaders (b : Banner) (ms : List Mark) :
    firstOf b (leaders ms) = firstOf b ms := by
  induction hn : ms.length using Nat.strongRecOn generalizing ms with
  | _ n ih =>
      cases ms with
      | nil => rfl
      | cons m ms =>
          rw [leaders_cons, firstOf_cons, firstOf_cons]
          split
          · rfl
          · next other =>
              have shorter := (List.dropWhile_sublist (fun x : Mark =>
                decide (x.banner = m.banner)) (l := ms)).length_le
              rw [List.length_cons] at hn
              rw [ih _ (by omega) _ rfl, firstOf_dropWhile other]

/-! ### The marks behind a place -/

/-- The marks of a text that begin at or behind a place. -/
def marksBehind (s : List Char) (n : Nat) : List Mark := (marks s).filter (n ≤ ·.start)

theorem marksBehind_zero (s : List Char) : marksBehind s 0 = marks s := by
  simp [marksBehind]

theorem mem_marksBehind {s : List Char} {n : Nat} {m : Mark} :
    m ∈ marksBehind s n ↔ m.In s ∧ n ≤ m.start := by
  rw [marksBehind, List.mem_filter, mem_marks, decide_eq_true_iff]

theorem pairwise_marksBehind (s : List Char) (n : Nat) :
    (marksBehind s n).Pairwise Mark.Before := (pairwise_marks s).filter _

/-- A text has no marks behind its end. -/
theorem marksBehind_length (s : List Char) : marksBehind s s.length = [] := by
  refine List.eq_nil_iff_forall_not_mem.mpr fun m mem => ?_
  obtain ⟨stands, behind⟩ := mem_marksBehind.mp mem
  exact absurd (Nat.lt_of_lt_of_le m.start_lt_stop stands.stop_le) (Nat.not_lt.mpr behind)

section Split

variable {s : List Char} {n : Nat} {before behind : List Mark} {m : Mark}

theorem before_of_marksBehind (split : marksBehind s n = before ++ m :: behind) :
    (∀ m' ∈ before, m'.Before m) ∧ ∀ m' ∈ behind, m.Before m' := by
  have ordered := pairwise_marksBehind s n
  rw [split, List.pairwise_append, List.pairwise_cons] at ordered
  exact ⟨fun m' mem => ordered.2.2 m' mem m List.mem_cons_self, ordered.2.1.1⟩

/-- The marks behind a place that lies between two marks. -/
theorem marksBehind_of_split (split : marksBehind s n = before ++ behind) {k : Nat}
    (farther : n ≤ k) (left : ∀ m ∈ before, m.start < k) (right : ∀ m ∈ behind, k ≤ m.start) :
    marksBehind s k = behind := by
  have again : marksBehind s k = (marksBehind s n).filter (k ≤ ·.start) := by
    rw [marksBehind, marksBehind, List.filter_filter]
    refine List.filter_congr fun m _ => ?_
    rw [Bool.eq_iff_iff]
    simp
    omega
  rw [again, split, List.filter_append, List.filter_eq_nil_iff.mpr, List.filter_eq_self.mpr,
    List.nil_append]
  · simpa using right
  · simpa using left

/-- The marks that begin behind the end of a mark. -/
theorem marksBehind_stop (split : marksBehind s n = before ++ m :: behind) :
    marksBehind s m.stop = behind := by
  obtain ⟨left, right⟩ := before_of_marksBehind split
  have here : m ∈ marksBehind s n := split ▸ List.mem_append_right _ List.mem_cons_self
  have pos := m.start_lt_stop
  have split' : marksBehind s n = (before ++ [m]) ++ behind := by
    rw [split, List.append_assoc, List.singleton_append]
  refine marksBehind_of_split split'
    (Nat.le_of_lt (Nat.lt_of_le_of_lt (mem_marksBehind.mp here).2 pos)) ?_ right
  intro m' mem
  have pos' := m'.start_lt_stop
  rcases List.mem_append.mp mem with mem | mem
  · have order := left m' mem
    rw [Mark.Before] at order
    omega
  · rw [List.mem_singleton.mp mem]
    exact pos

/-- The marks from the beginning of a mark on. -/
theorem marksBehind_start (split : marksBehind s n = before ++ m :: behind) :
    marksBehind s m.start = m :: behind := by
  obtain ⟨left, right⟩ := before_of_marksBehind split
  have here : m ∈ marksBehind s n := split ▸ List.mem_append_right _ List.mem_cons_self
  refine marksBehind_of_split split (mem_marksBehind.mp here).2 ?_ ?_
  · exact fun m' mem => Nat.lt_of_lt_of_le m'.start_lt_stop (left m' mem)
  · intro m' mem
    rcases List.mem_cons.mp mem with rfl | mem
    · exact Nat.le_refl _
    · exact Nat.le_of_lt (Nat.lt_of_lt_of_le m.start_lt_stop (right m' mem))

/-! ### What the rest of a text calls for -/

theorem nextRerun?_drop {offset : Nat} (inside : n + offset ≤ s.length) :
    Markers.standard.nextRerun? (s.drop n) offset =
      (firstOf .rerun (marksBehind s (n + offset))).map fun m => (m.start - n, m.stop - n) :=
  find_drop .rerun inside

theorem nextPassEnd?_drop (inside : n ≤ s.length) :
    Markers.standard.nextPassEnd? (s.drop n) =
      (firstOf .passEnd (marksBehind s n)).map fun m => (m.start - n, m.stop - n) :=
  find_drop .passEnd inside

theorem firstOf_eq_none {b : Banner} {ms : List Mark} (h : ∀ m ∈ ms, m.banner ≠ b) :
    firstOf b ms = none := by
  rw [firstOf, List.find?_eq_none]
  simpa using h

/-- A text calls for nothing more if it has no mark, or only announcements after one
has been acted on. -/
theorem next_of_wait {flag : Bool} (inside : n ≤ s.length)
    (idle : ∀ m ∈ marksBehind s n, flag = true ∧ m.banner = .rerun) :
    Segment.next .standard flag (s.drop n) = .wait := by
  have noPassEnd : firstOf .passEnd (marksBehind s n) = none :=
    firstOf_eq_none fun m mem => by rw [(idle m mem).2]; decide
  have noRerun : flag = false → firstOf .rerun (marksBehind s n) = none := by
    rintro rfl
    exact firstOf_eq_none fun m mem => absurd (idle m mem).1 (by decide)
  rw [Segment.next, nextPassEnd?_drop inside, nextRerun?_drop inside, noPassEnd]
  cases flag with
  | true => rfl
  | false =>
      rw [Nat.add_zero, noRerun rfl]
      rfl

/-- The first mark is an announcement, and none has been acted on before. -/
theorem next_of_rerun (inside : n ≤ s.length) (split : marksBehind s n = m :: behind)
    (rerun : m.banner = .rerun) : Segment.next .standard false (s.drop n) = .rerun := by
  have split' : marksBehind s n = [] ++ m :: behind := split
  have right := (before_of_marksBehind split').2
  rw [Segment.next, nextPassEnd?_drop inside, nextRerun?_drop inside, Nat.add_zero, split,
    firstOf_cons, firstOf_cons, if_pos rerun, rerun]
  cases passEnd? : firstOf .passEnd behind with
  | none => rfl
  | some m' =>
      have order := right m' (List.mem_of_find?_eq_some passEnd?)
      have here := (mem_marksBehind.mp (split ▸ List.mem_cons_self : m ∈ marksBehind s n)).2
      have pos := m.start_lt_stop
      rw [Mark.Before] at order
      show (if m.start - n < m'.start - n then _ else _) = _
      rw [if_pos (by omega)]

/-- The first mark, apart from announcements that do not count, completes a pass. -/
theorem next_of_passEnd {flag : Bool} (inside : n ≤ s.length)
    (split : marksBehind s n = before ++ m :: behind)
    (skipped : ∀ m' ∈ before, flag = true ∧ m'.banner = .rerun) (passEnd : m.banner = .passEnd) :
    Segment.next .standard flag (s.drop n) =
      .pass (s.extract n (nextCut s behind)) (s.drop (nextCut s behind)) := by
  obtain ⟨left, right⟩ := before_of_marksBehind split
  obtain ⟨stands, here⟩ := mem_marksBehind.mp
    (split ▸ List.mem_append_right _ List.mem_cons_self : m ∈ marksBehind s n)
  have pos := m.start_lt_stop
  have stop := stands.stop_le
  have completed : Markers.standard.nextPassEnd? (s.drop n) =
      some (m.start - n, m.stop - n) := by
    have none : firstOf .passEnd before = none :=
      firstOf_eq_none fun m' mem => by rw [(skipped m' mem).2]; decide
    rw [nextPassEnd?_drop inside, split, firstOf_append, none, firstOf_cons, if_pos passEnd]
    rfl
  have cut : Segment.cutBehind .standard (s.drop n) (m.stop - n) =
      .pass (s.extract n (nextCut s behind)) (s.drop (nextCut s behind)) := by
    have place : n + (m.stop - n) = m.stop := by omega
    rw [Segment.cutBehind, nextRerun?_drop (by omega), place, marksBehind_stop split, nextCut]
    cases rerun? : firstOf .rerun behind with
    | none =>
        simp only [Option.map_none, Option.getD_none, List.extract_eq_take_drop, List.drop_length]
        rw [List.take_of_length_le (Nat.le_of_eq List.length_drop)]
    | some r =>
        have order := right r (List.mem_of_find?_eq_some rerun?)
        rw [Mark.Before] at order
        simp only [Option.map_some, Option.getD_some, List.extract_eq_take_drop, List.drop_drop]
        congr 2
        omega
  rw [Segment.next, completed]
  cases flag with
  | true => exact cut
  | false =>
      -- no announcement is skipped, so the first one, if any, is behind
      have none : before = [] := List.eq_nil_iff_forall_not_mem.mpr fun m' mem =>
        absurd (skipped m' mem).1 (by decide)
      subst none
      rw [nextRerun?_drop inside, Nat.add_zero, split, List.nil_append, firstOf_cons, passEnd]
      cases rerun? : firstOf .rerun behind with
      | none => exact cut
      | some r =>
          have order := right r (List.mem_of_find?_eq_some rerun?)
          rw [Mark.Before] at order
          show (if r.start - n < m.start - n then _ else _) = _
          rw [if_neg (by omega), cut]

/-- Behind the place where the text of a pass ends, the first mark is the next
announcement. -/
theorem marksBehind_nextCut (split : marksBehind s n = before ++ m :: behind) :
    marksBehind s (nextCut s behind) = behind.dropWhile (·.banner = .passEnd) := by
  have first : firstOf .rerun (behind.dropWhile (·.banner = .passEnd)) =
      firstOf .rerun behind := firstOf_dropWhile (by decide) behind
  have whole := List.takeWhile_append_dropWhile (p := (·.banner = .passEnd)) (l := behind)
  rw [nextCut, ← first]
  cases rest : behind.dropWhile (·.banner = .passEnd) with
  | nil => exact marksBehind_length s
  | cons r more =>
      have rerun : r.banner = .rerun := by
        have other := List.head?_dropWhile_not (·.banner = .passEnd) behind
        rw [rest] at other
        cases banner : r.banner with
        | rerun => rfl
        | passEnd => simp [banner] at other
      rw [firstOf_cons, if_pos rerun]
      rw [rest] at whole
      have split' : marksBehind s n =
          (before ++ m :: behind.takeWhile (·.banner = .passEnd)) ++ r :: more := by
        rw [split, List.append_assoc, List.cons_append, whole]
      exact marksBehind_start split'

theorem nextCut_le (split : marksBehind s n = before ++ m :: behind) :
    nextCut s behind ≤ s.length := by
  rw [nextCut]
  cases rerun? : firstOf .rerun behind with
  | none => exact Nat.le_refl _
  | some r =>
      have mem : r ∈ marksBehind s n :=
        split ▸ List.mem_append_right _ (List.mem_cons_of_mem _ (List.mem_of_find?_eq_some rerun?))
      exact Nat.le_trans (Nat.le_of_lt r.start_lt_stop) (mem_marksBehind.mp mem).1.stop_le

end Split

/-! ### The marks that are acted on -/

theorem acted_eq_nil {flag : Bool} {ms : List Mark} (h : acted flag ms = []) :
    ∀ m ∈ ms, flag = true ∧ m.banner = .rerun := by
  rw [acted, leaders_eq_nil] at h
  cases flag with
  | true =>
      rw [if_pos rfl, List.dropWhile_eq_nil_iff] at h
      exact fun m mem => ⟨rfl, by simpa using h m mem⟩
  | false =>
      rw [if_neg (by decide)] at h
      simp [h]

/-- The first mark that is acted on has only announcements that do not count before it,
and stands for its whole run. -/
theorem acted_eq_cons {flag : Bool} {ms more : List Mark} {m : Mark}
    (h : acted flag ms = m :: more) :
    ∃ before behind, ms = before ++ m :: behind ∧
      (∀ m' ∈ before, flag = true ∧ m'.banner = .rerun) ∧
      (m.banner = .rerun → flag = false ∧ before = []) ∧
      more = leaders (behind.dropWhile (·.banner = m.banner)) := by
  have inv : ∀ {ms' : List Mark}, leaders ms' = m :: more →
      ∃ behind, ms' = m :: behind ∧ more = leaders (behind.dropWhile (·.banner = m.banner)) := by
    intro ms' h
    cases ms' with
    | nil => cases h
    | cons m' behind =>
        rw [leaders_cons, List.cons.injEq] at h
        obtain ⟨rfl, rfl⟩ := h
        exact ⟨behind, rfl, rfl⟩
  rw [acted] at h
  obtain ⟨behind, rest, rfl⟩ := inv h
  cases flag with
  | true =>
      rw [if_pos rfl] at rest
      refine ⟨ms.takeWhile (·.banner = .rerun), behind, ?_, fun m' mem => ⟨rfl, ?_⟩, ?_, rfl⟩
      · rw [← rest, List.takeWhile_append_dropWhile]
      · simpa using List.all_eq_true.mp List.all_takeWhile m' mem
      · have other := List.head?_dropWhile_not (·.banner = .rerun) ms
        rw [rest] at other
        intro rerun
        simp [rerun] at other
  | false =>
      rw [if_neg (by decide)] at rest
      exact ⟨[], behind, rest, by simp, fun _ => ⟨rfl, rfl⟩, rfl⟩

theorem nextCut_leaders (s : List Char) (ms : List Mark) :
    nextCut s (leaders (ms.dropWhile (·.banner = .passEnd))) = nextCut s ms := by
  rw [nextCut, firstOf_leaders, firstOf_dropWhile (by decide), nextCut]

/-- If there is a mark, the flag before it does not matter. -/
theorem flagBehind_cons (flag flag' : Bool) (m : Mark) (ms : List Mark) :
    flagBehind flag (m :: ms) = flagBehind flag' (m :: ms) := by
  rw [flagBehind, flagBehind, List.getLast?_cons]

/-- A completed pass clears the flag until the next announcement. -/
theorem flagBehind_passEnd (flag : Bool) (before behind : List Mark) {m : Mark}
    (passEnd : m.banner = .passEnd) :
    flagBehind flag (before ++ m :: behind) =
      flagBehind false (behind.dropWhile (·.banner = .passEnd)) := by
  have whole := List.takeWhile_append_dropWhile (p := (·.banner = .passEnd)) (l := behind)
  have run : ∀ m' ∈ m :: behind.takeWhile (·.banner = .passEnd), m'.banner = .passEnd := by
    intro m' mem
    rcases List.mem_cons.mp mem with rfl | mem
    · exact passEnd
    · simpa using List.all_eq_true.mp List.all_takeWhile m' mem
  have split : before ++ m :: behind = before ++ (m :: behind.takeWhile (·.banner = .passEnd)) ++
      behind.dropWhile (·.banner = .passEnd) := by
    rw [List.append_assoc, List.cons_append, whole]
  rw [split]
  cases rest : behind.dropWhile (·.banner = .passEnd) with
  | cons r more =>
      rw [flagBehind, flagBehind, List.getLast?_append, List.getLast?_cons, Option.some_or]
  | nil =>
      obtain ⟨m', last⟩ : ∃ m', (m :: behind.takeWhile (·.banner = .passEnd)).getLast? = some m' :=
        ⟨_, List.getLast?_cons⟩
      rw [List.append_nil, flagBehind, List.getLast?_append, last]
      have banner := run m' (List.mem_of_getLast? last)
      simp [banner, flagBehind]

theorem flagBehind_idle {flag : Bool} {ms : List Mark}
    (idle : ∀ m ∈ ms, flag = true ∧ m.banner = .rerun) : flagBehind flag ms = flag := by
  rw [flagBehind]
  cases last : ms.getLast? with
  | none => rfl
  | some m =>
      obtain ⟨rfl, rerun⟩ := idle m (List.mem_of_getLast? last)
      simp [rerun]

/-! ### The loop -/

/-- **The loop on the rest of a text** does what the marks behind its beginning say.
The induction is on the marks that are acted on: one for every round. -/
theorem settles_marksBehind (s : List Char) (flag : Bool) {n : Nat} (inside : n ≤ s.length) :
    Settles .standard flag (s.drop n)
      (happeningsFrom s n (acted flag (marksBehind s n)))
      (flagBehind flag (marksBehind s n))
      (s.drop (lastCut s n (acted flag (marksBehind s n)))) := by
  induction todo : acted flag (marksBehind s n) generalizing flag n with
  | nil =>
      have idle := acted_eq_nil todo
      rw [flagBehind_idle idle]
      exact .wait (next_of_wait inside idle)
  | cons m more ih =>
      obtain ⟨before, behind, split, skipped, counts, rfl⟩ := acted_eq_cons todo
      cases banner : m.banner with
      | rerun =>
          -- the marks behind the place stay, and the flag hides the run from now on
          obtain ⟨rfl, rfl⟩ := counts banner
          have again : acted true (marksBehind s n) =
              leaders (behind.dropWhile (·.banner = m.banner)) := by
            rw [split, acted]
            simp [banner]
          have rest := ih true inside again
          simp only [happeningsFrom, lastCut, banner] at rest ⊢
          refine .rerun (next_of_rerun inside split banner) ?_
          rw [split] at rest ⊢
          rw [List.nil_append, flagBehind_cons false true]
          exact rest
      | passEnd =>
          -- the cut leaves exactly the runs behind this one
          have behindCut := marksBehind_nextCut split
          have again : acted false (marksBehind s (nextCut s behind)) =
              leaders (behind.dropWhile (·.banner = m.banner)) := by
            rw [behindCut, acted, banner]
            simp
          have rest := ih false (nextCut_le split) again
          simp only [happeningsFrom, lastCut, banner, nextCut_leaders] at rest ⊢
          refine .pass (next_of_passEnd inside split skipped banner) ?_
          rw [split, flagBehind_passEnd flag before behind banner]
          rw [behindCut] at rest
          exact rest

/-- **The loop does what the reference reading says.** -/
theorem settles_tokenize (flag : Bool) (s : List Char) :
    Settles .standard flag s (tokenize flag s).happenings (tokenize flag s).flag
      (tokenize flag s).rest := by
  have loop := settles_marksBehind s flag (Nat.zero_le _)
  rw [marksBehind_zero, List.drop_zero] at loop
  exact loop

theorem length_happeningsFrom (s : List Char) (cut : Nat) (ms : List Mark) :
    (happeningsFrom s cut ms).length = ms.length := by
  induction ms generalizing cut with
  | nil => rfl
  | cons m ms ih =>
      rw [happeningsFrom]
      split <;> simp [ih]

/-- There are no more happenings than marks. -/
theorem length_tokenize_le (flag : Bool) (s : List Char) :
    (tokenize flag s).happenings.length ≤ (marks s).length := by
  rw [tokenize, length_happeningsFrom, acted]
  refine Nat.le_trans (List.destutter_sublist _ _).length_le ?_
  split
  · exact (List.dropWhile_sublist _).length_le
  · exact Nat.le_refl _

namespace Session

open Text

variable {host : Host} {w : World}

/-- **A session that is fed does what the reference reading of its buffer says.**  Let
the banners be the standard ones, and let listeners and collector be obliging.  Then a
piece of output is acted on within one round more than there are marks in the buffer
with the piece appended, and this text, read from left to right, gives everything: the
announcements and passes with their texts, in order, each told to the listeners, and the
flag and the buffer that are left. -/
theorem feed_eq_tokenize (obliging : host.Obliging) (ready : w.session.Ready)
    (standard : w.session.options.markers = .standard) (piece : List Char) {rounds : Nat}
    (enough : (marks (w.session.buffer ++ piece)).length < rounds) :
    ∃ w', exec (feed host rounds piece) w = (.ok (), w') ∧
      Settled w (tokenize w.session.rerunSeen (w.session.buffer ++ piece)).happenings
        (tokenize w.session.rerunSeen (w.session.buffer ++ piece)).flag
        (tokenize w.session.rerunSeen (w.session.buffer ++ piece)).rest w' := by
  have settles := settles_tokenize w.session.rerunSeen (w.session.buffer ++ piece)
  rw [← standard] at settles
  exact exec_feed obliging settles
    (Nat.lt_of_le_of_lt (length_tokenize_le _ _) enough) ready

/-- A session that has acted on an announcement, and holds the beginning of another one in
its buffer. -/
def resumed : World where
  session := { new {} ["a.test-d.ts"] { published? := some "end", rerun? := some "rerun" } with
    buffer := lit "File change det"
    rerunSeen := true }

/-- The announcement in the buffer does not count again, the pass reaches up to the next
one, and the beginning of a third stays in the buffer.  Both listeners are called. -/
theorem feed_eq_tokenize_resumed :
    ∃ w' snapshot, exec (feed .quiet 4
        (lit "ected\nFound 1 error. Watching for\nFile change detected\nFile ch")) resumed =
          (.ok (), w') ∧
      Settled resumed
        [.pass (lit "File change detected\nFound 1 error. Watching for\n"), .rerun] true
        (lit "File change detected\nFile ch") w' ∧
      calls w'.log = [.notify "end" (.published snapshot), .notify "rerun" .rerun] := by
  have ready := ready_new {} ["a.test-d.ts"] { published? := some "end", rerun? := some "rerun" }
  have enough : (marks (resumed.session.buffer ++ lit
      "ected\nFound 1 error. Watching for\nFile change detected\nFile ch")).length < 4 := by
    decide +kernel
  have tokens : tokenize resumed.session.rerunSeen (resumed.session.buffer ++ lit
      "ected\nFound 1 error. Watching for\nFile change detected\nFile ch") =
        ⟨[.pass (lit "File change detected\nFound 1 error. Watching for\n"), .rerun], true,
          lit "File change detected\nFile ch"⟩ := by
    decide +kernel
  obtain ⟨w', run, settled⟩ := feed_eq_tokenize Host.obliging_quiet
    ⟨ready.isOpen, ready.named, ready.proper⟩ rfl _ enough
  rw [tokens] at settled
  obtain ⟨added, -, recounts, called⟩ := settled.course
  cases recounts with
  | pass _ snapshot more =>
      cases more with
      | rerun more =>
          cases more
          exact ⟨w', snapshot, run, settled, called⟩

end Session

end TypeVerdict
