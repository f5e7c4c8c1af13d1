import Mathlib.Data.List.Chain
import TypeVerdict.Proofs.Segmentation

/-!
# Output in pieces

The output of a watching checker arrives in pieces, and a piece may end inside a
banner.  What is left of the buffer when a piece has been acted on is the only memory
between pieces.  A completed pass takes the rest of the buffer with it if no
announcement begins there yet; if the beginning of one is there but not its end, the
beginning is gone, and the announcement is never seen.

This is the only way for a banner to get lost.  In a text whose banners alternate, a
session that reads it piece by piece tells of every banner except the announcements
that a read swallows: those inside which a read ends that completes a pass.

## Main definitions

* `Swallows`: a read swallows an announcement
* `Reading`: where a session stands between two pieces

## Main statements

* `Reading.next`: what a read acts on, and what it leaves
* `Session.told_feedEach`: everything is told but what a read swallows
* `Session.told_feedEach_eq_iff`: pieces tell the same as the whole text exactly if no
  read swallows an announcement
-/

namespace TypeVerdict

/-! ### Reads -/

/-- A read of a text from one place to another swallows an announcement: it ends inside
the announcement and completes a pass. -/
def Swallows (s : List Char) (read : Nat × Nat) (m : Mark) : Prop :=
  m.banner = .rerun ∧ m.start < read.2 ∧ read.2 < m.stop ∧
    ∃ c ∈ marks s, c.banner = .passEnd ∧ read.1 < c.stop ∧ c.stop ≤ read.2

instance (s : List Char) (read : Nat × Nat) (m : Mark) : Decidable (Swallows s read m) :=
  inferInstanceAs (Decidable (_ ∧ _ ∧ _ ∧ ∃ c ∈ marks s, _))

/-- From where to where pieces are read, the first one from a place on. -/
def readsFrom (n : Nat) : List (List Char) → List (Nat × Nat)
  | [] => []
  | piece :: pieces => (n, n + piece.length) :: readsFrom (n + piece.length) pieces

theorem le_of_mem_readsFrom {n : Nat} {pieces : List (List Char)} {read : Nat × Nat}
    (mem : read ∈ readsFrom n pieces) : n ≤ read.2 := by
  induction pieces generalizing n with
  | nil => cases mem
  | cons piece pieces ih =>
      rcases List.mem_cons.mp mem with rfl | mem
      · exact Nat.le_add_right _ _
      · exact Nat.le_trans (Nat.le_add_right _ _) (ih mem)

/-! ### Between two pieces -/

/-- The marks of a text that a session has not seen the end of, apart from what was cut
off the buffer. -/
def coming (s : List Char) (n cut : Nat) : List Mark :=
  (marksBehind s cut).filter (n < ·.stop)

/-- **Where a session stands between two pieces**: it has read a text up to a place,
and its buffer begins at the last cut. -/
structure Reading (s : List Char) (n cut : Nat) (flag : Bool) : Prop where
  cut_le : cut ≤ n
  le_length : n ≤ s.length
  /-- The buffer has no mark to act on: none at all, or one announcement that has been
  acted on. -/
  held : flag = false ∧ marksBehind (s.take n) cut = [] ∨
    flag = true ∧ ∃ r, marksBehind (s.take n) cut = [r] ∧ r.banner = .rerun
  /-- No pass is lost: only an announcement can be cut through. -/
  cutThrough : ∀ m : Mark, m.In s → m.start < cut → n < m.stop → m.banner = .rerun

section Split

variable {s : List Char} {n n' cut : Nat}

/-- The marks in a buffer that a read has been appended to, and behind it. -/
theorem marksBehind_take (s : List Char) (n cut : Nat) :
    marksBehind (s.take n) cut = (marksBehind s cut).filter (·.stop ≤ n) := by
  rw [marksBehind, marks_take, List.filter_comm, marksBehind]

/-- Marks in order are those without and those with a property that is kept to the
right. -/
theorem filter_not_append_filter {ms : List Mark} (ordered : ms.Pairwise Mark.Before)
    {p : Mark → Bool} (kept : ∀ {m m' : Mark}, m.Before m' → p m → p m') :
    ms.filter (!p ·) ++ ms.filter p = ms := by
  induction ms with
  | nil => rfl
  | cons m ms ih =>
      obtain ⟨first, ordered⟩ := List.pairwise_cons.mp ordered
      cases holds : p m with
      | false =>
          rw [List.filter_cons_of_pos (by simp [holds]),
            List.filter_cons_of_neg (by simp [holds]), List.cons_append, ih ordered]
      | true =>
          have all : ∀ m' ∈ m :: ms, p m' := by
            intro m' mem
            rcases List.mem_cons.mp mem with rfl | mem
            · exact holds
            · exact kept (first m' mem) holds
          rw [List.filter_eq_nil_iff.mpr, List.filter_eq_self.mpr all, List.nil_append]
          simpa using all

/-- Marks in order are those that end up to a place, and those that end behind it. -/
theorem filter_append_filter_stop {ms : List Mark} (ordered : ms.Pairwise Mark.Before) (n : Nat) :
    ms.filter (·.stop ≤ n) ++ ms.filter (n < ·.stop) = ms := by
  have split := filter_not_append_filter ordered (p := (n < ·.stop)) fun {m m'} before late => by
    have pos := m'.start_lt_stop
    rw [Mark.Before] at before
    simp only [decide_eq_true_iff] at late ⊢
    omega
  simpa only [decide_not.symm, Nat.not_lt] using split

/-- The marks behind a place are the last ones. -/
theorem marksBehind_suffix (s : List Char) (n : Nat) : marksBehind s n <:+ marks s := by
  have split := filter_not_append_filter (pairwise_marks s) (p := (n ≤ ·.start))
    fun {m m'} before late => by
      have pos := m.start_lt_stop
      rw [Mark.Before] at before
      simp only [decide_eq_true_iff] at late ⊢
      omega
  exact ⟨_, split⟩

end Split

/-- Once a pass is completed, it does not matter where the text was cut before. -/
theorem lastCut_append_passEnd (s : List Char) (cut : Nat) (ms more : List Mark) {c : Mark}
    (passEnd : c.banner = .passEnd) :
    lastCut s cut (ms ++ c :: more) = lastCut s (nextCut s more) more := by
  induction ms generalizing cut with
  | nil => simp only [List.nil_append, lastCut, passEnd]
  | cons m ms ih =>
      rw [List.cons_append, lastCut]
      split
      · exact ih _
      · exact ih _

/-- Announcements do not cut the text. -/
theorem lastCut_of_rerun {s : List Char} {cut : Nat} {ms : List Mark}
    (rerun : ∀ m ∈ ms, m.banner = .rerun) : lastCut s cut ms = cut := by
  induction ms with
  | nil => rfl
  | cons m ms ih =>
      rw [lastCut, rerun m List.mem_cons_self]
      exact ih fun m' mem => rerun m' (List.mem_cons_of_mem _ mem)

/-- If there is a mark, the last one decides. -/
theorem flagBehind_append_singleton (flag : Bool) (ms : List Mark) (m : Mark) :
    flagBehind flag (ms ++ [m]) = decide (m.banner = .rerun) := by
  rw [flagBehind, List.getLast?_concat]

/-- A banner that a place lies inside is of the other kind than the one before. -/
theorem differs_of_open {ms behind : List Mark} {m m' : Mark} {k : Nat}
    (ordered : (ms ++ m :: behind).Pairwise Mark.Before)
    (alternates : (ms ++ m :: behind).IsChain Mark.Differs) (late : ∀ b ∈ behind, k < b.stop)
    (mem : m' ∈ behind) (early : m'.start < k) : m.Differs m' := by
  cases behind with
  | nil => cases mem
  | cons first behind =>
      obtain ⟨-, differs, -⟩ := List.isChain_append_cons_cons.mp alternates
      rcases List.mem_cons.mp mem with rfl | mem
      · exact differs
      · -- only the first mark behind can begin before a place that it has not ended at
        have order := (List.pairwise_cons.mp (List.pairwise_cons.mp
          (List.pairwise_append.mp ordered).2.1).2).1 m' mem
        have open' := late first List.mem_cons_self
        rw [Mark.Before] at order
        omega

/-- Which banner a happening acts on. -/
def Happening.banner : Happening → Banner
  | rerun => .rerun
  | pass _ => .passEnd

theorem map_banner_happeningsFrom (s : List Char) (cut : Nat) (ms : List Mark) :
    (happeningsFrom s cut ms).map Happening.banner = ms.map Mark.banner := by
  induction ms generalizing cut with
  | nil => rfl
  | cons m ms ih =>
      rw [happeningsFrom]
      split
      · next rerun => rw [List.map_cons, List.map_cons, ih, rerun, Happening.banner]
      · next passEnd => rw [List.map_cons, List.map_cons, ih, passEnd, Happening.banner]

namespace Reading

variable {s : List Char} {n n' cut : Nat} {flag : Bool}

/-- A text that nothing has been read of. -/
theorem zero (s : List Char) : Reading s 0 0 false where
  cut_le := Nat.le_refl 0
  le_length := Nat.zero_le _
  held := Or.inl ⟨rfl, by simp [marksBehind, marks]⟩
  cutThrough := fun _ _ before => absurd before (Nat.not_lt_zero _)

/-- The marks behind the cut: those in the buffer, and those to come. -/
theorem held_append_coming (s : List Char) (n cut : Nat) :
    marksBehind (s.take n) cut ++ coming s n cut = marksBehind s cut := by
  rw [marksBehind_take, coming]
  exact filter_append_filter_stop (pairwise_marksBehind s cut) n

theorem pairwise_coming (s : List Char) (n cut : Nat) :
    (coming s n cut).Pairwise Mark.Before := (pairwise_marksBehind s cut).filter _

/-- The marks that a buffer shows when a read has been appended to it. -/
theorem marksBehind_take_later (s : List Char) (cut : Nat) (later : n ≤ n') :
    marksBehind (s.take n') cut =
      marksBehind (s.take n) cut ++ (coming s n cut).filter (·.stop ≤ n') := by
  have kept : (marksBehind (s.take n) cut).filter (·.stop ≤ n') = marksBehind (s.take n) cut := by
    rw [List.filter_eq_self]
    intro m mem
    rw [marksBehind_take, List.mem_filter, decide_eq_true_iff] at mem
    exact decide_eq_true (Nat.le_trans mem.2 later)
  rw [marksBehind_take s n', ← held_append_coming s n cut, List.filter_append, kept]

/-- Every mark that a read shows is acted on. -/
theorem acted_held_append (h : Reading s n cut flag) {ms : List Mark}
    (alternates : (marksBehind (s.take n) cut ++ ms).IsChain Mark.Differs) :
    acted flag (marksBehind (s.take n) cut ++ ms) = ms := by
  rcases h.held with ⟨rfl, empty⟩ | ⟨rfl, r, single, rerun⟩
  · rw [empty, List.nil_append] at alternates ⊢
    exact List.destutter_of_isChain _ _ alternates
  · rw [single, List.singleton_append] at alternates ⊢
    have rest : (r :: ms).dropWhile (·.banner = .rerun) = ms := by
      cases ms with
      | nil => simp [rerun]
      | cons m ms =>
          have differs : r.banner ≠ m.banner := (List.isChain_cons_cons.mp alternates).1
          rw [rerun] at differs
          simp [rerun, differs.symm]
    rw [acted, if_pos rfl, rest]
    exact List.destutter_of_isChain _ _ alternates.tail

/-- What is to come is what a read shows and what comes after it. -/
theorem coming_split (later : n ≤ n') :
    (coming s n cut).filter (·.stop ≤ n') ++ coming s n' cut = coming s n cut := by
  have rest : (coming s n cut).filter (n' < ·.stop) = coming s n' cut := by
    rw [coming, coming, List.filter_filter]
    refine List.filter_congr fun m _ => ?_
    rw [Bool.eq_iff_iff]
    simp
    omega
  rw [← rest]
  exact filter_append_filter_stop (pairwise_coming s n cut) n'

theorem mem_coming {m : Mark} :
    m ∈ coming s n cut ↔ m.In s ∧ cut ≤ m.start ∧ n < m.stop := by
  rw [coming, List.mem_filter, mem_marksBehind, decide_eq_true_iff, and_assoc]

/-- Announcements alone neither cut the text nor let one get lost. -/
theorem next_of_rerun (h : Reading s n cut flag) (later : n ≤ n') (inside : n' ≤ s.length)
    (alternates : (marksBehind (s.take n') cut).IsChain Mark.Differs)
    (rerun : ∀ m ∈ marksBehind (s.take n') cut, m.banner = .rerun) :
    Reading s n' cut (flagBehind flag (marksBehind (s.take n') cut)) ∧
      (coming s n' cut).filter (¬ Swallows s (n, n') ·) = coming s n' cut := by
  have shown := marksBehind_take_later s cut later
  refine ⟨⟨Nat.le_trans h.cut_le later, inside, ?_, ?_⟩, ?_⟩
  · cases marks? : marksBehind (s.take n') cut with
    | nil =>
        rw [marks?] at shown
        rcases h.held with ⟨rfl, -⟩ | ⟨-, r, single, -⟩
        · exact Or.inl ⟨rfl, rfl⟩
        · simp [single] at shown
    | cons r more =>
        rw [marks?] at rerun alternates
        have first := rerun r List.mem_cons_self
        cases more with
        | nil => exact Or.inr ⟨by simp [flagBehind, first], r, rfl, first⟩
        | cons r' more =>
            have differs : r.banner ≠ r'.banner := (List.isChain_cons_cons.mp alternates).1
            rw [first, rerun r' (by simp)] at differs
            exact absurd rfl differs
  · exact fun m stands before behind => h.cutThrough m stands before (by omega)
  · rw [List.filter_eq_self]
    intro m mem
    rw [decide_eq_true_iff]
    rintro ⟨-, -, -, c, hc, passEnd, after, before⟩
    have stands := mem_marks.mp hc
    have banner : c.banner = .rerun := by
      rcases Nat.lt_or_ge c.start cut with early | late
      · exact h.cutThrough c stands early after
      · exact rerun c (mem_marksBehind.mpr ⟨Mark.in_take_iff.mpr ⟨stands, before⟩, late⟩)
    rw [banner] at passEnd
    cases passEnd

/-- What is to come behind the last mark that a read shows. -/
theorem differs_of_mem_coming (alternates : (marksBehind s cut).IsChain Mark.Differs)
    {before : List Mark} {m m' : Mark} (last : marksBehind (s.take n') cut = before ++ [m])
    (mem : m' ∈ coming s n' cut) (early : m'.start < n') : m.Differs m' := by
  have whole : before ++ m :: coming s n' cut = marksBehind s cut := by
    rw [← held_append_coming s n' cut, last, List.append_assoc, List.singleton_append]
  have ordered := pairwise_marksBehind s cut
  rw [← whole] at ordered alternates
  exact differs_of_open ordered alternates (fun b hb => (mem_coming.mp hb).2.2) mem early

/-- Behind a completed pass that nothing follows, the buffer is empty, and an open
announcement is lost. -/
theorem next_of_passEnd (h : Reading s n cut flag) (later : n ≤ n') (inside : n' ≤ s.length)
    (alternates : (marksBehind s cut).IsChain Mark.Differs) {before : List Mark} {c : Mark}
    (last : marksBehind (s.take n') cut = before ++ [c]) (passEnd : c.banner = .passEnd)
    (after : n < c.stop) :
    Reading s n' n' false ∧
      (coming s n' cut).filter (¬ Swallows s (n, n') ·) = coming s n' n' := by
  have opened : ∀ m : Mark, m ∈ coming s n' cut → m.start < n' → m.banner = .rerun := by
    intro m mem early
    have differs : c.banner ≠ m.banner := differs_of_mem_coming alternates last mem early
    rw [passEnd] at differs
    cases banner : m.banner with
    | rerun => rfl
    | passEnd => exact absurd banner.symm differs
  have stands : c.In s ∧ c.stop ≤ n' := by
    have mem : c ∈ marksBehind (s.take n') cut := by simp [last]
    exact Mark.in_take_iff.mp (mem_marksBehind.mp mem).1
  refine ⟨⟨Nat.le_refl n', inside, Or.inl ⟨rfl, ?_⟩, ?_⟩, ?_⟩
  · have length : (s.take n').length = n' := by
      rw [List.length_take]
      omega
    have empty := marksBehind_length (s.take n')
    rwa [length] at empty
  · intro m hm early behind
    rcases Nat.lt_or_ge m.start cut with before | behindCut
    · exact h.cutThrough m hm before (by omega)
    · exact opened m (mem_coming.mpr ⟨hm, behindCut, behind⟩) early
  · have cut_le := Nat.le_trans h.cut_le later
    refine ((pairwise_coming s n' cut).filter _).eq_of_mem_iff (pairwise_coming s n' n')
      fun m => ?_
    rw [List.mem_filter, decide_eq_true_iff, mem_coming, mem_coming]
    constructor
    · rintro ⟨⟨hm, behindCut, behind⟩, seen⟩
      refine ⟨hm, Nat.le_of_not_lt fun early => seen ?_, behind⟩
      exact ⟨opened m (mem_coming.mpr ⟨hm, behindCut, behind⟩) early, early, behind,
        c, mem_marks.mpr stands.1, passEnd, after, stands.2⟩
    · rintro ⟨hm, late, behind⟩
      exact ⟨⟨hm, Nat.le_trans cut_le late, behind⟩, fun swallowed =>
        absurd swallowed.2.1 (Nat.not_lt.mpr late)⟩

/-- Behind an announcement at which the text was cut, nothing is lost. -/
theorem next_of_cut_at_rerun (inside : n' ≤ s.length)
    (alternates : (marksBehind s cut).IsChain Mark.Differs) {before : List Mark} {r : Mark}
    (last : marksBehind (s.take n') cut = before ++ [r]) (rerun : r.banner = .rerun) :
    Reading s n' r.start true ∧
      (coming s n' cut).filter (¬ Swallows s (n, n') ·) = coming s n' r.start := by
  have stands : r.In s ∧ r.stop ≤ n' := by
    have mem : r ∈ marksBehind (s.take n') cut := by simp [last]
    exact Mark.in_take_iff.mp (mem_marksBehind.mp mem).1
  have pos := r.start_lt_stop
  refine ⟨⟨by omega, inside, Or.inr ⟨rfl, r, marksBehind_start last, rerun⟩, ?_⟩, ?_⟩
  · intro m hm early behind
    have order := Mark.stop_le_start hm stands.1 early
    omega
  · have whole : marksBehind s cut = before ++ r :: coming s n' cut := by
      rw [← held_append_coming s n' cut, last, List.append_assoc, List.singleton_append]
    have rest : coming s n' r.start = coming s n' cut := by
      rw [coming, marksBehind_start whole, List.filter_cons_of_neg (by simpa using stands.2),
        List.filter_eq_self]
      exact fun m mem => decide_eq_true (mem_coming.mp mem).2.2
    rw [rest, List.filter_eq_self]
    intro m mem
    rw [decide_eq_true_iff]
    rintro ⟨again, early, -⟩
    exact differs_of_mem_coming alternates last mem early (rerun.trans again.symm)

/-- A completed pass that a buffer shows was not there before. -/
theorem exists_now_eq (h : Reading s n cut flag) {now before tail : List Mark} {c : Mark}
    (shown : marksBehind (s.take n) cut ++ now = before ++ c :: tail)
    (passEnd : c.banner = .passEnd) : ∃ skipped, now = skipped ++ c :: tail := by
  rcases List.append_eq_append_iff.mp shown with ⟨skipped, -, rfl⟩ | ⟨inHeld, held, rest⟩
  · exact ⟨skipped, rfl⟩
  · cases inHeld with
    | nil => exact ⟨[], rest.symm⟩
    | cons c' inHeld =>
        -- what is held is no completed pass
        rw [List.cons_append, List.cons.injEq] at rest
        obtain ⟨rfl, -⟩ := rest
        rcases h.held with ⟨-, empty⟩ | ⟨-, r, single, rerun⟩
        · simp [empty] at held
        · have mem : c ∈ marksBehind (s.take n) cut := by simp [held]
          rw [single, List.mem_singleton] at mem
          rw [← mem, passEnd] at rerun
          cases rerun

/-- Where a read leaves a session.  The last two marks that the buffer shows decide. -/
theorem reading_lastCut (h : Reading s n cut flag)
    (alternates : (marksBehind s cut).IsChain Mark.Differs) (later : n ≤ n')
    (inside : n' ≤ s.length) {now : List Mark}
    (hnow : (coming s n cut).filter (·.stop ≤ n') = now) :
    Reading s n' (lastCut (s.take n') cut now)
        (flagBehind flag (marksBehind (s.take n') cut)) ∧
      (coming s n' cut).filter (¬ Swallows s (n, n') ·) =
        coming s n' (lastCut (s.take n') cut now) := by
  have shown := marksBehind_take_later s cut later
  rw [hnow] at shown
  have length : (s.take n').length = n' := by
    rw [List.length_take]
    omega
  have chain : (marksBehind (s.take n') cut).IsChain Mark.Differs := by
    rw [← held_append_coming s n' cut] at alternates
    exact alternates.left_of_append
  have idle : (∀ m ∈ marksBehind (s.take n') cut, m.banner = .rerun) →
      lastCut (s.take n') cut now = cut := fun rerun =>
    lastCut_of_rerun fun m mem => rerun m (shown ▸ List.mem_append_right _ mem)
  rcases List.eq_nil_or_concat (marksBehind (s.take n') cut) with empty | ⟨before, m, last⟩
  · have none : ∀ m ∈ marksBehind (s.take n') cut, m.banner = .rerun := by simp [empty]
    rw [idle none]
    exact h.next_of_rerun later inside chain none
  rw [List.concat_eq_append] at last
  cases banner : m.banner with
  | passEnd =>
      obtain ⟨skipped, rfl⟩ := h.exists_now_eq (shown.symm.trans last) banner
      have after : n < m.stop := by
        have mem : m ∈ (coming s n cut).filter (·.stop ≤ n') := by simp [hnow]
        exact (mem_coming.mp (List.mem_of_mem_filter mem)).2.2
      rw [lastCut_append_passEnd _ _ _ _ banner, last, flagBehind_append_singleton, banner]
      simp only [lastCut, nextCut, firstOf, List.find?_nil, Option.map_none, Option.getD_none,
        length]
      exact h.next_of_passEnd later inside alternates last banner after
  | rerun =>
      -- alone, an announcement does not cut the text; behind a completed pass it does
      rcases List.eq_nil_or_concat before with rfl | ⟨before, c, rfl⟩
      · have single : ∀ m' ∈ marksBehind (s.take n') cut, m'.banner = .rerun := by
          simp [last, banner]
        rw [idle single]
        exact h.next_of_rerun later inside chain single
      · rw [List.concat_eq_append, List.append_assoc, List.singleton_append] at last
        have passEnd : c.banner = .passEnd := by
          rw [last] at chain
          have differs : c.banner ≠ m.banner := (List.isChain_append_cons_cons.mp chain).2.1
          rw [banner] at differs
          cases other : c.banner with
          | rerun => exact absurd other differs
          | passEnd => rfl
        obtain ⟨skipped, rfl⟩ := h.exists_now_eq (shown.symm.trans last) passEnd
        have last' : marksBehind (s.take n') cut = (before ++ [c]) ++ [m] := by simp [last]
        rw [lastCut_append_passEnd _ _ _ _ passEnd, last', flagBehind_append_singleton, banner]
        simp only [lastCut, banner, nextCut, firstOf_cons, if_pos, Option.map_some,
          Option.getD_some]
        exact next_of_cut_at_rerun inside alternates last' banner

/-- **What a read does**: it acts on what it shows, and leaves what is to come after it,
less what it swallows. -/
theorem next (h : Reading s n cut flag) (alternates : (marks s).IsChain Mark.Differs)
    (later : n ≤ n') (inside : n' ≤ s.length) :
    ∃ happenings cut' flag',
      Settles .standard flag ((s.take n').drop cut) happenings flag' ((s.take n').drop cut') ∧
      Reading s n' cut' flag' ∧
      ∃ now, happenings.map Happening.banner = now.map Mark.banner ∧
        (∀ m ∈ now, m.stop ≤ n') ∧
        (coming s n cut).filter (¬ Swallows s (n, n') ·) = now ++ coming s n' cut' := by
  have chain := alternates.suffix (marksBehind_suffix s cut)
  have shown := marksBehind_take_later s cut later
  have loop := settles_marksBehind (s.take n') flag (n := cut) (by
    have := h.cut_le
    rw [List.length_take]
    omega)
  generalize hnow : (coming s n cut).filter (·.stop ≤ n') = now at shown
  have acts : acted flag (marksBehind (s.take n') cut) = now := by
    rw [← held_append_coming s n' cut, shown] at chain
    rw [shown]
    exact h.acted_held_append chain.left_of_append
  rw [acts] at loop
  obtain ⟨reading, left⟩ := h.reading_lastCut chain later inside hnow
  have ended : ∀ m ∈ now, m.stop ≤ n' := by
    rw [← hnow]
    exact fun m mem => of_decide_eq_true (List.mem_filter.mp mem).2
  refine ⟨_, _, _, loop, reading, now, map_banner_happeningsFrom _ _ _, ended, ?_⟩
  rw [← coming_split later, hnow, List.filter_append, left, List.filter_eq_self.mpr]
  intro m mem
  rw [decide_eq_true_iff]
  rintro ⟨-, -, behind, -⟩
  exact absurd behind (Nat.not_lt.mpr (ended m mem))

/-- A piece is read from a text by going on in it. -/
theorem append_piece (h : Reading s n cut flag) {piece more : List Char}
    (rest : s.drop n = piece ++ more) :
    (s.take n).drop cut ++ piece = (s.take (n + piece.length)).drop cut ∧
      n + piece.length ≤ s.length ∧ s.drop (n + piece.length) = more := by
  have inside := h.le_length
  have next : (s.drop n).take piece.length = piece := by rw [rest, List.take_left]
  have long := congrArg List.length rest
  rw [List.length_drop, List.length_append] at long
  refine ⟨?_, by omega, by rw [← List.drop_drop, rest, List.drop_left]⟩
  rw [List.take_add, next, List.drop_append_of_le_length]
  rw [List.length_take]
  exact Nat.le_min.mpr ⟨h.cut_le, Nat.le_trans h.cut_le inside⟩

/-- When everything has been read, nothing is to come. -/
theorem coming_eq_nil (ended : s.drop n = []) : coming s n cut = [] := by
  refine List.eq_nil_iff_forall_not_mem.mpr fun m mem => ?_
  obtain ⟨stands, -, behind⟩ := mem_coming.mp mem
  have inside := stands.stop_le
  have ended : s.length ≤ n := List.drop_eq_nil_iff.mp ended
  omega

/-- The marks that no read of some swallows are those that neither the first nor a
later one does. -/
theorem filter_readsFrom_cons (s piece : List Char) (pieces : List (List Char)) (n : Nat)
    (ms : List Mark) :
    ms.filter (fun m => ∀ read ∈ readsFrom n (piece :: pieces), ¬ Swallows s read m) =
      (ms.filter (¬ Swallows s (n, n + piece.length) ·)).filter
        fun m => ∀ read ∈ readsFrom (n + piece.length) pieces, ¬ Swallows s read m := by
  rw [List.filter_filter]
  refine List.filter_congr fun m _ => ?_
  rw [Bool.eq_iff_iff, Bool.and_eq_true, decide_eq_true_iff, decide_eq_true_iff,
    decide_eq_true_iff, readsFrom, List.forall_mem_cons, and_comm]

/-- No later read swallows a mark that has ended. -/
theorem filter_readsFrom_of_ended {ms : List Mark} (ended : ∀ m ∈ ms, m.stop ≤ n)
    (pieces : List (List Char)) :
    ms.filter (fun m => ∀ read ∈ readsFrom n pieces, ¬ Swallows s read m) = ms := by
  rw [List.filter_eq_self]
  intro m mem
  rw [decide_eq_true_iff]
  rintro read hread ⟨-, -, behind, -⟩
  have := ended m mem
  have := le_of_mem_readsFrom hread
  omega

/-- **Piece by piece**, everything that is to come is acted on but what a read
swallows. -/
theorem settlesEach (h : Reading s n cut flag) (alternates : (marks s).IsChain Mark.Differs)
    {pieces : List (List Char)} (rest : s.drop n = pieces.flatten) :
    ∃ happenings flag' buffer',
      SettlesEach .standard flag ((s.take n).drop cut) pieces happenings flag' buffer' ∧
      happenings.map Happening.banner = ((coming s n cut).filter
        fun m => ∀ read ∈ readsFrom n pieces, ¬ Swallows s read m).map Mark.banner := by
  induction pieces generalizing n cut flag with
  | nil =>
      refine ⟨[], flag, _, .nil, ?_⟩
      rw [coming_eq_nil rest]
      rfl
  | cons piece pieces ih =>
      obtain ⟨appended, inside, rest'⟩ := h.append_piece (rest.trans List.flatten_cons)
      obtain ⟨happenings, cut', flag₁, here, reading, now, banners, ended, left⟩ :=
        h.next alternates (Nat.le_add_right n piece.length) inside
      obtain ⟨others, flag', buffer', there, banners'⟩ := ih reading rest'
      refine ⟨happenings ++ others, flag', buffer', .cons (appended ▸ here) there, ?_⟩
      -- what this read shows has ended; what it leaves is the later reads' concern
      rw [filter_readsFrom_cons, left, List.filter_append, filter_readsFrom_of_ended ended,
        List.map_append, List.map_append, banners, banners']

end Reading

/-! ### A session -/

namespace Session

open Text

/-- The banner that a milestone tells of: a new pass, or a published one. -/
def Milestone.banner? : Milestone → Option Banner
  | told .rerun => some .rerun
  | told (.published _) => some .passEnd
  | told .started | entered _ | completed _ => none

/-- Which notices of new and published passes were due so far, in order. -/
def World.told (w : World) : List Banner := w.course.filterMap Milestone.banner?

theorem Recounts.filterMap_banner? {happenings : List Happening} {course : List Milestone}
    (h : Recounts happenings course) :
    course.filterMap Milestone.banner? = happenings.map Happening.banner := by
  induction h with
  | nil => rfl
  | rerun _ ih => exact congrArg (Banner.rerun :: ·) ih
  | pass _ _ _ ih => exact congrArg (Banner.passEnd :: ·) ih

theorem Settled.told {w w' : World} {happenings : List Happening} {flag : Bool}
    {buffer : List Char} (h : Settled w happenings flag buffer w') :
    w'.told = w.told ++ happenings.map Happening.banner := by
  obtain ⟨added, course, recounts, -⟩ := h.course
  rw [World.told, World.told, course, List.filterMap_append, recounts.filterMap_banner?]

variable {host : Host} {w : World}

/-- **Everything is told but what a read swallows.** -/
theorem told_feedEach (obliging : host.Obliging) (ready : w.session.Ready)
    (standard : w.session.options.markers = .standard) (empty : w.session.buffer = [])
    (clear : w.session.rerunSeen = false) (pieces : List (List Char))
    (alternates : (marks pieces.flatten).IsChain Mark.Differs) {rounds : Nat}
    (enough : (marks pieces.flatten).length < rounds) :
    ∃ w', exec (feedEach host rounds pieces) w = (.ok (), w') ∧
      w'.told = w.told ++ ((marks pieces.flatten).filter fun m =>
        ∀ read ∈ readsFrom 0 pieces, ¬ Swallows pieces.flatten read m).map Mark.banner := by
  obtain ⟨happenings, flag, buffer, settles, banners⟩ :=
    (Reading.zero pieces.flatten).settlesEach alternates
      (List.drop_zero : pieces.flatten.drop 0 = pieces.flatten)
  have all : coming pieces.flatten 0 0 = marks pieces.flatten := by
    rw [coming, marksBehind_zero, List.filter_eq_self]
    exact fun m _ => decide_eq_true (Nat.zero_lt_of_lt m.start_lt_stop)
  rw [all] at banners
  have bound : happenings.length < rounds := by
    have same := congrArg List.length banners
    rw [List.length_map, List.length_map] at same
    exact Nat.lt_of_le_of_lt (same ▸ List.length_filter_le _ _) enough
  rw [← standard, ← clear, List.take_zero, List.drop_nil, ← empty] at settles
  obtain ⟨w', run, settled⟩ := exec_feedEach obliging settles bound ready
  exact ⟨w', run, by rw [settled.told, banners]⟩

/-- A text in one piece ends behind all of its banners. -/
theorem not_swallows_whole (s : List Char) :
    ∀ m ∈ marks s, ∀ read ∈ readsFrom 0 [s], ¬ Swallows s read m := by
  intro m mem read hread
  have inside := (mem_marks.mp mem).stop_le
  rw [readsFrom, readsFrom, List.mem_singleton] at hread
  rintro ⟨-, -, behind, -⟩
  rw [hread, Nat.zero_add] at behind
  omega

/-- **When pieces tell the same as the whole text.**  Let the banners be the standard
ones, and let listeners and collector be obliging.  Then for a text whose banners
alternate, however it is cut into pieces, a fresh session that is fed the pieces tells
of the same new and published passes in the same order as one that is fed the text at
once, exactly if no read ends inside an announcement and completes a pass.  The one
that is fed the text at once tells of every banner. -/
theorem told_feedEach_eq_iff (obliging : host.Obliging) (ready : w.session.Ready)
    (standard : w.session.options.markers = .standard) (empty : w.session.buffer = [])
    (clear : w.session.rerunSeen = false) (pieces : List (List Char))
    (alternates : (marks pieces.flatten).IsChain Mark.Differs) {rounds : Nat}
    (enough : (marks pieces.flatten).length < rounds) :
    ∃ each whole, exec (feedEach host rounds pieces) w = (.ok (), each) ∧
      exec (feed host rounds pieces.flatten) w = (.ok (), whole) ∧
      whole.told = w.told ++ (marks pieces.flatten).map Mark.banner ∧
      (each.told = whole.told ↔ ∀ m ∈ marks pieces.flatten,
        ∀ read ∈ readsFrom 0 pieces, ¬ Swallows pieces.flatten read m) := by
  obtain ⟨each, runEach, toldEach⟩ :=
    told_feedEach obliging ready standard empty clear pieces alternates enough
  have one : [pieces.flatten].flatten = pieces.flatten := by simp
  obtain ⟨whole, runWhole, toldWhole⟩ :=
    told_feedEach obliging ready standard empty clear [pieces.flatten] (by rwa [one])
      (by rwa [one])
  rw [exec_feedEach_singleton] at runWhole
  rw [one, List.filter_eq_self.mpr fun m mem =>
    decide_eq_true (not_swallows_whole _ m mem)] at toldWhole
  refine ⟨each, whole, runEach, runWhole, toldWhole, ?_⟩
  rw [toldEach, toldWhole, List.append_cancel_left_eq]
  constructor
  · intro same
    have length := congrArg List.length same
    rw [List.length_map, List.length_map, List.length_filter_eq_length_iff] at length
    exact fun m mem => of_decide_eq_true (length m mem)
  · intro none
    rw [List.filter_eq_self.mpr fun m mem => decide_eq_true (none m mem)]

/-- A banner of either kind that is cut through, where no read swallows. -/
theorem told_feedEach_eq_cutThrough :
    ∃ each whole, exec (feedEach .quiet 4 [lit "File change det", lit "ected\nFound 1 err",
          lit "or. Watching for\n", lit "File change detected"])
        ⟨new {} ["a.test-d.ts"], [], []⟩ = (.ok (), each) ∧
      exec (feed .quiet 4
          (lit "File change detected\nFound 1 error. Watching for\nFile change detected"))
        ⟨new {} ["a.test-d.ts"], [], []⟩ = (.ok (), whole) ∧
      whole.told = [.rerun, .passEnd, .rerun] ∧ each.told = whole.told := by
  have enough : (marks [lit "File change det", lit "ected\nFound 1 err",
      lit "or. Watching for\n", lit "File change detected"].flatten).length < 4 := by
    decide +kernel
  obtain ⟨each, whole, runEach, runWhole, told, same⟩ := told_feedEach_eq_iff
    Host.obliging_quiet (w := ⟨new {} ["a.test-d.ts"], [], []⟩)
    (ready_new {} ["a.test-d.ts"] {}) rfl rfl rfl _ (by decide +kernel) enough
  exact ⟨each, whole, runEach, runWhole, told.trans (by decide +kernel),
    same.mpr (by decide +kernel)⟩

/-- **Pieces need not tell the same as the whole text.**  The first read completes a
pass and ends inside an announcement, which is lost. -/
theorem told_feedEach_ne_swallowed :
    ∃ pieces each whole, (marks pieces.flatten).IsChain Mark.Differs ∧
      exec (feedEach .quiet 4 pieces) ⟨new {} [], [], []⟩ = (.ok (), each) ∧
      exec (feed .quiet 4 pieces.flatten) ⟨new {} [], [], []⟩ = (.ok (), whole) ∧
      pieces = [lit "Found 1 error. Watching for\nFile cha",
        lit "nge detected\nFound 0 errors. Watching for"] ∧
      whole.told = [.passEnd, .rerun, .passEnd] ∧ each.told = [.passEnd, .passEnd] := by
  generalize hpieces : [lit "Found 1 error. Watching for\nFile cha",
    lit "nge detected\nFound 0 errors. Watching for"] = pieces
  have alternates : (marks pieces.flatten).IsChain Mark.Differs := by
    subst hpieces
    decide +kernel
  have enough : (marks pieces.flatten).length < 4 := by
    subst hpieces
    decide +kernel
  have one : [pieces.flatten].flatten = pieces.flatten := by simp
  obtain ⟨each, runEach, toldEach⟩ := told_feedEach Host.obliging_quiet
    (w := ⟨new {} [], [], []⟩) (ready_new {} [] {}) rfl rfl rfl pieces alternates enough
  obtain ⟨whole, runWhole, toldWhole⟩ := told_feedEach Host.obliging_quiet
    (w := ⟨new {} [], [], []⟩) (ready_new {} [] {}) rfl rfl rfl [pieces.flatten]
    (by rwa [one]) (by rwa [one])
  rw [exec_feedEach_singleton] at runWhole
  refine ⟨pieces, each, whole, alternates, runEach, runWhole, rfl, toldWhole.trans ?_,
    toldEach.trans ?_⟩
  all_goals
    subst hpieces
    decide +kernel

end Session

end TypeVerdict
