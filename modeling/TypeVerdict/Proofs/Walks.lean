import Mathlib.Logic.Relation
import TypeVerdict.Workspace.FileTree

/-!
# Walks along written paths

What a written path leads to is said here by a walk: one step for every segment, and one more for
every link that is followed.  A step stays where it is, goes up, goes down into a directory, or
puts the segments of a link's target in front of those ahead (`Walks`).  A walk lands where no step
is possible: in a directory with nothing ahead, or at a name that stands for a file or for nothing
or for one link too many (`Lands`).

Every walk lands, because a step takes either a segment or a link from what is left
(`exists_lands`), and it lands in one way only: what the tree finds is the same at every station
(`Walks.outcome_eq`).  So the tree finds just what the walk along a path lands at
(`find_eq_iff`).

## Main definitions

* `FileTree.Station`, `FileTree.Walks`, `FileTree.Lands`: a walk and its end
* `FileTree.LeadsTo`: what a written path leads to

## Main statements

* `lands_or_walks`, `exists_lands`: every walk lands
* `Walks.outcome_eq`, `Lands.outcome_eq`: a step and a landing, as the tree sees them
* `leadsTo_cases`: what a written path can lead to
* `find_eq_iff`: the tree finds what the walk lands at
-/

namespace TypeVerdict.FileTree

variable {t : FileTree} {path : List Char}

/-- **Where a walk has come**: the directory it is in, the segments ahead, and how many links may
still be followed. -/
structure Station where
  links : Nat
  place : Place
  ahead : List (List Char)

/-- A segment that is a name: it neither stays nor goes up. -/
def Names (segment : List Char) : Prop :=
  ¬ (segment = [] ∨ segment = ['.']) ∧ segment ≠ ['.', '.']

/-- **One step of a walk.** -/
inductive Walks (t : FileTree) : Station → Station → Prop where
  | stay {links : Nat} {place : Place} {segment : List Char} {more : List (List Char)}
      (stays : segment = [] ∨ segment = ['.']) :
      Walks t ⟨links, place, segment :: more⟩ ⟨links, place, more⟩
  | up {links : Nat} {place : Place} {more : List (List Char)} :
      Walks t ⟨links, place, ['.', '.'] :: more⟩ ⟨links, place.dropLast, more⟩
  | down {links : Nat} {place : Place} {segment : List Char} {more : List (List Char)}
      (names : Names segment) (inside : t.entry? (place ++ [segment]) = some .directory) :
      Walks t ⟨links, place, segment :: more⟩ ⟨links, place ++ [segment], more⟩
  | link {links : Nat} {place : Place} {segment target : List Char} {more : List (List Char)}
      (names : Names segment) (leads : t.entry? (place ++ [segment]) = some (.link target)) :
      Walks t ⟨links + 1, place, segment :: more⟩
        ⟨links, if Path.isAbsolute target then [] else place, Path.segments target ++ more⟩

/-- **The end of a walk**, where no step is possible. -/
inductive Lands (t : FileTree) : Station → Except LookupError Entry → Prop where
  /-- Nothing is ahead of the directory. -/
  | directory {links : Nat} {place : Place} : Lands t ⟨links, place, []⟩ (.ok .directory)
  /-- The last segment names a file. -/
  | file {links : Nat} {place : Place} {segment : List Char} {content : List UInt8}
      {executable : Bool} (names : Names segment)
      (found : t.entry? (place ++ [segment]) = some (.file content executable)) :
      Lands t ⟨links, place, [segment]⟩ (.ok (.file content executable))
  /-- Another segment names a file. -/
  | behindFile {links : Nat} {place : Place} {segment : List Char} {more : List (List Char)}
      {content : List UInt8} {executable : Bool} (names : Names segment)
      (found : t.entry? (place ++ [segment]) = some (.file content executable))
      (further : more ≠ []) :
      Lands t ⟨links, place, segment :: more⟩ (.error .notDirectory)
  /-- A segment names nothing. -/
  | nothing {links : Nat} {place : Place} {segment : List Char} {more : List (List Char)}
      (names : Names segment) (absent : t.entry? (place ++ [segment]) = none)
      (short : sizeOf segment ≤ maxNameSize) :
      Lands t ⟨links, place, segment :: more⟩ (.error .notFound)
  /-- A segment names nothing, and nothing could have this name. -/
  | tooLong {links : Nat} {place : Place} {segment : List Char} {more : List (List Char)}
      (names : Names segment) (absent : t.entry? (place ++ [segment]) = none)
      (long : maxNameSize < sizeOf segment) :
      Lands t ⟨links, place, segment :: more⟩ (.error .nameTooLong)
  /-- A segment names a link that must not be followed any more. -/
  | tooManyLinks {place : Place} {segment target : List Char} {more : List (List Char)}
      (names : Names segment) (leads : t.entry? (place ++ [segment]) = some (.link target)) :
      Lands t ⟨0, place, segment :: more⟩ (.error .tooManyLinks)

/-- **What a written path leads to**, if it is absolute: the end of the walk along its segments from
the root, unless the path is too long to be walked at all. -/
def LeadsTo (t : FileTree) (path : List Char) (r : Except LookupError Entry) : Prop :=
  if maxPathSize < sizeOf path then r = .error .nameTooLong
  else ∃ s, Relation.ReflTransGen (Walks t) ⟨maxLinks, [], Path.segments path⟩ s ∧ Lands t s r

/-! ### Every walk lands -/

/-- From every station there is a step, or the walk lands there. -/
theorem lands_or_walks (t : FileTree) (s : Station) :
    (∃ r, Lands t s r) ∨ ∃ s', Walks t s s' := by
  obtain ⟨links, place, _ | ⟨segment, more⟩⟩ := s
  · exact .inl ⟨_, .directory⟩
  by_cases stays : segment = [] ∨ segment = ['.']
  · exact .inr ⟨_, .stay stays⟩
  by_cases up : segment = ['.', '.']
  · subst up
    exact .inr ⟨_, .up⟩
  have names : Names segment := ⟨stays, up⟩
  cases found : t.entry? (place ++ [segment]) with
  | none =>
      rcases Nat.lt_or_ge maxNameSize (sizeOf segment) with long | short
      · exact .inl ⟨_, .tooLong names found long⟩
      · exact .inl ⟨_, .nothing names found short⟩
  | some entry =>
      cases entry with
      | directory => exact .inr ⟨_, .down names found⟩
      | file content executable =>
          by_cases last : more = []
          · subst last
            exact .inl ⟨_, .file names found⟩
          · exact .inl ⟨_, .behindFile names found last⟩
      | link target =>
          cases links with
          | zero => exact .inl ⟨_, .tooManyLinks names found⟩
          | succ links => exact .inr ⟨_, .link names found⟩

/-- A step takes a link from what is left, or else a segment. -/
theorem Walks.decreases {s s' : Station} (step : Walks t s s') :
    Prod.Lex (· < ·) (· < ·) (s'.links, s'.ahead.length) (s.links, s.ahead.length) := by
  cases step with
  | stay | up | down => exact .right _ (Nat.lt_succ_self _)
  | link => exact .left _ _ (Nat.lt_succ_self _)

/-- **Every walk lands.** -/
theorem exists_lands (t : FileTree) (s : Station) :
    ∃ s' r, Relation.ReflTransGen (Walks t) s s' ∧ Lands t s' r := by
  have ordered : WellFounded fun s s' : Station =>
      Prod.Lex (· < ·) (· < ·) (s.links, s.ahead.length) (s'.links, s'.ahead.length) :=
    InvImage.wf _ (Prod.lex ⟨_, Nat.lt_wfRel.wf⟩ ⟨_, Nat.lt_wfRel.wf⟩).wf
  induction s using ordered.induction with
  | _ s ih =>
      rcases lands_or_walks t s with ⟨r, lands⟩ | ⟨s', step⟩
      · exact ⟨s, r, .refl, lands⟩
      · obtain ⟨last, r, walk, lands⟩ := ih s' step.decreases
        exact ⟨last, r, .head step walk, lands⟩

/-! ### What the tree finds -/

/-- What the tree finds behind a station. -/
def Station.outcome (t : FileTree) (s : Station) : Except LookupError Entry := do
  let place ← t.follow s.links s.place s.ahead
  match t.entry? place with
  | some entry => .ok entry
  | none => .error .notFound

theorem Station.outcome_of_error {s : Station} {e : LookupError}
    (stuck : t.follow s.links s.place s.ahead = .error e) : s.outcome t = .error e := by
  rw [outcome, stuck]
  rfl

theorem Station.outcome_of_ok {s : Station} {place : Place} {entry : Entry}
    (passed : t.follow s.links s.place s.ahead = .ok place)
    (found : t.entry? place = some entry) : s.outcome t = .ok entry := by
  rw [outcome, passed]
  show (match t.entry? place with
    | some entry => Except.ok entry
    | none => .error LookupError.notFound) = .ok entry
  rw [found]

/-- A place that is in the tree with all directories above it. -/
def Grounded (t : FileTree) (place : Place) : Prop :=
  ∀ n, t.entry? (place.take n) = some .directory

theorem grounded_root (t : FileTree) : t.Grounded [] := fun n => by
  rw [List.take_nil]
  rfl

/-- **A step leads from directories to directories.** -/
theorem Walks.grounded {s s' : Station} (step : Walks t s s') (grounded : t.Grounded s.place) :
    t.Grounded s'.place := by
  cases step with
  | stay => exact grounded
  | @up links place more =>
      intro n
      rw [List.dropLast_eq_take, List.take_take]
      exact grounded _
  | @down links place segment more names inside =>
      intro n
      rcases Nat.lt_or_ge place.length n with long | short
      · rw [List.take_of_length_le (by rw [List.length_append]; exact long)]
        exact inside
      · rw [List.take_append_of_le_length short]
        exact grounded n
  | @link links place segment target more names leads =>
      dsimp only
      split
      · exact grounded_root t
      · exact grounded

/-- **A step does not change what the tree finds.** -/
theorem Walks.outcome_eq {s s' : Station} (step : Walks t s s') :
    s'.outcome t = s.outcome t := by
  have same : t.follow s.links s.place s.ahead = t.follow s'.links s'.place s'.ahead := by
    cases step with
    | stay stays => rw [follow, if_pos stays]
    | up => rw [follow, if_neg (by decide), if_pos rfl]
    | down names inside =>
        rw [follow, if_neg names.1, if_neg names.2]
        simp only [inside]
    | link names leads =>
        rw [follow, if_neg names.1, if_neg names.2]
        simp only [leads]
  rw [Station.outcome, Station.outcome, same]

/-- **What the tree finds where a walk lands.** -/
theorem Lands.outcome_eq {s : Station} {r : Except LookupError Entry} (lands : Lands t s r)
    (grounded : t.Grounded s.place) : s.outcome t = r := by
  cases lands with
  | @directory links place =>
      have passed : t.follow links place [] = .ok place := by rw [follow]
      have inside := grounded place.length
      rw [List.take_length] at inside
      exact Station.outcome_of_ok passed inside
  | file names found =>
      refine Station.outcome_of_ok ?_ found
      rw [follow, if_neg names.1, if_neg names.2]
      simp only [found, if_pos]
  | behindFile names found further =>
      apply Station.outcome_of_error
      rw [follow, if_neg names.1, if_neg names.2]
      simp only [found, if_neg further]
  | nothing names absent short =>
      apply Station.outcome_of_error
      rw [follow, if_neg names.1, if_neg names.2]
      simp only [absent, if_neg (Nat.not_lt.mpr short)]
  | tooLong names absent long =>
      apply Station.outcome_of_error
      rw [follow, if_neg names.1, if_neg names.2]
      simp only [absent, if_pos long]
  | tooManyLinks names leads =>
      apply Station.outcome_of_error
      rw [follow, if_neg names.1, if_neg names.2]
      simp only [leads]

/-- **The tree finds what the walk lands at.** -/
theorem outcome_eq_iff {s : Station} (grounded : t.Grounded s.place)
    {r : Except LookupError Entry} :
    s.outcome t = r ↔ ∃ s', Relation.ReflTransGen (Walks t) s s' ∧ Lands t s' r := by
  have landing : ∀ s' r, Relation.ReflTransGen (Walks t) s s' → Lands t s' r →
      s.outcome t = r := by
    intro s' r walk lands
    have reached : t.Grounded s'.place ∧ s'.outcome t = s.outcome t := by
      clear lands
      induction walk with
      | refl => exact ⟨grounded, rfl⟩
      | tail _ step ih => exact ⟨step.grounded ih.1, step.outcome_eq.trans ih.2⟩
    rw [← reached.2]
    exact lands.outcome_eq reached.1
  constructor
  · rintro rfl
    obtain ⟨s', r, walk, lands⟩ := exists_lands t s
    rw [landing s' r walk lands]
    exact ⟨s', walk, lands⟩
  · rintro ⟨s', walk, lands⟩
    exact landing s' r walk lands

/-! ### Written paths -/

/-- **Every path leads somewhere**: to a directory or a file, to nothing, or not that far. -/
theorem leadsTo_cases (t : FileTree) (path : List Char) :
    t.LeadsTo path (.ok .directory) ∨
      (∃ content executable, t.LeadsTo path (.ok (.file content executable))) ∨
      t.LeadsTo path (.error .notFound) ∨ t.LeadsTo path (.error .notDirectory) ∨
      t.LeadsTo path (.error .nameTooLong) ∨ t.LeadsTo path (.error .tooManyLinks) := by
  by_cases long : maxPathSize < sizeOf path
  · simp [LeadsTo, long]
  · simp only [LeadsTo, if_neg long]
    obtain ⟨s, r, walk, lands⟩ := exists_lands t ⟨maxLinks, [], Path.segments path⟩
    cases lands with
    | directory => exact .inl ⟨_, walk, .directory⟩
    | file names found => exact .inr (.inl ⟨_, _, _, walk, .file names found⟩)
    | nothing names absent short =>
        exact .inr (.inr (.inl ⟨_, walk, .nothing names absent short⟩))
    | behindFile names found further =>
        exact .inr (.inr (.inr (.inl ⟨_, walk, .behindFile names found further⟩)))
    | tooLong names absent long =>
        exact .inr (.inr (.inr (.inr (.inl ⟨_, walk, .tooLong names absent long⟩))))
    | tooManyLinks names leads =>
        exact .inr (.inr (.inr (.inr (.inr ⟨_, walk, .tooManyLinks names leads⟩))))

/-- A path leads to one thing only. -/
theorem LeadsTo.unique {r r' : Except LookupError Entry} (h : t.LeadsTo path r)
    (h' : t.LeadsTo path r') : r = r' := by
  unfold LeadsTo at h h'
  split at h
  · next long =>
      rw [if_pos long] at h'
      exact h.trans h'.symm
  · next short =>
      rw [if_neg short] at h'
      rw [← (outcome_eq_iff (grounded_root t)).mpr h, (outcome_eq_iff (grounded_root t)).mpr h']

/-- **The tree finds what a written path leads to.** -/
theorem find_eq_iff (directory : Place) (absolute : Path.isAbsolute path = true)
    (clear : '\x00' ∉ path) {r : Except LookupError Entry} :
    t.find directory path = r ↔ t.LeadsTo path r := by
  have written : path ≠ [] := by
    rintro rfl
    cases absolute
  have unmarked : ¬ path.contains '\x00' = true := by simpa using clear
  rw [find, locate, if_neg unmarked, if_neg written, if_pos absolute, LeadsTo]
  split
  · exact eq_comm
  · exact outcome_eq_iff (s := ⟨maxLinks, [], Path.segments path⟩) (grounded_root t)

end TypeVerdict.FileTree
