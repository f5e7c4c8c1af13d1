import Mathlib.Logic.Relation
import TypeVerdict.Proofs.Groups
import TypeVerdict.Session.Basic

/-!
# Spellings of a path

A file can be written in many ways, and what is known about it is kept under one of them.  That one
is found by a walk along the segments, and what makes it a key are three facts about the walk: it
passes plain names only (`Path.plain_within`), so its outcome is written canonically; the segments
of that text are the names again, so that walking it leads nowhere else (`Path.within_text`); and a
detour leads back to where it began (`Path.walk_detour`), so it can be left out wherever the root
has been passed.

The root is a case of its own.  A path that begins with exactly two slashes stays apart from the
same one with one slash, and which of the two a text begins with is decided by the slashes before
its first segment.  A detour behind that segment does not change them
(`Path.hasDoubleSlash_append`).

## Main definitions

* `Path.Plain`: paths without redundant names
* `Path.Canonical`: texts in the form in which paths are written
* `Path.Detour`, `Path.Respelled`: texts that differ by detours

## Main statements

* `Path.canonical_resolveText`, `Path.resolveText_resolveText`: the written form of a path
* `Path.resolveText_congr`: spellings of a path
* `Session.meet_under_one_key`: the files of a session
-/

namespace TypeVerdict

namespace Path

/-! ### Walks -/

/-- No name of a path is redundant. -/
def Plain (p : Path) : Prop := ∀ name ∈ p.names, PlainName name

theorem plain_root : Plain root := fun _ mem => absurd mem List.not_mem_nil

theorem step_of_plain {name : List Char} (plain : PlainName name) (names : List (List Char)) :
    step names name = names ++ [name] := by
  obtain ⟨nonempty, notDot, notDots, -⟩ := plain
  rw [step, if_neg (not_or.mpr ⟨nonempty, notDot⟩), if_neg notDots]

/-- One segment leads from plain names to plain names. -/
theorem plain_step {names : List (List Char)} {segment : List Char}
    (plain : ∀ name ∈ names, PlainName name) (clear : '/' ∉ segment) :
    ∀ name ∈ step names segment, PlainName name := by
  rw [step]
  split
  · exact plain
  next other =>
    obtain ⟨nonempty, notDot⟩ := not_or.mp other
    split
    · exact fun name mem => plain name (List.dropLast_subset names mem)
    · next notDots =>
        intro name mem
        rcases List.mem_append.mp mem with mem | last
        · exact plain name mem
        · cases List.mem_singleton.mp last
          exact ⟨nonempty, notDot, notDots, clear⟩

theorem plain_walk {names segments : List (List Char)} (plain : ∀ name ∈ names, PlainName name)
    (clear : ∀ segment ∈ segments, '/' ∉ segment) :
    ∀ name ∈ walk names segments, PlainName name := by
  induction segments generalizing names with
  | nil => exact plain
  | cons segment segments ih =>
      obtain ⟨first, others⟩ := List.forall_mem_cons.mp clear
      exact ih (plain_step plain first) others

theorem walk_append (names first second : List (List Char)) :
    walk names (first ++ second) = walk (walk names first) second := List.foldl_append

/-- A walk along plain names passes all of them. -/
theorem walk_of_plain {more : List (List Char)} (plain : ∀ name ∈ more, PlainName name)
    (names : List (List Char)) : walk names more = names ++ more := by
  induction more generalizing names with
  | nil => exact (List.append_nil names).symm
  | cons name more ih =>
      obtain ⟨first, others⟩ := List.forall_mem_cons.mp plain
      calc walk names (name :: more) = walk (names ++ [name]) more := by
            rw [← step_of_plain first]
            rfl
        _ = names ++ name :: more := by
            rw [ih others, List.append_assoc, List.singleton_append]

/-- **A text leads from a plain path to a plain path.** -/
theorem plain_within {directory : Path} (plain : Plain directory) (s : List Char) :
    Plain (within directory s) := by
  have clear : ∀ segment ∈ segments s, '/' ∉ segment := fun _ => Text.not_mem_of_mem_splitAt
  rw [within]
  split
  · exact plain_walk plain_root clear
  · exact plain_walk plain clear

theorem plain_resolve (rootText s : List Char) : Plain (resolve rootText s) :=
  plain_within (plain_within plain_root rootText) s

/-! ### Written forms -/

/-- **A text is written canonically**: one slash or exactly two, and behind them plain names only,
if any; no slash is at its end, unless it has nothing else. -/
structure Canonical (s : List Char) : Prop where
  /-- A plain name is neither empty nor one of the dots, and has no slash. -/
  plain : ∃ rest, (s = '/' :: rest ∨ s = '/' :: '/' :: rest) ∧
    (rest = [] ∨ ∀ segment ∈ segments rest, PlainName segment)
  slashes : s.getLast? = some '/' → ∀ c ∈ s, c = '/'

theorem segments_cons_slash (s : List Char) : segments ('/' :: s) = [] :: segments s := rfl

theorem text_eq_or (p : Path) :
    (p.doubleSlash = false ∧ text p = '/' :: Text.joinWith ['/'] p.names) ∨
    (p.doubleSlash = true ∧ text p = '/' :: '/' :: Text.joinWith ['/'] p.names) := by
  rw [text, rootText]
  cases p.doubleSlash
  · exact .inl ⟨rfl, rfl⟩
  · exact .inr ⟨rfl, rfl⟩

theorem Plain.clear {p : Path} (plain : Plain p) : ∀ name ∈ p.names, '/' ∉ name :=
  fun name mem => (plain name mem).2.2.2

/-- The names of a plain path are the segments behind its root. -/
theorem Plain.segments_joinWith {p : Path} (plain : Plain p) :
    (p.names = [] ∧ Text.joinWith ['/'] p.names = []) ∨
      segments (Text.joinWith ['/'] p.names) = p.names := by
  by_cases empty : p.names = []
  · exact .inl ⟨empty, by rw [empty]; rfl⟩
  · exact .inr (Text.splitAt_joinWith empty plain.clear)

/-- A slash at the end is followed by an empty segment. -/
theorem nil_mem_segments_of_getLast? {s : List Char} (last : s.getLast? = some '/') :
    [] ∈ segments s := by
  obtain ⟨front, rfl⟩ := List.getLast?_eq_some_iff.mp last
  rw [segments, Text.splitAt_append]
  exact List.mem_append_right _ (List.mem_singleton_self _)

theorem canonical_text {p : Path} (plain : Plain p) : Canonical (text p) := by
  have names : Text.joinWith ['/'] p.names = [] ∨
      ∀ segment ∈ segments (Text.joinWith ['/'] p.names), PlainName segment := by
    rcases plain.segments_joinWith with ⟨-, empty⟩ | same
    · exact .inl empty
    · exact .inr (same.symm ▸ plain)
  have written := (text_eq_or p).imp And.right And.right
  refine ⟨⟨_, written, names⟩, fun last => ?_⟩
  rcases names with empty | plain
  · rw [empty] at written
    rcases written with same | same <;> simp [same]
  · -- behind a slash at the end there would be one more segment
    have nonempty : Text.joinWith ['/'] p.names ≠ [] := by
      intro empty
      exact (plain [] (by rw [empty]; exact List.mem_singleton_self _)).1 rfl
    have ends : (Text.joinWith ['/'] p.names).getLast? = some '/' := by
      rcases written with same | same
      · rwa [same, List.getLast?_cons_of_ne_nil nonempty] at last
      · rwa [same, List.getLast?_cons_of_ne_nil (List.cons_ne_nil _ _),
          List.getLast?_cons_of_ne_nil nonempty] at last
    exact absurd rfl (plain [] (nil_mem_segments_of_getLast? ends)).1

/-- The slashes of the root are told apart by the first character behind them. -/
theorem hasDoubleSlash_text {p : Path} (plain : Plain p) :
    hasDoubleSlash (text p) = p.doubleSlash := by
  have notSlash : (Text.joinWith ['/'] p.names).head? ≠ some '/' := by
    intro slash
    obtain ⟨r, same⟩ := List.head?_eq_some_iff.mp slash
    rcases plain.segments_joinWith with ⟨-, empty⟩ | names
    · exact List.cons_ne_nil _ _ (same.symm.trans empty)
    · rw [same, segments_cons_slash] at names
      exact (plain [] (names ▸ List.mem_cons_self)).1 rfl
  rcases text_eq_or p with ⟨spelled, same⟩ | ⟨spelled, same⟩
  all_goals
    rw [same, spelled]
    match Text.joinWith ['/'] p.names, notSlash with
    | [], _ => rfl
    | c :: r, notSlash =>
        have other : c ≠ '/' := fun slash => notSlash (congrArg some slash)
        simp [hasDoubleSlash, other]

/-- **The text of a plain path leads to it**, from wherever one starts. -/
theorem within_text {p : Path} (plain : Plain p) (directory : Path) :
    within directory (text p) = p := by
  have absolute : isAbsolute (text p) = true := by
    rcases text_eq_or p with ⟨-, same⟩ | ⟨-, same⟩ <;> rw [same] <;> rfl
  have passed : walk [] (segments (Text.joinWith ['/'] p.names)) = p.names := by
    rcases plain.segments_joinWith with ⟨none, empty⟩ | same
    · rw [empty, none]
      rfl
    · rw [same, walk_of_plain plain, List.nil_append]
  have names : walk [] (segments (text p)) = p.names := by
    rcases text_eq_or p with ⟨-, same⟩ | ⟨-, same⟩ <;> rw [same] <;> exact passed
  rw [within, if_pos absolute, hasDoubleSlash_text plain, names]

theorem toList_resolveText (root path : String) :
    (resolveText root path).toList = text (resolve root.toList path.toList) :=
  String.toList_ofList

/-- **A path is written canonically.** -/
theorem canonical_resolveText (root path : String) :
    Canonical (resolveText root path).toList := by
  rw [toList_resolveText]
  exact canonical_text (plain_resolve _ _)

/-- **A written path stands for itself under every root.** -/
theorem resolveText_resolveText (root' root path : String) :
    resolveText root' (resolveText root path) = resolveText root path := by
  conv_lhs => rw [resolveText, resolve, toList_resolveText, within_text (plain_resolve _ _)]
  rfl

/-! ### Detours -/

/-- Segments that lead back to where they begin: staying, written with a dot or not at all, or going
down to a plain name and up again. -/
inductive Detour : List Char → Prop
  | dot : Detour ['.']
  | nothing : Detour []
  | back {name : List Char} (plain : PlainName name) : Detour (name ++ ['/', '.', '.'])

/-- A text, and the same one with a detour at a slash behind its first segment. -/
inductive Lengthened : List Char → List Char → Prop
  | intro {before detour : List Char} (after : List Char) (passed : ∃ c ∈ before, c ≠ '/')
      (leadsBack : Detour detour) :
      Lengthened (before ++ '/' :: after) (before ++ '/' :: (detour ++ '/' :: after))

/-- **Spellings of a path**: texts that become the same when detours are put in or left out. -/
def Respelled : String → String → Prop :=
  Relation.EqvGen fun path path' => Lengthened path.toList path'.toList

theorem walk_detour {detour : List Char} (leadsBack : Detour detour) (names : List (List Char)) :
    walk names (segments detour) = names := by
  cases leadsBack with
  | dot => rfl
  | nothing => rfl
  | @back name plain =>
      have cut : segments (name ++ ['/', '.', '.']) = [name, ['.', '.']] :=
        Text.splitAt_append_cons plain.2.2.2 ['.', '.']
      rw [cut]
      show step (step names name) ['.', '.'] = names
      rw [step_of_plain plain]
      exact List.dropLast_concat

/-- What is behind the first segment does not change the root. -/
theorem hasDoubleSlash_append {before : List Char} (passed : ∃ c ∈ before, c ≠ '/')
    (after : List Char) : hasDoubleSlash (before ++ after) = hasDoubleSlash before := by
  obtain ⟨c, mem, other⟩ := passed
  match before with
  | [] => exact absurd mem List.not_mem_nil
  | [a] =>
      cases List.mem_singleton.mp mem
      simp [hasDoubleSlash, other]
  | [a, b] =>
      rcases List.mem_pair.mp mem with rfl | rfl
      · simp [hasDoubleSlash, other]
      · by_cases slash : a = '/' <;> simp [hasDoubleSlash, other, slash]
  | a :: b :: d :: more =>
      -- three characters decide
      by_cases first : a = '/' <;> by_cases second : b = '/' <;> by_cases third : d = '/' <;>
        simp [hasDoubleSlash, first, second, third]

/-- **A detour can be left out.** -/
theorem within_lengthened {s s' : List Char} (longer : Lengthened s s') (directory : Path) :
    within directory s' = within directory s := by
  obtain ⟨after, passed, leadsBack⟩ := longer
  rename_i before detour
  have absolute (t : List Char) : isAbsolute (before ++ t) = isAbsolute before := by
    obtain ⟨c, mem, -⟩ := passed
    rw [isAbsolute, isAbsolute, List.head?_append_of_ne_nil _ (List.ne_nil_of_mem mem)]
  have names (start : List (List Char)) :
      walk start (segments (before ++ '/' :: (detour ++ '/' :: after))) =
        walk start (segments (before ++ '/' :: after)) := by
    simp only [segments, Text.splitAt_append, walk_append]
    exact congrArg (walk · _) (walk_detour leadsBack _)
  rw [within, within, absolute, absolute, hasDoubleSlash_append passed,
    hasDoubleSlash_append passed, names, names]

/-- **Spellings of a path resolve to the same.** -/
theorem resolveText_congr {path path' : String} (respelled : Respelled path path')
    (root : String) : resolveText root path' = resolveText root path := by
  induction respelled with
  | rel path path' longer => rw [resolveText, resolve, within_lengthened longer]; rfl
  | refl path => rfl
  | symm path path' _ ih => exact ih.symm
  | trans path path' path'' _ _ ih ih' => exact ih'.trans ih

end Path

/-! ### The files of a session -/

namespace Diagnostic

/-- Each file has one group of reports. -/
theorem nodup_keys_ofOutput (root : String) (output : List Char) :
    (ofOutput root output).keys.Nodup := by
  rw [Grouping.keys, groups_ofOutput, List.map_map]
  exact (List.map_id _).symm ▸ nodup_eraseDups _

/-- A report is in the group of its file. -/
theorem located_mem_ofOutput {root : String} {output : List Char} {d : Diagnostic}
    (mem : d ∈ parseAll output) :
    located root d ∈ ((ofOutput root output).get? (d.file? root)).getD [] := by
  rw [getD_get?_ofOutput, (gathered_perm root (parseAll output) (d.file? root)).mem_iff]
  exact List.mem_map_of_mem (List.mem_filter.mpr ⟨mem, decide_eq_true rfl⟩)

end Diagnostic

namespace Session

theorem files_new (options : Options) (files : List String) (listeners : Listeners) :
    (new options files listeners).files =
      (files.map (Path.resolveText (new options files listeners).root)).eraseDups :=
  Snapshot.requested_eq _

/-- **The spellings of a file meet under one key.**  A path resolves to a canonical text, which
every root leaves as it is and which is the same for all spellings of the path; the root is any
text, so also one that was itself resolved against a working directory.  A session therefore has
each of its files once, another spelling of a file adds none, and the reports about a file stand in
its one group, however the checker spells it. -/
theorem meet_under_one_key (options : Options) (files : List String) (listeners : Listeners)
    (output : List Char) :
    let session := new options files listeners
    (∀ root path : String,
      Path.Canonical (Path.resolveText root path).toList ∧
      (∀ root', Path.resolveText root' (Path.resolveText root path) =
        Path.resolveText root path) ∧
      ∀ path', Path.Respelled path path' →
        Path.resolveText root path' = Path.resolveText root path) ∧
    session.files.Nodup ∧
    (Diagnostic.ofOutput session.root output).keys.Nodup ∧
    ∀ path path' : String, Path.Respelled path path' →
      (path ∈ files →
        Path.resolveText session.root path' ∈ session.files ∧
        (new options (files ++ [path']) listeners).files = session.files) ∧
      ∀ d ∈ Diagnostic.parseAll output, d.path? = some path' →
        Diagnostic.located session.root d ∈
          ((Diagnostic.ofOutput session.root output).get?
            (some (Path.resolveText session.root path))).getD [] := by
  intro session
  refine ⟨fun root path => ⟨Path.canonical_resolveText root path,
      fun root' => Path.resolveText_resolveText root' root path,
      fun path' respelled => Path.resolveText_congr respelled root⟩,
    ?nodup, Diagnostic.nodup_keys_ofOutput _ _, ?meet⟩
  case nodup =>
    rw [files_new]
    exact nodup_eraseDups _
  case meet =>
    intro path path' respelled
    have same := Path.resolveText_congr respelled session.root
    refine ⟨fun requested => ?_, fun d mem written => ?_⟩
    · have known : Path.resolveText session.root path' ∈
          files.map (Path.resolveText session.root) :=
        same ▸ List.mem_map_of_mem requested
      constructor
      · rw [files_new]
        exact List.mem_eraseDups.mpr known
      · rw [files_new, files_new, List.map_append, List.map_singleton]
        exact eraseDups_concat_of_mem known
    · have about : d.file? session.root = some (Path.resolveText session.root path) := by
        rw [Diagnostic.file?, written, Option.map_some, same]
      exact about ▸ Diagnostic.located_mem_ofOutput mem

/-- A file requested in two spellings and reported in a third. -/
theorem meet_under_one_key_thrice :
    let session := new { root := "/p/." } ["src/a.ts", "src/./a.ts"]
    let output := "src/x/..//a.ts(1,2): error TS1: m".toList
    let d : Diagnostic := ⟨some "src/x/..//a.ts", some ⟨1, 2⟩, .error, some 1, "m"⟩
    session.files = ["/p/src/a.ts"] ∧
    Path.Respelled "src/./a.ts" "src/x/..//a.ts" ∧ d ∈ Diagnostic.parseAll output ∧
    (new { root := "/p/." } ["src/a.ts", "src/./a.ts", "src/x/..//a.ts"]).files = session.files ∧
    Diagnostic.located session.root d ∈
      ((Diagnostic.ofOutput session.root output).get?
        (some (Path.resolveText session.root "src/./a.ts"))).getD [] := by
  intro session output d
  have passed : ∃ c ∈ "src".toList, c ≠ '/' := ⟨'s', by decide, by decide⟩
  have plain : PlainName ['x'] := by
    refine ⟨?_, ?_, ?_, ?_⟩ <;> decide
  have dot : Path.Respelled "src/a.ts" "src/./a.ts" :=
    .rel _ _ (.intro "a.ts".toList passed .dot)
  have slash : Path.Respelled "src/a.ts" "src//a.ts" :=
    .rel _ _ (.intro "a.ts".toList passed .nothing)
  have back : Path.Respelled "src//a.ts" "src/x/..//a.ts" :=
    .rel _ _ (.intro "/a.ts".toList passed (.back plain))
  have respelled := (dot.symm _ _).trans _ _ _ (slash.trans _ _ _ back)
  have mem : d ∈ Diagnostic.parseAll output := by decide +kernel
  obtain ⟨-, -, -, meet⟩ :=
    meet_under_one_key { root := "/p/." } ["src/a.ts", "src/./a.ts"] {} output
  obtain ⟨requests, reports⟩ := meet _ _ respelled
  exact ⟨by decide +kernel, respelled, mem, (requests (by decide)).2, reports d mem rfl⟩

end Session

end TypeVerdict
