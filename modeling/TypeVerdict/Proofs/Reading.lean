import TypeVerdict.Command
import TypeVerdict.Proofs.Annotation
import TypeVerdict.Proofs.Collection
import TypeVerdict.Proofs.Spelling
import TypeVerdict.Proofs.Walks

/-!
# Which files can be collected

The collector of the command reads the files under test from the machine.  What it makes of a file
depends on where the walk along the path of the file lands.  At a file whose content is UTF-8 it
gives a record with the text (`Holds`); at a file with another content, at a directory and at a
name that stands for nothing it gives none, and the file has a bare record in every snapshot
(`Lacks`).  Everything else it refuses: a walk that gets behind a file, a name that is too long for
a file system, and a link too many (`Blocked`).

A refusal is enough for nothing to be collected at all, however readable the other files are.  So
the definitions can be collected exactly if no file under test is blocked
(`collected_unless_blocked`).  A file that is asked for below another file is blocked, although it
is as absent as one asked for below a directory (`not_collected_below_file`).

A tree does not say who may read a file, so all of this is about files that may be read.

## Main definitions

* `Collector.Holds`, `Collector.Lacks`, `Collector.Blocked`: what stands behind a path
* `Collector.textOnly`: the definitions of a file of which only the text is known
* `Collector.Tells`: the definitions that a snapshot judges a file by

## Main statements

* `blocked_or_holds_or_lacks`: one of these it is
* `collect_of_holds`, `collect_of_lacks`, `collect_of_blocked`: what the collector makes of it
* `answers_eq`: what the machine answers
* `collected_unless_blocked`: when the files under test are collected, and how they are reported
-/

namespace TypeVerdict

namespace Path

/-- A path that is written canonically has nothing to be tidied. -/
theorem tidy_text {p : Path} (plain : Plain p) : tidy (text p) = text p := by
  have absolute : isAbsolute (text p) = true := by
    rcases text_eq_or p with ⟨-, same⟩ | ⟨-, same⟩ <;> rw [same] <;> rfl
  have moving : (segments (text p)).filter (fun segment => segment ≠ [] ∧ segment ≠ ['.']) =
      p.names := by
    have named : (segments (Text.joinWith ['/'] p.names)).filter
        (fun segment => segment ≠ [] ∧ segment ≠ ['.']) = p.names := by
      rcases plain.segments_joinWith with ⟨none, empty⟩ | same
      · rw [empty, none]
        rfl
      · rw [same, List.filter_eq_self]
        intro name mem
        obtain ⟨nonempty, notDot, -⟩ := plain name mem
        simp [nonempty, notDot]
    rcases text_eq_or p with ⟨-, same⟩ | ⟨-, same⟩
    · rw [same, segments_cons_slash]
      exact named
    · rw [same, segments_cons_slash, segments_cons_slash]
      exact named
  rw [tidy, if_pos absolute, moving, hasDoubleSlash_text plain]
  rfl

end Path

namespace Collector

variable {t : FileTree} {directory : Place} {root path : List Char} {text : List Char}

/-! ### What stands behind a path -/

/-- **A text stands behind a path**: it leads to a file whose content is UTF-8. -/
def Holds (t : FileTree) (path text : List Char) : Prop :=
  ∃ content executable, t.LeadsTo path (.ok (.file content executable)) ∧
    Utf8.decode? content = some text

/-- **No text stands behind a path**: it leads to nothing, to a directory, or to a file whose
content is not UTF-8. -/
def Lacks (t : FileTree) (path : List Char) : Prop :=
  t.LeadsTo path (.error .notFound) ∨ t.LeadsTo path (.ok .directory) ∨
    ∃ content executable, t.LeadsTo path (.ok (.file content executable)) ∧
      Utf8.decode? content = none

/-- **A path is blocked**: it leads on behind a file, or to a name that is too long, or over a link
too many, or it is too long itself. -/
def Blocked (t : FileTree) (path : List Char) : Prop :=
  t.LeadsTo path (.error .notDirectory) ∨ t.LeadsTo path (.error .nameTooLong) ∨
    t.LeadsTo path (.error .tooManyLinks)

theorem Holds.not_blocked (holds : Holds t path text) : ¬ Blocked t path := by
  obtain ⟨content, executable, file, -⟩ := holds
  rintro (blocked | blocked | blocked) <;> cases file.unique blocked

theorem Lacks.not_blocked (lacks : Lacks t path) : ¬ Blocked t path := by
  rcases lacks with leads | leads | ⟨content, executable, leads, -⟩ <;>
    rintro (blocked | blocked | blocked) <;> cases leads.unique blocked

/-- The definitions of a file of which only the text is known, under a name for reports. -/
def textOnly (name path text : List Char) : Definitions where
  forest := Forest.insertFile {} {
    id := String.ofList name
    name := String.ofList name
    shape := .file (String.ofList path) [] }
  file := 0
  index := IndexMap.ofText (Text.normalizeBreaks text)

/-- **The definitions that a snapshot judges a file by**: those of its text, or bare ones. -/
def Tells (t : FileTree) (name : List Char) (path : String) (d : Definitions) : Prop :=
  (∃ text, Holds t path.toList text ∧ d = textOnly name path.toList text) ∨
    Lacks t path.toList ∧ Definitions.bare path = .ok d

/-- A path that a file under test can have: absolute, tidy, and without a null character. -/
structure Askable (path : List Char) : Prop where
  absolute : Path.isAbsolute path = true
  tidy : Path.tidy path = path
  clear : '\x00' ∉ path

theorem Askable.find_eq_iff (askable : Askable path) {r : Except LookupError Entry} :
    t.find directory path = r ↔ t.LeadsTo path r :=
  FileTree.find_eq_iff directory askable.absolute askable.clear

theorem Askable.ofList_ne_empty (askable : Askable path) : String.ofList path ≠ "" := by
  intro empty
  have nothing : path = [] := by simpa using congrArg String.toList empty
  have absolute := askable.absolute
  rw [nothing] at absolute
  cases absolute

/-- **A path is blocked, holds a text, or lacks one.** -/
theorem blocked_or_holds_or_lacks (t : FileTree) (path : List Char) :
    Blocked t path ∨ (∃ text, Holds t path text) ∨ Lacks t path := by
  rcases FileTree.leadsTo_cases t path with
    directory | ⟨content, executable, file⟩ | nothing | blocked
  · exact .inr (.inr (.inr (.inl directory)))
  · cases decoded : Utf8.decode? content with
    | none => exact .inr (.inr (.inr (.inr ⟨content, executable, file, decoded⟩)))
    | some text => exact .inr (.inl ⟨text, content, executable, file, decoded⟩)
  · exact .inr (.inr (.inl nothing))
  · exact .inl blocked

/-- A path that was resolved can be asked for. -/
theorem askable_resolveText {root path : String}
    (clear : '\x00' ∉ (Path.resolveText root path).toList) :
    Askable (Path.resolveText root path).toList where
  absolute := by
    rw [Path.toList_resolveText]
    rcases Path.text_eq_or (Path.resolve root.toList path.toList) with ⟨-, same⟩ | ⟨-, same⟩ <;>
      rw [same] <;> rfl
  tidy := by
    rw [Path.toList_resolveText]
    exact Path.tidy_text (Path.plain_resolve _ _)
  clear := clear

/-! ### What the collector makes of it -/

theorem readText_of_find (askable : Askable path) :
    readText t directory path = match t.find directory path with
      | .ok (.file content _) => .ok ((Utf8.decode? content).map Text.normalizeBreaks)
      | .ok _ | .error .notFound | .error .isDirectory => .ok none
      | .error .nullCharacter => .error .nullCharacter
      | .error cause => .error (.refused (.ofLookup cause) path) := by
  rw [readText, askable.tidy, FileTree.read]
  rcases t.find directory path with cause | entry
  · cases cause <;> rfl
  · cases entry <;> rfl

/-- **A text that stands behind a path** is collected, with its line breaks written alike. -/
theorem collect_of_holds (directory : Place) (root : List Char) (askable : Askable path)
    (holds : Holds t path text) :
    ∃ c, collect t directory root path = .ok (some c) ∧
      c.definitions = textOnly (nameOf directory root path) path text := by
  obtain ⟨content, executable, leads, decoded⟩ := holds
  have found : t.find directory path = .ok (.file content executable) :=
    askable.find_eq_iff.mpr leads
  have file : Task.ofFile (String.ofList (nameOf directory root path))
      (String.ofList (nameOf directory root path)) (String.ofList path) = .ok {
        id := String.ofList (nameOf directory root path)
        name := String.ofList (nameOf directory root path)
        shape := .file (String.ofList path) [] } := by
    rw [Task.ofFile, if_neg]
    simpa using askable.ofList_ne_empty
  rw [collect, readText_of_find askable, found]
  simp only [decoded, Option.map_some, bind, Except.bind, file]
  exact ⟨_, rfl, rfl⟩

/-- **Where no text stands**, nothing is collected. -/
theorem collect_of_lacks (directory : Place) (root : List Char) (askable : Askable path)
    (lacks : Lacks t path) :
    collect t directory root path = .ok none := by
  have read : readText t directory path = .ok none := by
    rw [readText_of_find askable]
    rcases lacks with nothing | directory | ⟨content, executable, file, decoded⟩
    · rw [askable.find_eq_iff.mpr nothing]
    · rw [askable.find_eq_iff.mpr directory]
    · rw [askable.find_eq_iff.mpr file]
      simp only [decoded, Option.map_none]
  rw [collect, read]
  rfl

/-- **A blocked path is refused.** -/
theorem collect_of_blocked (directory : Place) (root : List Char) (askable : Askable path)
    (blocked : Blocked t path) :
    ∃ e, collect t directory root path = .error e := by
  have refused : ∃ e, readText t directory path = .error e := by
    rw [readText_of_find askable]
    rcases blocked with leads | leads | leads
    all_goals
      rw [askable.find_eq_iff.mpr leads]
      exact ⟨_, rfl⟩
  obtain ⟨e, read⟩ := refused
  exact ⟨e, by rw [collect, read]; rfl⟩

/-- The collector answers for a path unless it is blocked. -/
theorem exists_collect_iff (directory : Place) (root : List Char) (askable : Askable path) :
    (∃ c?, collect t directory root path = .ok c?) ↔ ¬ Blocked t path := by
  constructor
  · rintro ⟨c?, answered⟩ blocked
    obtain ⟨e, refused⟩ := collect_of_blocked directory root askable blocked
    rw [answered] at refused
    cases refused
  · intro free
    rcases blocked_or_holds_or_lacks t path with blocked | ⟨text, holds⟩ | lacks
    · exact absurd blocked free
    · obtain ⟨c, collected, -⟩ := collect_of_holds directory root askable holds
      exact ⟨some c, collected⟩
    · exact ⟨none, collect_of_lacks directory root askable lacks⟩

end Collector

namespace Session

open Collector

variable {m : Machine} {tag : List Char} {u v w : World} {path : String}

/-! ### What the machine answers -/

theorem directory_after (m : Machine) (tag : List Char) (log : Log) :
    (Command.after tag m log).directory = m.directory := by
  have step (m : Machine) (e : Event) : (Command.afterEvent tag m e).directory = m.directory := by
    unfold Command.afterEvent
    split
    · split <;> rfl
    · split <;> rfl
    · rfl
  unfold Command.after
  induction log generalizing m with
  | nil => rfl
  | cons e log ih => rw [List.foldl_cons, ih, step]

/-- Being asked for a file changes no machine. -/
theorem after_collect (m : Machine) (tag : List Char) (log : Log) (root path : String) :
    Command.after tag m (log ++ [.collect root path]) = Command.after tag m log := by
  rw [Command.after, List.foldl_append]
  rfl

/-- The machine's answer for a file, in a world. -/
def answerOf (m : Machine) (tag : List Char) (w : World) (path : String) :
    Except Interruption (Option Collected) :=
  (collect (Command.after tag m w.log).tree m.directory w.session.root.toList path.toList).mapError
    fun e => .failure (Command.collectFailure e)

/-- A machine answers at once. -/
theorem exec_await_collect (m : Machine) (tag : List Char) (u v : World) (path : String) :
    exec (await (Command.host m tag) ((Command.host m tag).collect
      (u.log ++ [.collect u.session.root path]) path)) v = (answerOf m tag u path, v) := by
  rcases collected : collect (Command.after tag m u.log).tree m.directory u.session.root.toList
    path.toList with e | c?
  · have reply : (Command.host m tag).collect (u.log ++ [.collect u.session.root path]) path =
        { ending := .fails (Command.collectFailure e) } := by
      simp only [Command.host, after_collect, directory_after, List.getLast?_concat, collected]
    rw [reply, answerOf, collected]
    rfl
  · have reply : (Command.host m tag).collect (u.log ++ [.collect u.session.root path]) path =
        .pure c? := by
      simp only [Command.host, after_collect, directory_after, List.getLast?_concat, collected]
    rw [reply, answerOf, collected]
    rfl

/-- **What a machine answers** depends on what it has become when the first file is asked for. -/
theorem answers_eq {answers : Answers} (asks : Asks (Command.host m tag) w answers v) :
    answers = (answers.map Prod.fst).map fun path => (path, answerOf m tag w path) := by
  induction asks with
  | nil => rfl
  | @cons u m' v path answer rest asked _ ih =>
      rw [exec_await_collect] at asked
      cases asked
      have still : answerOf m tag { u with log := u.log ++ [.collect u.session.root path] } =
          answerOf m tag u := by
        funext path'
        rw [answerOf, answerOf, after_collect]
      rw [still] at ih
      rw [List.map_cons, List.map_cons, ← ih]

/-! ### The table of known files -/

theorem known_sublist (answers : Answers) :
    ((known answers).map Prod.fst).Sublist (answers.map Prod.fst) := by
  induction answers with
  | nil => exact .refl []
  | cons entry rest ih =>
      obtain ⟨path, e | _ | c⟩ := entry
      · exact ih.cons path
      · exact ih.cons path
      · exact ih.cons_cons path

section Lookup

variable {answer : String → Except Interruption (Option Collected)} {files : List String}

theorem known_cons_of_some {c : Collected} (collected : answer path = .ok (some c)) :
    known ((path :: files).map fun path => (path, answer path)) =
      (path, c.definitions) :: known (files.map fun path => (path, answer path)) := by
  rw [known, List.map_cons, collected, List.filterMap_cons]
  rfl

theorem known_cons_of_none (uncollected : ∀ c, answer path ≠ .ok (some c)) :
    known ((path :: files).map fun path => (path, answer path)) =
      known (files.map fun path => (path, answer path)) := by
  rcases given : answer path with e | _ | c
  · rw [known, List.map_cons, given]
    rfl
  · rw [known, List.map_cons, given]
    rfl
  · exact absurd given (uncollected c)

theorem lookup_known_of_some {c : Collected} (collected : answer path = .ok (some c))
    (mem : path ∈ files) :
    (known (files.map fun path => (path, answer path))).lookup path = some c.definitions := by
  induction files with
  | nil => cases mem
  | cons first more ih =>
      by_cases same : path = first
      · subst same
        rw [known_cons_of_some collected, List.lookup_cons_self]
      · have later := ih ((List.mem_cons.mp mem).resolve_left same)
        by_cases known? : ∃ c', answer first = .ok (some c')
        · obtain ⟨c', collected'⟩ := known?
          rw [known_cons_of_some collected', List.lookup_cons, beq_false_of_ne same]
          exact later
        · rw [known_cons_of_none (not_exists.mp known?)]
          exact later

theorem lookup_known_of_none (uncollected : ∀ c, answer path ≠ .ok (some c)) :
    (known (files.map fun path => (path, answer path))).lookup path = none := by
  induction files with
  | nil => rfl
  | cons first more ih =>
      by_cases known? : ∃ c', answer first = .ok (some c')
      · obtain ⟨c', collected'⟩ := known?
        have other : path ≠ first := by
          rintro rfl
          exact uncollected c' collected'
        rw [known_cons_of_some collected', List.lookup_cons, beq_false_of_ne other]
        exact ih
      · rw [known_cons_of_none (not_exists.mp known?)]
        exact ih

end Lookup

/-! ### All files under test -/

/-- What is known stems from an answer. -/
theorem exists_of_mem_known {answers : Answers} {d : Definitions}
    (mem : (path, d) ∈ known answers) :
    ∃ c, (path, .ok (some c)) ∈ answers ∧ d = c.definitions := by
  obtain ⟨⟨path', e | _ | c⟩, answered, same⟩ := List.mem_filterMap.mp mem
  · cases same
  · cases same
  · cases same
    exact ⟨c, answered, rfl⟩

theorem exists_answerOf_iff (askable : Askable path.toList) :
    (∃ c?, answerOf m tag w path = .ok c?) ↔
      ¬ Blocked (Command.after tag m w.log).tree path.toList := by
  rw [← exists_collect_iff m.directory w.session.root.toList askable, answerOf]
  cases collect (Command.after tag m w.log).tree m.directory w.session.root.toList path.toList with
  | error e => exact iff_of_false (fun ⟨_, bad⟩ => by cases bad) (fun ⟨_, bad⟩ => by cases bad)
  | ok c? => exact iff_of_true ⟨c?, rfl⟩ ⟨c?, rfl⟩

theorem exists_answerOf_of_holds {text : List Char} (askable : Askable path.toList)
    (holds : Holds (Command.after tag m w.log).tree path.toList text) :
    ∃ c, answerOf m tag w path = .ok (some c) ∧ c.definitions =
      textOnly (nameOf m.directory w.session.root.toList path.toList) path.toList text := by
  obtain ⟨c, collected, same⟩ := collect_of_holds m.directory w.session.root.toList askable holds
  exact ⟨c, by rw [answerOf, collected]; rfl, same⟩

theorem answerOf_of_lacks (askable : Askable path.toList)
    (lacks : Lacks (Command.after tag m w.log).tree path.toList) :
    answerOf m tag w path = .ok none := by
  rw [answerOf, collect_of_lacks _ _ askable lacks]
  rfl

theorem proper_textOnly (name path text : List Char) : (textOnly name path text).Proper :=
  ⟨⟨[], rfl⟩, by simp [textOnly], ⟨⟨none⟩, rfl⟩⟩

/-- The answers for the files under test. -/
def answersOf (m : Machine) (tag : List Char) (w : World) : Answers :=
  w.session.files.map fun path => (path, answerOf m tag w path)

theorem exec_collectEach_machine (m : Machine) (tag : List Char) (w : World) :
    ∃ v, exec (collectEach (Command.host m tag) w.session.files) w =
      (.ok (found (answersOf m tag w)), v) := by
  obtain ⟨answers, v, asks, paths, run⟩ := exists_asks (Command.host m tag) w.session.files w
  have same : answers = answersOf m tag w := by
    rw [answersOf, ← paths]
    exact answers_eq asks
  exact ⟨v, same ▸ run⟩

/-- **Everything is collected** if no file is blocked, and nothing if one is. -/
theorem exists_collectAll_iff (askable : ∀ path ∈ w.session.files, Askable path.toList) :
    (∃ table v, exec (collectAll (Command.host m tag)) w = (.ok table, v)) ↔
      ∀ path ∈ w.session.files, ¬ Blocked (Command.after tag m w.log).tree path.toList := by
  obtain ⟨v, run⟩ := exec_collectEach_machine m tag w
  have answered_iff : Answered (answersOf m tag w) ↔
      ∀ path ∈ w.session.files, ¬ Blocked (Command.after tag m w.log).tree path.toList := by
    rw [Answered, answersOf, List.forall_mem_map]
    exact forall₂_congr fun path mem => exists_answerOf_iff (askable path mem)
  rw [← answered_iff]
  constructor
  · rintro ⟨table, v', collected⟩
    refine (answered_or_failsFirst _).resolve_right ?_
    rintro ⟨e, fails⟩
    rw [exec_collectAll_of_failsFirst run fails] at collected
    cases collected
  · intro all
    exact ⟨_, _, exec_collectAll_of_answered run all⟩

/-- What is collected are the answers of the machine, and they are known from then on. -/
theorem eq_known_of_collectAll {table : DefinitionTable}
    (collected : exec (collectAll (Command.host m tag)) w = (.ok table, v)) :
    table = known (answersOf m tag w) ∧ v.session.table? = some table := by
  obtain ⟨v', run⟩ := exec_collectEach_machine m tag w
  rcases answered_or_failsFirst (answersOf m tag w) with all | ⟨e, fails⟩
  · rw [exec_collectAll_of_answered run all] at collected
    cases collected
    exact ⟨rfl, rfl⟩
  · rw [exec_collectAll_of_failsFirst run fails] at collected
    cases collected

/-- A text that stands behind a path is in the table. -/
theorem lookup_known_of_holds {text : List Char} (askable : Askable path.toList)
    (mem : path ∈ w.session.files)
    (holds : Holds (Command.after tag m w.log).tree path.toList text) :
    (known (answersOf m tag w)).lookup path = some
      (textOnly (nameOf m.directory w.session.root.toList path.toList) path.toList text) := by
  obtain ⟨c, collected, same⟩ := exists_answerOf_of_holds askable holds
  rw [answersOf, lookup_known_of_some collected mem, same]

/-- A file without a text is not. -/
theorem lookup_known_of_lacks (askable : Askable path.toList)
    (lacks : Lacks (Command.after tag m w.log).tree path.toList) :
    (known (answersOf m tag w)).lookup path = none := by
  refine lookup_known_of_none fun c collected => ?_
  rw [answerOf_of_lacks askable lacks] at collected
  cases collected

/-- **The table tells of every file** that is not blocked. -/
theorem tells_of_gives {d : Definitions} (askable : Askable path.toList)
    (mem : path ∈ w.session.files)
    (free : ¬ Blocked (Command.after tag m w.log).tree path.toList)
    (gives : (known (answersOf m tag w)).Gives path d) :
    Tells (Command.after tag m w.log).tree
      (nameOf m.directory w.session.root.toList path.toList) path d := by
  rcases (blocked_or_holds_or_lacks _ _).resolve_left free with ⟨text, holds⟩ | lacks
  · have looked := lookup_known_of_holds askable mem holds
    rcases gives with known? | ⟨unknown, -⟩
    · rw [looked] at known?
      cases known?
      exact .inl ⟨text, holds, rfl⟩
    · rw [looked] at unknown
      cases unknown
  · have looked := lookup_known_of_lacks askable lacks
    rcases gives with known? | ⟨-, bare⟩
    · rw [looked] at known?
      cases known?
    · exact .inr ⟨lacks, bare⟩

/-- The definitions in the table take any diagnostics. -/
theorem proper_known (askable : ∀ path ∈ w.session.files, Askable path.toList) :
    DefinitionTable.Proper (known (answersOf m tag w)) := by
  rintro ⟨path, d⟩ mem
  obtain ⟨c, answered, rfl⟩ := exists_of_mem_known mem
  obtain ⟨path', requested, same⟩ := List.mem_map.mp answered
  obtain ⟨rfl, collected⟩ := Prod.mk.inj same
  have askable := askable path' requested
  have free := (exists_answerOf_iff askable).mp ⟨_, collected⟩
  rcases (blocked_or_holds_or_lacks _ _).resolve_left free with ⟨text, holds⟩ | lacks
  · obtain ⟨c', collected', textOnly⟩ := exists_answerOf_of_holds askable holds
    rw [collected] at collected'
    cases collected'
    rw [textOnly]
    exact proper_textOnly _ _ _
  · rw [answerOf_of_lacks askable lacks] at collected
    cases collected

/-- **Every file has a record** in every snapshot over the table, if no file is blocked. -/
theorem exists_assemble_telling (askable : ∀ path ∈ w.session.files, Askable path.toList)
    (free : ∀ path ∈ w.session.files, ¬ Blocked (Command.after tag m w.log).tree path.toList)
    (diagnostics : Grouping (Option String) LocatedDiagnostic) :
    ∃ snapshot,
      Snapshot.assemble diagnostics w.session.files (known (answersOf m tag w)) = .ok snapshot ∧
      List.Forall₂ (fun path r => ∃ d, Tells (Command.after tag m w.log).tree
          (nameOf m.directory w.session.root.toList path.toList) path d ∧ r.file = d.file ∧
          d.attachAll ((diagnostics.get? (some path)).getD []) = .ok r.forest)
        (Snapshot.requested w.session.files) snapshot.files := by
  have each : ∀ path ∈ Snapshot.requested w.session.files, ∃ r : Record,
      Snapshot.record diagnostics (known (answersOf m tag w)) path = .ok r ∧
      ∃ d, Tells (Command.after tag m w.log).tree
        (nameOf m.directory w.session.root.toList path.toList) path d ∧ r.file = d.file ∧
        d.attachAll ((diagnostics.get? (some path)).getD []) = .ok r.forest := by
    intro path mem
    have mem := Snapshot.mem_of_mem_requested mem
    have nonempty : path ≠ "" := by simpa using (askable path mem).ofList_ne_empty
    obtain ⟨r, recorded⟩ := Snapshot.exists_record (proper_known askable) diagnostics nonempty
    obtain ⟨d, gives, file, attached⟩ := Snapshot.exists_gives_of_record recorded
    exact ⟨r, recorded, d, tells_of_gives (askable path mem) mem (free path mem) gives, file,
      attached⟩
  obtain ⟨records, recorded, told⟩ := Except.exists_mapM each
  refine ⟨⟨records, Snapshot.sourceErrorsOf diagnostics (Snapshot.requested w.session.files)⟩, ?_,
    told⟩
  rw [Snapshot.assemble, recorded]
  rfl

/-- The files of a session can be asked for. -/
theorem askable_of_files {options : Options} {requested : List String} {l : Listeners}
    (files : w.session.files = (new options requested l).files)
    (clear : ∀ path ∈ w.session.files, '\x00' ∉ path.toList) :
    ∀ path ∈ w.session.files, Askable path.toList := by
  intro path mem
  have noNull := clear path mem
  rw [files, files_new, List.mem_eraseDups] at mem
  obtain ⟨text, -, rfl⟩ := List.mem_map.mp mem
  exact askable_resolveText noNull

/-- **The files under test are collected unless one of them is blocked.**  Let a session be about
some files whose paths have no null characters, and let its surroundings be a machine, at whatever
time.  Each file is blocked, or a text stands behind it, or none.  The definitions can be collected
exactly if no file is blocked.  Then the session knows just the files with a text, in order; and
over what it knows every list of diagnostics has a snapshot, in which a file with a text has the
record of its text and a file without one a bare record. -/
theorem collected_unless_blocked (m : Machine) (tag : List Char) (w : World) (options : Options)
    (requested : List String) (l : Listeners)
    (files : w.session.files = (new options requested l).files)
    (clear : ∀ path ∈ w.session.files, '\x00' ∉ path.toList) :
    let t := (Command.after tag m w.log).tree
    let name := fun path : String => nameOf m.directory w.session.root.toList path.toList
    (∀ path ∈ w.session.files, Blocked t path.toList ∨ (∃ text, Holds t path.toList text) ∨
      Lacks t path.toList) ∧
    ((∃ table v, exec (collectAll (Command.host m tag)) w = (.ok table, v)) ↔
      ∀ path ∈ w.session.files, ¬ Blocked t path.toList) ∧
    ∀ table v, exec (collectAll (Command.host m tag)) w = (.ok table, v) →
      v.session.table? = some table ∧ (table.map Prod.fst).Sublist w.session.files ∧
      (∀ path ∈ w.session.files,
        (∀ text, Holds t path.toList text →
          table.lookup path = some (textOnly (name path) path.toList text)) ∧
        (Lacks t path.toList → table.lookup path = none)) ∧
      ∀ diagnostics, ∃ snapshot,
        Snapshot.assemble diagnostics w.session.files table = .ok snapshot ∧
        List.Forall₂ (fun path r => ∃ d, Tells t (name path) path d ∧ r.file = d.file ∧
          d.attachAll ((diagnostics.get? (some path)).getD []) = .ok r.forest)
          (Snapshot.requested w.session.files) snapshot.files := by
  intro t name
  have askable := askable_of_files files clear
  refine ⟨fun path _ => blocked_or_holds_or_lacks t path.toList, exists_collectAll_iff askable, ?_⟩
  intro table v collected
  have free := (exists_collectAll_iff askable).mp ⟨table, v, collected⟩
  obtain ⟨rfl, stored⟩ := eq_known_of_collectAll collected
  refine ⟨stored, ?_, ?_, exists_assemble_telling askable free⟩
  · have paths : (answersOf m tag w).map Prod.fst = w.session.files := by
      simp [answersOf, Function.comp_def]
    exact paths ▸ known_sublist (answersOf m tag w)
  · intro path mem
    exact ⟨fun text => lookup_known_of_holds (askable path mem) mem,
      lookup_known_of_lacks (askable path mem)⟩

/-- A machine with one file. -/
def oneFile : Machine where
  tree := ⟨[(["a.ts".toList], .file [0x78] false)]⟩
  directory := []

theorem oneFile_leadsTo : oneFile.tree.LeadsTo "/a.ts".toList (.ok (.file [0x78] false)) := by
  rw [FileTree.LeadsTo, if_neg (by decide)]
  exact ⟨_, .single (.stay (.inl rfl)), .file ⟨by decide, by decide⟩ rfl⟩

/-- One file has a text, and another is missing: the first is collected, and both are reported. -/
theorem collected_unless_blocked_missing :
    (new {} ["a.ts", "b.ts"]).files = ["/a.ts", "/b.ts"] ∧
    Holds oneFile.tree "/a.ts".toList ['x'] ∧ Lacks oneFile.tree "/b.ts".toList ∧
    ∃ table v, exec (collectAll (Command.host oneFile [])) ⟨new {} ["a.ts", "b.ts"], [], []⟩ =
        (.ok table, v) ∧
      table.lookup "/a.ts" = some (textOnly "a.ts".toList "/a.ts".toList ['x']) ∧
      table.lookup "/b.ts" = none ∧
      ∃ snapshot, Snapshot.assemble {} ["/a.ts", "/b.ts"] table = .ok snapshot := by
  have files : (new {} ["a.ts", "b.ts"]).files = ["/a.ts", "/b.ts"] := by decide +kernel
  have holds : Holds oneFile.tree "/a.ts".toList ['x'] :=
    ⟨[0x78], false, oneFile_leadsTo, by decide⟩
  have lacks : Lacks oneFile.tree "/b.ts".toList := by
    left
    rw [FileTree.LeadsTo, if_neg (by decide)]
    exact ⟨_, .single (.stay (.inl rfl)), .nothing ⟨by decide, by decide⟩ rfl (by decide)⟩
  obtain ⟨-, possible, collected⟩ := collected_unless_blocked oneFile []
    ⟨new {} ["a.ts", "b.ts"], [], []⟩ {} ["a.ts", "b.ts"] {} rfl (by decide +kernel)
  have free : ∀ path ∈ ["/a.ts", "/b.ts"], ¬ Blocked oneFile.tree path.toList := by
    intro path mem
    rcases List.mem_pair.mp mem with rfl | rfl
    · exact holds.not_blocked
    · exact lacks.not_blocked
  obtain ⟨table, v, run⟩ := possible.mpr (by rw [files]; exact free)
  obtain ⟨-, -, told, assembled⟩ := collected table v run
  rw [files] at told assembled
  obtain ⟨snapshot, judged, -⟩ := assembled {}
  have first := (told "/a.ts" (by simp)).1 ['x'] holds
  exact ⟨files, holds, lacks, table, v, run, first, (told "/b.ts" (by simp)).2 lacks, snapshot,
    judged⟩

/-- **A file that is asked for below another file prevents the collection.**  It does not exist, but
neither it nor the file above it, which can be read, is collected. -/
theorem not_collected_below_file :
    ¬ ∀ (m : Machine) (tag : List Char) (w : World) (options : Options) (requested : List String)
      (l : Listeners), w.session.files = (new options requested l).files →
      (∀ path ∈ w.session.files, '\x00' ∉ path.toList) →
      ∃ table v, exec (collectAll (Command.host m tag)) w = (.ok table, v) := by
  intro always
  have files : (new {} ["a.ts", "a.ts/x"]).files = ["/a.ts", "/a.ts/x"] := by decide +kernel
  have clear : ∀ path ∈ (new {} ["a.ts", "a.ts/x"]).files, '\x00' ∉ path.toList := by
    decide +kernel
  have collected :=
    always oneFile [] ⟨new {} ["a.ts", "a.ts/x"], [], []⟩ {} ["a.ts", "a.ts/x"] {} rfl clear
  have free := (exists_collectAll_iff (askable_of_files rfl clear)).mp collected
  have blocked : Blocked oneFile.tree "/a.ts/x".toList := by
    left
    rw [FileTree.LeadsTo, if_neg (by decide)]
    exact ⟨_, .single (.stay (.inl rfl)), .behindFile ⟨by decide, by decide⟩ rfl (by decide)⟩
  exact free "/a.ts/x" (by rw [files]; simp) blocked

end Session

end TypeVerdict
