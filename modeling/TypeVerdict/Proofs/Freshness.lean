import Mathlib.Data.List.Induction
import TypeVerdict.Proofs.Phases

/-!
# Snapshots are fresh

A watching session keeps the definitions of the files under test between passes, and it
gives them up when a new pass is announced.  So its chronicle, in which the events of
its log and the milestones of its course stand in one order, falls into stretches that
end with an announcement.  In a stretch that completes no pass nothing is collected.
In any other every file is asked once, when the first pass is complete, and each
snapshot of the stretch is that of the text of its own pass, over what the files
answered then (`Stretch`).  What happened before, in this stretch or in an earlier one,
is nowhere to be seen in it.

The definitions that a session keeps are exactly those of the stretch that its
chronicle ends with.  This is the invariant (`Chronicled`); it is maintained by every
action that succeeds.

## Main definitions

* `Moment`: an event or a milestone
* `Collects`: the part of a chronicle in which each file is asked once
* `Passes`, `Stretch`, `Fresh`: the passes behind a collection; a stretch between two
  announcements; a whole chronicle
* `Goes`: what happens between two worlds
* `Chronicled`: the invariant of a session that watches

## Main statements

* `collects_collectAll`: collecting asks each file once
* `Chronicled.finishPass`, `Chronicled.beginRerun`: completing a pass, and announcing one
* `fresh_start`: the chronicle of a watching session that succeeds is fresh
-/

namespace TypeVerdict.Session

variable {α : Type} {host : Host} {rounds : Nat} {root : String} {files : List String}
  {l : Listeners} {u v w : World}

/-! ### Chronicles -/

/-- One entry of a chronicle. -/
inductive Moment where
  /-- Something passed between the session and its surroundings. -/
  | asked (e : Event)
  /-- The session went through something by itself. -/
  | reached (m : Milestone)
deriving DecidableEq

namespace Moment

/-- A moment in which nothing is collected, no pass is complete or published, and none is
announced. -/
def isIdle : Moment → Bool
  | reached (.completed _) | asked (.collect _ _) => false
  | reached (.told notice) | asked (.notify _ notice) => notice = .started
  | _ => true

/-- A moment of a teardown. -/
def isTeardown : Moment → Bool
  | asked (.removeConfig _) | asked .terminate | reached (.entered .closed) => true
  | _ => false

theorem isIdle_of_isTeardown {m : Moment} (h : m.isTeardown = true) : m.isIdle = true := by
  unfold isTeardown at h
  split at h <;> first | rfl | cases h

/-- The event of a moment. -/
def event? : Moment → Option Event
  | asked e => some e
  | reached _ => none

/-- The milestone of a moment. -/
def milestone? : Moment → Option Milestone
  | asked _ => none
  | reached m => some m

end Moment

/-- What happened to a session, in order. -/
abbrev Chronicle := List Moment

/-- The events of a chronicle. -/
def Chronicle.log (c : Chronicle) : Log := c.filterMap Moment.event?

/-- The milestones of a chronicle. -/
def Chronicle.course (c : Chronicle) : List Milestone := c.filterMap Moment.milestone?

namespace Chronicle

@[simp] theorem log_append (c d : Chronicle) : log (c ++ d) = log c ++ log d :=
  List.filterMap_append

@[simp] theorem course_append (c d : Chronicle) : course (c ++ d) = course c ++ course d :=
  List.filterMap_append

@[simp] theorem log_nil : log [] = [] := rfl

@[simp] theorem course_nil : course [] = [] := rfl

@[simp] theorem log_cons_asked (e : Event) (c : Chronicle) : log (.asked e :: c) = e :: log c := rfl

@[simp] theorem log_cons_reached (m : Milestone) (c : Chronicle) : log (.reached m :: c) = log c :=
  rfl

@[simp] theorem course_cons_asked (e : Event) (c : Chronicle) :
    course (.asked e :: c) = course c := rfl

@[simp] theorem course_cons_reached (m : Milestone) (c : Chronicle) :
    course (.reached m :: c) = m :: course c := rfl

@[simp] theorem log_map_asked (log : Log) : Chronicle.log (log.map .asked) = log := by
  simp [Chronicle.log, List.filterMap_map, Function.comp_def, Moment.event?]

@[simp] theorem course_map_asked (log : Log) : Chronicle.course (log.map .asked) = [] := by
  simp [Chronicle.course, Moment.milestone?]

end Chronicle

/-- How telling something is written down: that it is due, and the call of the listener,
if there is one. -/
def telling (l : Listeners) (notice : Notice) : Chronicle :=
  .reached (.told notice) :: (l.heard notice).map .asked

/-- That a start is told is idle. -/
theorem isIdle_of_mem_telling_started {m : Moment} (mem : m ∈ telling l .started) :
    m.isIdle = true := by
  cases listener? : l.for? .started <;>
    simp [telling, Listeners.heard, listener?] at mem <;> rcases mem with rfl | rfl <;> rfl

/-! ### Freshness -/

/-- **Each file is asked once**, in order, beginning with a log, and answers; meanwhile
others may tear the session down.  The table keeps the files with definitions. -/
inductive Collects (host : Host) (root : String) :
    Log → List String → Chronicle → DefinitionTable → Prop where
  | nil (log : Log) : Collects host root log [] [] []
  | cons {log : Log} {path : String} {more : List String} {torn rest : Chronicle}
      {collected? : Option Collected} {table : DefinitionTable}
      (answer : (host.collect (log ++ [.collect root path]) path).ending = .returns collected?)
      (teardown : ∀ m ∈ torn, m.isTeardown = true)
      (others : Collects host root (log ++ .collect root path :: Chronicle.log torn) more rest
        table) :
      Collects host root log (path :: more) (.asked (.collect root path) :: (torn ++ rest))
        ((collected?.map fun c => (path, c.definitions)).toList ++ table)

/-- **The passes behind a collection**: every text is judged by the same table, and its
snapshot is published at once. -/
inductive Passes (root : String) (files : List String) (l : Listeners)
    (table : DefinitionTable) : Chronicle → Prop where
  | nil : Passes root files l table []
  | idle {c : Chronicle} {m : Moment} (before : Passes root files l table c)
      (idle : m.isIdle = true) : Passes root files l table (c ++ [m])
  | pass {c : Chronicle} {text : List Char} {snapshot : Snapshot}
      (before : Passes root files l table c)
      (judged : Snapshot.assemble (Diagnostic.ofOutput root text) files table = .ok snapshot) :
      Passes root files l table
        (c ++ .reached (.completed text) :: telling l (.published snapshot))

/-- **What happens between two announcements**, beginning with a log, and the definitions
that are known in the end. -/
inductive Stretch (host : Host) (root : String) (files : List String) (l : Listeners)
    (log : Log) : Option DefinitionTable → Chronicle → Prop where
  /-- No pass is complete, and nothing was collected. -/
  | waiting {c : Chronicle} (idle : ∀ m ∈ c, m.isIdle = true) :
      Stretch host root files l log none c
  /-- When the first pass is complete, the definitions are collected.  It is judged by
  them and published, unless the session was closed in the meantime; and so is every
  pass behind it. -/
  | collected {before collection after : Chronicle} {text : List Char} {table : DefinitionTable}
      {snapshot? : Option Snapshot} (idle : ∀ m ∈ before, m.isIdle = true)
      (collects : Collects host root (log ++ Chronicle.log before) files collection table)
      (judged : ∀ snapshot ∈ snapshot?,
        Snapshot.assemble (Diagnostic.ofOutput root text) files table = .ok snapshot)
      (dropped : snapshot? = none → .reached (.entered .closed) ∈ collection)
      (passes : Passes root files l table after) :
      Stretch host root files l log (some table)
        (before ++ .reached (.completed text) :: (collection ++
          (snapshot?.toList.flatMap fun s => telling l (.published s)) ++ after))

/-- **A chronicle is fresh**: it falls into stretches at the announcements of passes.  The
definitions are those that are known in the end. -/
inductive Fresh (host : Host) (root : String) (files : List String) (l : Listeners) :
    Option DefinitionTable → Chronicle → Prop where
  | first {table? : Option DefinitionTable} {c : Chronicle}
      (stretch : Stretch host root files l [] table? c) : Fresh host root files l table? c
  | rerun {old? table? : Option DefinitionTable} {c d : Chronicle}
      (before : Fresh host root files l old? c)
      (stretch : Stretch host root files l (Chronicle.log (c ++ telling l .rerun)) table? d) :
      Fresh host root files l table? (c ++ telling l .rerun ++ d)

/-! ### How a chronicle goes on -/

section Continue

variable {table : DefinitionTable} {table? : Option DefinitionTable} {c more : Chronicle}
  {log : Log} {text : List Char}

theorem Passes.append_idle (h : Passes root files l table c) (idle : ∀ m ∈ more, m.isIdle = true) :
    Passes root files l table (c ++ more) := by
  induction more using List.reverseRecOn with
  | nil => rwa [List.append_nil]
  | append_singleton more m ih =>
      rw [← List.append_assoc]
      exact .idle (ih fun m' mem => idle m' (by simp [mem])) (idle m (by simp))

namespace Stretch

/-- A stretch goes on with what is idle. -/
theorem append_idle (h : Stretch host root files l log table? c)
    (idle : ∀ m ∈ more, m.isIdle = true) : Stretch host root files l log table? (c ++ more) := by
  cases h with
  | waiting before =>
      exact .waiting fun m mem => (List.mem_append.mp mem).elim (before m) (idle m)
  | collected before collects judged dropped passes =>
      rw [List.append_assoc, List.cons_append, List.append_assoc]
      exact .collected before collects judged dropped (passes.append_idle idle)

/-- A stretch that has its definitions goes on with a pass. -/
theorem append_pass (h : Stretch host root files l log (some table) c) {snapshot : Snapshot}
    (judged : Snapshot.assemble (Diagnostic.ofOutput root text) files table = .ok snapshot) :
    Stretch host root files l log (some table)
      (c ++ .reached (.completed text) :: telling l (.published snapshot)) := by
  cases h with
  | collected before collects judged₁ dropped passes =>
      rw [List.append_assoc, List.cons_append, List.append_assoc]
      exact .collected before collects judged₁ dropped (passes.pass judged)

/-- A stretch that has no definitions goes on with its first pass. -/
theorem append_first (h : Stretch host root files l log none c) {collection : Chronicle}
    {snapshot? : Option Snapshot}
    (collects : Collects host root (log ++ Chronicle.log c) files collection table)
    (judged : ∀ snapshot ∈ snapshot?,
      Snapshot.assemble (Diagnostic.ofOutput root text) files table = .ok snapshot)
    (dropped : snapshot? = none → .reached (.entered .closed) ∈ collection) :
    Stretch host root files l log (some table) (c ++ .reached (.completed text) ::
      (collection ++ (snapshot?.toList.flatMap fun s => telling l (.published s)))) := by
  cases h with
  | waiting before =>
      rw [← List.append_nil (collection ++ _)]
      exact .collected before collects judged dropped .nil

end Stretch

namespace Fresh

theorem append_idle (h : Fresh host root files l table? c) (idle : ∀ m ∈ more, m.isIdle = true) :
    Fresh host root files l table? (c ++ more) := by
  cases h with
  | first stretch => exact .first (stretch.append_idle idle)
  | rerun before stretch =>
      rw [List.append_assoc]
      exact .rerun before (stretch.append_idle idle)

theorem append_pass (h : Fresh host root files l (some table) c) {snapshot : Snapshot}
    (judged : Snapshot.assemble (Diagnostic.ofOutput root text) files table = .ok snapshot) :
    Fresh host root files l (some table)
      (c ++ .reached (.completed text) :: telling l (.published snapshot)) := by
  cases h with
  | first stretch => exact .first (stretch.append_pass judged)
  | rerun before stretch =>
      rw [List.append_assoc]
      exact .rerun before (stretch.append_pass judged)

theorem append_first (h : Fresh host root files l none c) {collection : Chronicle}
    {snapshot? : Option Snapshot}
    (collects : Collects host root (Chronicle.log c) files collection table)
    (judged : ∀ snapshot ∈ snapshot?,
      Snapshot.assemble (Diagnostic.ofOutput root text) files table = .ok snapshot)
    (dropped : snapshot? = none → .reached (.entered .closed) ∈ collection) :
    Fresh host root files l (some table) (c ++ .reached (.completed text) ::
      (collection ++ (snapshot?.toList.flatMap fun s => telling l (.published s)))) := by
  cases h with
  | first stretch => exact .first (stretch.append_first collects judged dropped)
  | rerun before stretch =>
      rw [Chronicle.log_append] at collects
      rw [List.append_assoc]
      exact .rerun before (stretch.append_first collects judged dropped)

/-- **An announcement** begins a stretch without definitions. -/
theorem append_rerun (h : Fresh host root files l table? c) :
    Fresh host root files l none (c ++ telling l .rerun) := by
  have begun := Fresh.rerun h (.waiting (List.forall_mem_nil _))
  rwa [List.append_nil] at begun

end Fresh

end Continue

/-! ### What happens between two worlds -/

/-- **A chronicle leads from one world to another.**  It extends the log and the course,
the files stay as they are, and a session that is closed meanwhile is closed in it. -/
structure Goes (c : Chronicle) (u v : World) : Prop where
  log : v.log = u.log ++ Chronicle.log c
  course : v.course = u.course ++ Chronicle.course c
  root : v.session.root = u.session.root
  files : v.session.files = u.session.files
  listeners : v.session.listeners = u.session.listeners
  closing : v.session.phase = .closed →
    u.session.phase = .closed ∨ .reached (.entered .closed) ∈ c

namespace Goes

theorem refl (w : World) : Goes [] w w := ⟨by simp, by simp, rfl, rfl, rfl, Or.inl⟩

theorem trans {c d : Chronicle} (h₁ : Goes c u v) (h₂ : Goes d v w) : Goes (c ++ d) u w where
  log := by rw [h₂.log, h₁.log, Chronicle.log_append, List.append_assoc]
  course := by rw [h₂.course, h₁.course, Chronicle.course_append, List.append_assoc]
  root := h₂.root.trans h₁.root
  files := h₂.files.trans h₁.files
  listeners := h₂.listeners.trans h₁.listeners
  closing closed := by
    rcases h₂.closing closed with closed | mem
    · exact (h₁.closing closed).imp id (List.mem_append_left _)
    · exact Or.inr (List.mem_append_right _ mem)

/-- A question. -/
theorem asked (w : World) (e : Event) : Goes [.asked e] w { w with log := w.log ++ [e] } :=
  ⟨rfl, by simp, rfl, rfl, rfl, Or.inl⟩

/-- A milestone. -/
theorem reached (w : World) (m : Milestone) :
    Goes [.reached m] w { w with course := w.course ++ [m] } :=
  ⟨by simp, rfl, rfl, rfl, rfl, Or.inl⟩

/-- A change of the session that is written down nowhere. -/
theorem changed {w : World} {s : Session} (root : s.root = w.session.root)
    (files : s.files = w.session.files) (listeners : s.listeners = w.session.listeners)
    (phase : s.phase = w.session.phase) : Goes [] w { w with session := s } :=
  ⟨by simp, by simp, root, files, listeners, fun closed => Or.inl (phase.symm.trans closed)⟩

theorem of_release (h : Release u v) : ∃ torn : Chronicle,
    (∀ m ∈ torn, m.isTeardown = true) ∧ Goes torn u v ∧ v.session.table? = u.session.table? := by
  cases h with
  | close isOpen =>
      refine ⟨(if u.session.holdsProcess then [.asked .terminate] else []) ++
        [.reached (.entered .closed)], ?_, ⟨?_, ?_, rfl, rfl, rfl, fun _ => Or.inr (by simp)⟩,
        rfl⟩
      · cases u.session.holdsProcess <;> simp [Moment.isTeardown]
      · cases holds : u.session.holdsProcess <;> simp [World.closing, holds]
      · cases holds : u.session.holdsProcess <;> simp [World.closing]
  | clean =>
      refine ⟨(u.session.owedRemovals.map .removeConfig).map .asked, ?_, ⟨?_, ?_, rfl, rfl, rfl,
        Or.inl⟩, rfl⟩
      · simp [Moment.isTeardown]
      · rw [Chronicle.log_map_asked]
        rfl
      · rw [Chronicle.course_map_asked, List.append_nil]
        rfl

/-- **Teardowns** are written down as such. -/
theorem of_released (h : Released u v) : ∃ torn : Chronicle,
    (∀ m ∈ torn, m.isTeardown = true) ∧ Goes torn u v ∧ v.session.table? = u.session.table? := by
  induction h with
  | refl => exact ⟨[], by simp, refl u, rfl⟩
  | tail _ step ih =>
      obtain ⟨torn, teardown, goes, table⟩ := ih
      obtain ⟨more, teardown', goes', table'⟩ := of_release step
      refine ⟨torn ++ more, fun m mem => ?_, goes.trans goes', table'.trans table⟩
      exact (List.mem_append.mp mem).elim (teardown m) (teardown' m)

end Goes

/-- Waiting ends with the answer. -/
theorem exec_await_eq_ok {reply : Reply α} {x : α} (run : exec (await host reply) u = (.ok x, v)) :
    reply.ending = .returns x := by
  obtain ⟨_, v', -, run⟩ := exec_bind_eq_ok run
  cases ending : reply.ending with
  | returns answer =>
      rw [ending] at run
      cases run
      rfl
  | fails cause =>
      rw [ending] at run
      cases run
  | cancelled =>
      rw [ending] at run
      cases run

/-- **Telling something** is written down, with what others do meanwhile. -/
theorem goes_notify {notice : Notice} {r : Except Interruption Unit}
    (run : exec (notify host notice) u = (r, v)) :
    ∃ torn : Chronicle, (∀ m ∈ torn, m.isTeardown = true) ∧
      Goes (telling u.session.listeners notice ++ torn) u v ∧
      v.session.table? = u.session.table? := by
  rw [notify, exec_bind_ok (exec_reach _ _), exec_bind_ok (exec_current _)] at run
  dsimp only at run
  cases listener? : u.session.listeners.for? notice with
  | none =>
      have unheard : telling u.session.listeners notice = [.reached (.told notice)] := by
        simp [telling, Listeners.heard, listener?]
      rw [listener?] at run
      cases run
      rw [unheard]
      exact ⟨[], by simp, Goes.reached u _, rfl⟩
  | some listener =>
      have heard : telling u.session.listeners notice =
          [.reached (.told notice), .asked (.notify listener notice)] := by
        simp [telling, Listeners.heard, listener?]
      rw [listener?] at run
      dsimp only at run
      rw [exec_bind_ok (exec_record _ _), exec_bind_ok (exec_history _)] at run
      obtain ⟨torn, teardown, goes, table⟩ := Goes.of_released ((guides_await host _).of_exec run)
      rw [heard]
      exact ⟨torn, teardown, (Goes.reached u _).trans ((Goes.asked _ _).trans goes), table⟩

/-! ### Collecting -/

/-- Asking for one file is written down, with what others do meanwhile. -/
theorem goes_collectFile {path : String} {found? : Option Definitions}
    (run : exec (collectFile host path) u = (.ok found?, v)) :
    ∃ (torn : Chronicle) (collected? : Option Collected),
      (host.collect (u.log ++ [.collect u.session.root path]) path).ending = .returns collected? ∧
      found? = collected?.map (·.definitions) ∧ (∀ m ∈ torn, m.isTeardown = true) ∧
      Goes (.asked (.collect u.session.root path) :: torn) u v := by
  rw [collectFile, exec_bind_ok (exec_current u), exec_bind_ok (exec_record _ _),
    exec_bind_ok (exec_history _)] at run
  obtain ⟨collected?, v', waited, run⟩ := exec_bind_eq_ok run
  obtain ⟨torn, teardown, goes, -⟩ := Goes.of_released ((guides_await host _).of_exec waited)
  cases run
  exact ⟨torn, collected?, exec_await_eq_ok waited, rfl, teardown, (Goes.asked u _).trans goes⟩

/-- **Asking for one file after the other** is a collection, if all of them answer. -/
theorem collects_collectEach {paths : List String}
    {found : List (String × Except Interruption (Option Definitions))} {table : DefinitionTable}
    (run : exec (collectEach host paths) u = (.ok found, v)) (gathered : gather found = .ok table) :
    ∃ collection, Collects host u.session.root u.log paths collection table ∧
      Goes collection u v := by
  induction paths generalizing u found table with
  | nil =>
      cases run
      cases gathered
      exact ⟨[], .nil _, .refl _⟩
  | cons path more ih =>
      obtain ⟨r, u₁, run₁, run⟩ := exec_bind_eq_ok run
      obtain ⟨rest, u₂, run₂, run⟩ := exec_bind_eq_ok run
      cases run
      rcases asked : exec (collectFile host path) u with ⟨e | found?, u'⟩
      all_goals
        rw [exec_attempt, asked] at run₁
        cases run₁
      · cases gathered
      · obtain ⟨others, answered, rfl⟩ : ∃ others, gather rest = .ok others ∧
            table = (found?.map (path, ·)).toList ++ others := by
          simp only [gather] at gathered
          cases rest' : gather rest with
          | error e =>
              rw [rest'] at gathered
              cases gathered
          | ok others =>
              rw [rest'] at gathered
              cases found? <;> (cases gathered; exact ⟨_, rfl, rfl⟩)
        obtain ⟨torn, collected?, answer, rfl, teardown, goes⟩ := goes_collectFile asked
        obtain ⟨collection, collects, goes'⟩ := ih run₂ answered
        rw [goes.root, goes.log] at collects
        refine ⟨.asked (.collect u.session.root path) :: (torn ++ collection), ?_, goes.trans goes'⟩
        rw [Option.map_map]
        exact .cons answer teardown collects

/-- **Collecting asks each file once**, and the answers are what is known then. -/
theorem collects_collectAll {table : DefinitionTable}
    (run : exec (collectAll host) u = (.ok table, v)) :
    ∃ collection, Collects host u.session.root u.log u.session.files collection table ∧
      Goes collection u v ∧ v.session.table? = some table := by
  rw [collectAll, exec_bind_ok (exec_current u)] at run
  obtain ⟨found, m, run₁, run⟩ := exec_bind_eq_ok run
  rw [exec_bind, exec_ofExcept] at run
  cases gathered : gather found with
  | error e =>
      rw [gathered] at run
      cases run
  | ok table' =>
      rw [gathered] at run
      cases run
      obtain ⟨collection, collects, goes⟩ := collects_collectEach run₁ gathered
      have known : Goes [] m (m.knowing table) := .changed rfl rfl rfl rfl
      have goes := goes.trans known
      rw [List.append_nil] at goes
      exact ⟨collection, collects, goes, rfl⟩

/-- Judging changes nothing. -/
theorem exec_judge_eq_ok {diagnostics : Grouping (Option String) LocatedDiagnostic}
    {table : DefinitionTable} {snapshot : Snapshot}
    (run : exec (judge diagnostics table) u = (.ok snapshot, v)) :
    v = u ∧ Snapshot.assemble diagnostics u.session.files table = .ok snapshot := by
  rw [judge, exec_bind_ok (exec_current u)] at run
  cases judged : Snapshot.assemble diagnostics u.session.files table with
  | error cause =>
      rw [judged] at run
      cases run
  | ok snapshot' =>
      rw [judged] at run
      cases run
      exact ⟨rfl, rfl⟩

/-- **A snapshot is judged** by the definitions known before, or else by those that are
collected for it. -/
theorem goes_assembleFrom {diagnostics : Grouping (Option String) LocatedDiagnostic}
    {snapshot : Snapshot} (run : exec (assembleFrom host diagnostics) u = (.ok snapshot, v)) :
    ∃ table, Snapshot.assemble diagnostics u.session.files table = .ok snapshot ∧
      v.session.table? = some table ∧
      (u.session.table? = some table ∧ v = u ∨
      u.session.table? = none ∧ ∃ collection,
        Collects host u.session.root u.log u.session.files collection table ∧
        Goes collection u v) := by
  rw [assembleFrom, exec_bind_ok (exec_current u)] at run
  cases table? : u.session.table? with
  | some table =>
      rw [table?] at run
      obtain ⟨rfl, judged⟩ := exec_judge_eq_ok run
      exact ⟨table, judged, table?, Or.inl ⟨rfl, rfl⟩⟩
  | none =>
      rw [table?] at run
      obtain ⟨table, u', found, run⟩ := exec_bind_eq_ok run
      obtain ⟨rfl, judged⟩ := exec_judge_eq_ok run
      obtain ⟨collection, collects, goes, known⟩ := collects_collectAll found
      rw [goes.files] at judged
      exact ⟨table, judged, known, Or.inr ⟨rfl, collection, collects, goes⟩⟩

/-- Publishing a snapshot is written down when it is told. -/
theorem goes_publish {snapshot : Snapshot} {r : Except Interruption Unit}
    (run : exec (do publish snapshot; notify host (.published snapshot)) u = (r, v)) :
    ∃ torn : Chronicle, (∀ m ∈ torn, m.isTeardown = true) ∧
      Goes (telling u.session.listeners (.published snapshot) ++ torn) u v ∧
      v.session.table? = u.session.table? := by
  rw [publish, exec_bind_ok (exec_update _ _)] at run
  obtain ⟨torn, teardown, goes, table⟩ := goes_notify run
  have shown : Goes [] u { u with session := { u.session with snapshot } } :=
    .changed rfl rfl rfl rfl
  exact ⟨torn, teardown, shown.trans goes, table⟩

/-! ### The invariant -/

/-- **The chronicle of a session so far is fresh**, and the definitions it keeps are those
that its chronicle ends with. -/
structure Chronicled (host : Host) (root : String) (files : List String) (l : Listeners)
    (w : World) : Prop where
  root_eq : w.session.root = root
  files_eq : w.session.files = files
  listeners_eq : w.session.listeners = l
  fresh : ∃ c, Chronicle.log c = w.log ∧ Chronicle.course c = w.course ∧
    Fresh host root files l w.session.table? c

namespace Chronicled

/-- A part that may follow any chronicle so far maintains it. -/
theorem of_goes (h : Chronicled host root files l u) {more : Chronicle} (goes : Goes more u v)
    (follows : ∀ c, Chronicle.log c = u.log → Fresh host root files l u.session.table? c →
      Fresh host root files l v.session.table? (c ++ more)) : Chronicled host root files l v := by
  obtain ⟨c, log, course, fresh⟩ := h.fresh
  refine ⟨goes.root.trans h.root_eq, goes.files.trans h.files_eq,
    goes.listeners.trans h.listeners_eq, c ++ more, ?_, ?_, follows c log fresh⟩
  · rw [Chronicle.log_append, log, goes.log]
  · rw [Chronicle.course_append, course, goes.course]

/-- So does what is idle. -/
theorem of_idle (h : Chronicled host root files l u) {more : Chronicle}
    (idle : ∀ m ∈ more, m.isIdle = true) (goes : Goes more u v)
    (table : v.session.table? = u.session.table?) : Chronicled host root files l v := by
  refine h.of_goes goes fun c _ fresh => ?_
  rw [table]
  exact fresh.append_idle idle

/-- So do teardowns. -/
theorem of_released (h : Chronicled host root files l u) (released : Released u v) :
    Chronicled host root files l v := by
  obtain ⟨torn, teardown, goes, table⟩ := Goes.of_released released
  exact h.of_idle (fun m mem => Moment.isIdle_of_isTeardown (teardown m mem)) goes table

/-- **Announcing a pass** gives the definitions up and begins a stretch. -/
theorem beginRerun (h : Chronicled host root files l u) {r : Except Interruption Unit}
    (run : exec (Session.beginRerun host) u = (r, v)) : Chronicled host root files l v := by
  rw [Session.beginRerun, exec_bind_ok (exec_update _ _)] at run
  obtain ⟨torn, teardown, goes, table⟩ := goes_notify run
  have dropped : Goes [] u { u with session :=
      { u.session with rerunSeen := true, snapshot := .empty, table? := none } } :=
    .changed rfl rfl rfl rfl
  refine h.of_goes (dropped.trans goes) fun c _ fresh => ?_
  rw [table, List.nil_append, ← List.append_assoc, h.listeners_eq]
  exact fresh.append_rerun.append_idle fun m mem => Moment.isIdle_of_isTeardown (teardown m mem)

/-- **Completing a pass** of an open session publishes a fresh snapshot, or drops it
because the session was closed while definitions were collected for it. -/
theorem finishPass (h : Chronicled host root files l u) (isOpen : u.session.phase ≠ .closed)
    {text : List Char}
    (run : exec (Session.finishPass host text) u = (.ok (), v)) :
    Chronicled host root files l v := by
  rw [Session.finishPass, exec_bind_ok (exec_reach _ _), snapshotOf, bind_assoc,
    exec_bind_ok (exec_current _)] at run
  obtain ⟨snapshot, m, assembled, run⟩ := exec_bind_eq_ok run
  rw [exec_bind_ok (exec_current m)] at run
  have completed := Goes.reached u (.completed text)
  obtain ⟨table, judged, known, ⟨before, rfl⟩ | ⟨unknown, collection, collects, goes⟩⟩ :=
    goes_assembleFrom assembled
  all_goals
    dsimp only at judged
    rw [h.root_eq, h.files_eq] at judged
  · -- the definitions were known, so nobody could close the session meanwhile
    rw [if_neg isOpen] at run
    obtain ⟨torn, teardown, published, same⟩ := goes_publish run
    refine h.of_goes (completed.trans published) fun c _ fresh => ?_
    have before : u.session.table? = some table := before
    rw [before] at fresh
    rw [same, known, h.listeners_eq, List.singleton_append, ← List.cons_append,
      ← List.append_assoc]
    exact (fresh.append_pass judged).append_idle fun m mem =>
      Moment.isIdle_of_isTeardown (teardown m mem)
  · have unknown : u.session.table? = none := unknown
    have collects : Collects host u.session.root u.log u.session.files collection table := collects
    rw [h.root_eq, h.files_eq] at collects
    by_cases closed : m.session.phase = .closed
    · rw [if_pos closed] at run
      cases run
      have dropped : .reached (.entered .closed) ∈ collection :=
        (goes.closing closed).resolve_left isOpen
      refine h.of_goes (completed.trans goes) fun c log fresh => ?_
      rw [unknown] at fresh
      have first := @Fresh.append_first host root files l table c text fresh collection none
        (log ▸ collects) (by simp) fun _ => dropped
      rw [known]
      simpa using first
    · rw [if_neg closed] at run
      obtain ⟨torn, teardown, published, same⟩ := goes_publish run
      refine h.of_goes (completed.trans (goes.trans published)) fun c log fresh => ?_
      rw [unknown] at fresh
      have first := @Fresh.append_first host root files l table c text fresh collection
        (some snapshot) (log ▸ collects) (by simpa using judged) (by simp)
      have listeners : m.session.listeners = l := goes.listeners.trans h.listeners_eq
      rw [same, known, listeners]
      simpa using first.append_idle fun m mem => Moment.isIdle_of_isTeardown (teardown m mem)

/-- **Acting on the markers of a buffer** maintains it, if that succeeds. -/
theorem drain (h : Chronicled host root files l u)
    (run : exec (Session.drain host rounds) u = (.ok (), v)) : Chronicled host root files l v := by
  induction rounds generalizing u with
  | zero => cases run
  | succ rounds ih =>
      rw [Session.drain, exec_bind_ok (exec_current u)] at run
      split at run
      · cases run
        exact h
      · next isOpen =>
          split at run
          · cases run
            exact h
          · obtain ⟨_, m, begun, run⟩ := exec_bind_eq_ok run
            exact ih (h.beginRerun begun) run
          · next output left _ =>
              rw [exec_bind_ok (exec_update _ u)] at run
              obtain ⟨_, m, finished, run⟩ := exec_bind_eq_ok run
              have cut : Goes [] u { u with session :=
                  { u.session with buffer := left, rerunSeen := false } } :=
                .changed rfl rfl rfl rfl
              exact ih ((h.of_idle (by simp) cut rfl).finishPass isOpen finished) run

/-- So does feeding a piece of output. -/
theorem feed (h : Chronicled host root files l u) {piece : List Char}
    (run : exec (Session.feed host rounds piece) u = (.ok (), v)) :
    Chronicled host root files l v := by
  rw [Session.feed, exec_bind_ok (exec_update _ u)] at run
  have fed : Goes [] u { u with session :=
      { u.session with buffer := u.session.buffer ++ piece } } := .changed rfl rfl rfl rfl
  exact (h.of_idle (by simp) fed rfl).drain run

/-- Asking something that is not about definitions maintains it. -/
theorem asked (h : Chronicled host root files l u) {e : Event}
    (idle : (Moment.asked e).isIdle = true) :
    Chronicled host root files l { u with log := u.log ++ [e] } :=
  h.of_idle (by simpa using idle) (.asked u e) rfl

/-- Entering a phase maintains it. -/
theorem entering (h : Chronicled host root files l u) (phase : Phase) :
    Chronicled host root files l (u.entering phase) := by
  have entered : Goes [.reached (.entered phase)] u (u.entering phase) := by
    refine ⟨by simp [World.entering], rfl, rfl, rfl, rfl, fun closed => Or.inr ?_⟩
    have closed : phase = .closed := closed
    rw [closed]
    exact List.mem_singleton_self _
  exact h.of_idle (by simp [Moment.isIdle]) entered rfl

/-- Waiting maintains it, however it ends. -/
theorem await (h : Chronicled host root files l u) {reply : Reply α} {r : Except Interruption α}
    (run : exec (Session.await host reply) u = (r, v)) : Chronicled host root files l v :=
  h.of_released ((guides_await host reply).of_exec run)

/-- **Reading the output piece by piece** maintains it. -/
theorem follow {output : Output} {index : Nat} {pieces : List (Reply String)}
    (h : Chronicled host root files l u)
    (run : exec (Session.follow host rounds output index pieces) u = (.ok (), v)) :
    Chronicled host root files l v := by
  induction pieces generalizing u index with
  | nil => exact h.await run
  | cons reply more ih =>
      obtain ⟨stopped, u', asked, run⟩ := exec_bind_eq_ok run
      cases asked
      split at run
      · cases run
        exact h
      · obtain ⟨piece, m, waited, run⟩ := exec_bind_eq_ok run
        have read := (h.await waited).asked (e := .read index) rfl
        rw [exec_bind_ok (exec_record _ _), exec_bind_ok (exec_current _)] at run
        split at run
        · cases run
          exact read
        · obtain ⟨_, m', fed, run⟩ := exec_bind_eq_ok run
          exact ih (read.feed fed) run

/-- So does waiting for the exit. -/
theorem awaitExit (h : Chronicled host root files l u) {status : Int}
    (run : exec (Session.awaitExit host) u = (.ok status, v)) :
    Chronicled host root files l v := by
  rw [exec_awaitExit] at run
  rcases waited : exec (Session.await host (host.wait (u.log ++ [.wait])))
    { u with log := u.log ++ [.wait] } with ⟨e | status', m⟩
  all_goals rw [waited] at run
  · cases run
  · cases run
    have exited : Goes [] m m.exited := .changed rfl rfl rfl rfl
    exact ((h.asked (e := .wait) rfl).await waited).of_idle (by simp) exited rfl

/-- **A watching checker** that is followed to the end of its output maintains it. -/
theorem runChecker (h : Chronicled host root files l u) {output : Output}
    (isOpen : u.session.phase ≠ .closed)
    (watch : u.session.options.watch = true)
    (run : exec (Session.runChecker host rounds output) u = (.ok (), v)) :
    Chronicled host root files l v := by
  obtain ⟨_, m, told, run⟩ := exec_bind_eq_ok run
  have options : m.session.options = u.session.options := by
    simpa only [told] using (@Run.tellStart host u isOpen).options_eq
  obtain ⟨torn, teardown, goes, table⟩ := goes_notify told
  have started : Chronicled host root files l m := by
    refine h.of_idle (fun e mem => ?_) goes table
    rcases List.mem_append.mp mem with mem | mem
    · exact isIdle_of_mem_telling_started mem
    · exact Moment.isIdle_of_isTeardown (teardown e mem)
  rw [exec_bind_ok (exec_current m), if_pos (options ▸ watch)] at run
  obtain ⟨_, m', read, run⟩ := exec_bind_eq_ok run
  rw [exec_bind_ok (exec_current m')] at run
  split at run
  · cases run
    exact started.follow read
  · obtain ⟨status, m'', exited, run⟩ := exec_bind_eq_ok run
    cases run
    exact ((started.follow read).awaitExit exited).entering .done

theorem of_new (options : Options) (files : List String) (l : Listeners) :
    Chronicled host (new options files l).root (new options files l).files l
      ⟨new options files l, [], []⟩ :=
  ⟨rfl, rfl, rfl, [], rfl, rfl, .first (.waiting (List.forall_mem_nil _))⟩

/-- Launching maintains it, however it ends. -/
theorem launch : Guides (Preserves (Chronicled host root files l)) (Session.launch host) := by
  refine guides_launch (fun _ _ released h => h.of_released (.single released))
    (fun w e question other h => h.asked ?_)
    fun _ _ _ h => h.of_idle (by simp) (.changed rfl rfl rfl rfl) rfl
  cases e with
  | collect root path => exact absurd rfl (other root path)
  | notify => cases question
  | _ => rfl

end Chronicled

/-- **Snapshots are fresh and independent of history.**  Let a watching session run with
success, whatever its files are, whatever its checker writes, whatever the collector
answers from time to time, and whoever tears it down.  Then its log and its course are
those of a chronicle that is fresh: between two announcements of passes each file is
asked once, when the first pass is complete, and not at all if none is; and every
snapshot that is published is that of the text of its pass over these answers, and of
nothing else. -/
theorem fresh_start (host : Host) (rounds : Nat) (options : Options) (files : List String)
    (l : Listeners) (watch : options.watch = true) {w' : World}
    (run : exec (start host rounds) ⟨new options files l, [], []⟩ = (.ok (), w')) :
    ∃ c, Chronicle.log c = w'.log ∧ Chronicle.course c = w'.course ∧
      Fresh host (new options files l).root (new options files l).files l w'.session.table? c := by
  have starting := (@Chronicled.of_new host options files l).entering .starting
  rw [exec_start rfl] at run
  rcases launched : exec (launch host) (World.entering ⟨new options files l, [], []⟩ .starting)
    with ⟨(cause | _ | _) | output, v₀⟩
  all_goals rw [launched] at run
  · obtain ⟨_, _, -, run⟩ := exec_bind_eq_ok run
    cases run
  · cases run
  · cases run
  have ready := (Chronicled.launch.of_exec launched starting).entering .running
  dsimp only at run
  rcases ran : exec (runChecker host rounds output) (v₀.entering .running)
    with ⟨(cause | _ | _) | _, v⟩
  all_goals rw [ran] at run
  · obtain ⟨_, _, -, run⟩ := exec_bind_eq_ok run
    cases run
  · obtain ⟨_, _, -, run⟩ := exec_bind_eq_ok run
    cases run
  · cases run
  cases run
  have options : v₀.session.options = options := (Closing.launch.of_exec launched).options
  have watch : (v₀.entering .running).session.options.watch = true := options ▸ watch
  exact (ready.runChecker (by simp [World.entering]) watch ran).fresh

/-- A host whose collector finds nothing but a file without definitions, and even that
only after somebody heard of a new pass. -/
def renewing : Host :=
  { Host.quiet with
    spawn := fun _ => .pure { pieces := [.pure "b", .pure "b", .pure "ab"] }
    collect := fun log path => .pure <|
      if .notify "rerun" .rerun ∈ log then
        (Definitions.bare path).toOption.map fun d => ⟨d.forest, d.file, [], [], none⟩
      else none }

/-- Two passes before an announcement and one behind it take two collections. -/
theorem fresh_start_renewing :
    ∃ w', exec (start renewing 3)
        ⟨new .lettered ["/a.ts"] { rerun? := some "rerun" }, [], []⟩ = (.ok (), w') ∧
      w'.log.countP (fun e => e matches .collect _ _) = 2 ∧
      w'.course.countP (fun m => m matches .told (.published _)) = 3 ∧
      ∃ c, Chronicle.log c = w'.log ∧ Chronicle.course c = w'.course ∧
        Fresh renewing (new .lettered ["/a.ts"]).root ["/a.ts"] { rerun? := some "rerun" }
          w'.session.table? c := by
  have succeeds : (exec (start renewing 3)
      ⟨new .lettered ["/a.ts"] { rerun? := some "rerun" }, [], []⟩).1 = .ok () := by
    decide +kernel
  refine ⟨_, Prod.ext succeeds rfl, by decide +kernel, by decide +kernel, ?_⟩
  exact fresh_start renewing 3 .lettered ["/a.ts"] { rerun? := some "rerun" } rfl
    (Prod.ext succeeds rfl)

end TypeVerdict.Session
