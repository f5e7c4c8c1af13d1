import TypeVerdict.Proofs.Groups
import TypeVerdict.Proofs.Serving

/-!
# The outcome of a single run

A session that does not watch reads the whole output of its checker and then decides: if the
checker exited in an unusual way and reported nothing, the run is a failure, and otherwise the
reports make one snapshot.  Where the surroundings serve the session this is all that can
happen, so the decision fixes everything that can be seen of the run: its result, what was
asked and told and in which order, the state of the session and what becomes of the
configuration.

## Main definitions

* `Fatal`: an unusual status without a report
* `World.failed`, `World.succeeded`: the gist of either outcome

## Main statements

* `does_conclude_of_fatal`, `does_conclude`: what follows the exit of the checker
* `runs_to_exit`: a run up to there
* `exec_start_of_fatal`, `exec_start_of_not_fatal`: the two outcomes
* `outcome_of_single_run`: what a single run comes to
-/

namespace TypeVerdict

namespace Session

variable {host : Host} {tidied : Prop} {w : World} {change : Session → Session} {log : Log}
  {course : List Milestone} {executable config : String} {pieces : List String} {status : Int}
  {answers : String → Option Collected}

/-! ### The exit of the checker -/

/-- What a session asks, and tells, up to the exit of its checker. -/
def ran (s : Session) (executable config : String) : Log :=
  s.asked executable config ++ s.listeners.heard .started ++ [.wait]

/-- The world in which the checker of a new session has exited, if nobody else did
anything. -/
def World.atExit (s : Session) (executable config : String) : World where
  session := { s with phase := .running, config? := some config }
  log := s.ran executable config
  course := [.entered .starting, .entered .running, .told .started]

@[simp] theorem filter_heard (l : Listeners) (notice : Notice) :
    (l.heard notice).filter (!·.isIncidental) = l.heard notice := by
  cases h : l.for? notice <;> simp [Listeners.heard, h, Event.isIncidental]

@[simp] theorem filter_ran (s : Session) (executable config : String) :
    (s.ran executable config).filter (!·.isIncidental) = s.ran executable config := by
  have asked : (s.asked executable config).filter (!·.isIncidental) =
      s.asked executable config := rfl
  rw [ran, List.filter_append, List.filter_append, asked, filter_heard]
  rfl

@[simp] theorem removals_ran (s : Session) (executable config : String) :
    removals (s.ran executable config) = [] := by
  have asked : removals (s.asked executable config) = [] := rfl
  rw [ran, removals_append, removals_append, asked, removals_heard]
  rfl

/-- At the exit of its checker the session is open. -/
theorem Alike.isOpen_atExit {s : Session} (h : Alike tidied (.atExit s executable config) w) :
    w.session.phase ≠ .closed := by
  rw [h.reads (·.phase) fun _ _ => rfl]
  simp [World.atExit]

/-- Neither does collecting remove anything. -/
@[simp] theorem removals_map_collect (root : String) (paths : List String) :
    removals (paths.map (.collect root)) = [] := by
  simp [removals, Event.removed?]

@[simp] theorem filter_map_collect (root : String) (paths : List String) :
    (paths.map (Event.collect root)).filter (!·.isIncidental) =
      paths.map (Event.collect root) := by
  simp [List.filter_map, Function.comp_def, Event.isIncidental]

/-- A fatal exit: an unusual status, and no report in the output. -/
def Fatal (status : Int) (output : List Char) : Prop :=
  status ∉ [0, 1, 2] ∧ Diagnostic.parseAll output = []

/-- What a session asks about an exit is whether it was fatal: there is no group without a
report. -/
theorem fatal_iff (root : String) (status : Int) (output : List Char) :
    (!usualStatuses.contains status && (Diagnostic.ofOutput root output).groups.isEmpty) = true ↔
      Fatal status output := by
  have silent : (Diagnostic.ofOutput root output).groups.isEmpty = true ↔
      Diagnostic.parseAll output = [] := by
    rw [Diagnostic.groups_ofOutput]
    cases Diagnostic.parseAll output with
    | nil => simp
    | cons diagnostic more => simp [List.eraseDups_cons]
  rw [Bool.and_eq_true, silent]
  simp [Fatal, usualStatuses]

/-- **After a fatal exit nothing is done any more.** -/
theorem does_conclude_of_fatal {s : Session} {text : List Char} (fatal : Fatal status text)
    (alike : Alike tidied (.atExit s executable config) w) :
    Does tidied (conclude host text status) w
      (.error (.failure (.checkerExit s.options.checker status text))) id [] [] := by
  refine ⟨w, ?_, by simpa [World.extend] using Alike.refl w⟩
  have options : w.session.options = s.options := alike.reads (·.options) fun _ _ => rfl
  rw [conclude, exec_bind_ok (exec_current w)]
  simp only [if_neg alike.isOpen_atExit, options,
    if_pos ((fatal_iff w.session.root status text).mpr fatal)]
  exact exec_bind_error (exec_failWith _ w) _

/-- A session whose run has come to a snapshot. -/
def settled (snapshot : Snapshot) (s : Session) : Session := { s with phase := .done, snapshot }

/-- **After any other exit** the snapshot of the output is published. -/
theorem does_conclude (serves : host.Serves tidied executable config pieces status answers)
    {s : Session} (uncollected : s.table? = none) {text : List Char} (mild : ¬ Fatal status text)
    {snapshot : Snapshot} (judged : Snapshot.assemble (Diagnostic.ofOutput s.root text) s.files
      (tableOf answers s.files) = .ok snapshot)
    (alike : Alike tidied (.atExit s executable config) w) :
    Does tidied (conclude host text status) w (.ok ())
      (fun t => settled snapshot { t with table? := some (tableOf answers s.files) })
      (s.files.map (.collect s.root) ++ s.listeners.heard (.published snapshot))
      [.entered .done, .told (.published snapshot)] := by
  have root : w.session.root = s.root := alike.reads (·.root) fun _ _ => rfl
  have files : w.session.files = s.files := alike.reads (·.files) fun _ _ => rfl
  have unknown : w.session.table? = none :=
    (alike.reads (·.table?) fun _ _ => rfl).trans uncollected
  obtain ⟨v, assembled, alike₁⟩ := does_assembleFrom serves unknown (by rwa [files])
  rw [root, files] at alike₁
  have isOpen : v.session.phase ≠ .closed := by
    rw [alike₁.reads (·.phase) fun _ _ => rfl]
    exact alike.isOpen_atExit
  have listeners : (v.extend (settled snapshot) [] [.entered .done]).session.listeners =
      s.listeners :=
    (alike₁.reads (·.listeners) fun _ _ => rfl).trans (alike.reads (·.listeners) fun _ _ => rfl)
  obtain ⟨v', told, alike₂⟩ := does_notify serves (.published snapshot)
    (v.extend (settled snapshot) [] [.entered .done])
  refine ⟨v', ?_, ?_⟩
  · rw [conclude, exec_bind_ok (exec_current w)]
    simp only [if_neg alike.isOpen_atExit, root,
      if_neg (mt (fatal_iff s.root status text).mp mild)]
    rw [exec_bind_ok assembled, exec_bind_ok (exec_current v)]
    simp only [if_neg isOpen]
    rw [publish, exec_bind_ok (exec_update _ _), exec_bind_ok (exec_enter _ _)]
    simpa [World.extend, World.entering, settled] using told
  · have done := alike₁.extend (settled snapshot) [] [.entered .done] (fun _ _ => rfl) rfl
    have heard := done.extend id (s.listeners.heard (.published snapshot))
      [.told (.published snapshot)] spares_id (removals_heard _ _)
    rw [listeners] at alike₂
    simpa [World.extend] using heard.trans alike₂

/-- **The checker of a single run is followed to its end**, and what comes of its output is
concluded. -/
theorem does_runChecker (serves : host.Serves tidied executable config pieces status answers)
    {output : Output} (written : List.Forall₂ (Reply.Yields tidied) output.pieces pieces)
    (ends : output.afterwards.Yields tidied ()) {w : World} (rounds : Nat)
    (single : w.session.options.watch = false) (writes : .terminate ∉ w.log)
    {r : Except Interruption Unit}
    (concludes : ∀ v, Alike tidied (w.extend (fun s => { s with holdsProcess := false })
        (w.session.listeners.heard .started ++ [.wait]) [.told .started]) v →
      Does tidied (conclude host (pieces.flatMap String.toList) status) v r change log course)
    (spares : Spares change) (unremoved : removals log = []) :
    Does tidied (runChecker host rounds output) w r
      (change ∘ fun s => { s with holdsProcess := false })
      (w.session.listeners.heard .started ++ [.wait] ++ log) ([.told .started] ++ course) := by
  obtain ⟨v₁, notified, alike₁⟩ := does_notify serves .started w
  have writes₁ : .terminate ∉ v₁.log := by
    rw [alike₁.mem_log_iff rfl]
    simpa [World.extend, Listeners.heard] using writes
  obtain ⟨v₂, read, alike₂⟩ := does_readAll serves.removes written ends writes₁ 0
  obtain ⟨v₃, exited, alike₃⟩ := does_awaitExit serves v₂
  have alike : Alike tidied (w.extend (fun s => { s with holdsProcess := false })
      (w.session.listeners.heard .started ++ [.wait]) [.told .started]) v₃ := by
    have told := alike₁.trans (by simpa [World.extend] using alike₂)
    have waited := told.extend (fun s => { s with holdsProcess := false }) [.wait] []
      (fun _ _ => rfl) rfl
    simpa [World.extend] using waited.trans alike₃
  obtain ⟨v, concluded, alike'⟩ := concludes v₃ alike
  refine ⟨v, ?_, ?_⟩
  · have single₁ : v₁.session.options.watch = false := by
      rw [alike₁.reads (·.options) fun _ _ => rfl]
      exact single
    rw [runChecker, exec_bind_ok notified, exec_bind_ok (exec_current v₁)]
    simp only [single₁, Bool.false_eq_true, if_false]
    rw [checkOnce_eq, exec_bind_ok read, exec_bind_ok exited, concluded]
  · simpa [World.extend] using (alike.extend change log course spares unremoved).trans alike'

/-! ### Whole runs -/

/-- **A stop of a session whose checker has exited** closes it and removes its
configuration. -/
theorem exec_stop_of_exited (removes : ∀ log, host.removeConfig log = none) {w : World}
    (isOpen : w.session.phase ≠ .closed) (exited : w.session.holdsProcess = false) :
    exec (stop host) w = (.ok (), (w.entering .closed).cleaned) := by
  have spent : { w.entering .closed with
      session := { (w.entering .closed).session with holdsProcess := false } } =
      w.entering .closed := by
    rw [World.entering, ← exited]
  rw [stop, exec_bind_ok (exec_current w)]
  simp only [if_neg isOpen]
  rw [exec_bind_ok (exec_current w), exec_bind_ok (exec_enter _ w), exec_bind_ok (exec_update _ _),
    spent]
  simp only [exited, Bool.false_eq_true, if_false]
  exact exec_clean_of_removes removes _

/-- The gist of a run that failed: nothing was collected or published, and the session was
closed. -/
def World.failed (s : Session) (executable config : String) : World where
  session := { s with phase := .closed }
  log := s.ran executable config
  course := [.entered .starting, .entered .running, .told .started, .entered .closed]

/-- The gist of a run with a snapshot, over some definitions: they were collected, and the
snapshot was published once. -/
def World.succeeded (s : Session) (executable config : String) (table : DefinitionTable)
    (snapshot : Snapshot) : World where
  session := { s with phase := .done, snapshot, table? := some table }
  log := s.ran executable config ++ s.files.map (.collect s.root) ++
    s.listeners.heard (.published snapshot)
  course := [.entered .starting, .entered .running, .told .started, .entered .done,
    .told (.published snapshot)]

/-- **A new session that does not watch runs to the exit of its checker**, and what comes of
that is what is concluded there. -/
theorem runs_to_exit (serves : host.Serves tidied executable config pieces status answers)
    {options : Options} (single : options.watch = false) (files : List String)
    (listeners : Listeners) (rounds : Nat) {r : Except Interruption Unit}
    (concludes : ∀ v, Alike tidied (.atExit (new options files listeners) executable config) v →
      Does tidied (conclude host (pieces.flatMap String.toList) status) v r change log course)
    (spares : Spares change) (unremoved : removals log = []) :
    ∃ output v v', exec (launch host)
        (World.entering ⟨new options files listeners, [], []⟩ .starting) = (.ok output, v) ∧
      exec (runChecker host rounds output) (v.entering .running) = (r, v') ∧
      Alike tidied ((World.atExit (new options files listeners) executable config).extend change
        log course) v' := by
  obtain ⟨output, written, ends, v, launches, alike⟩ := does_launch serves
    (w := World.entering ⟨new options files listeners, [], []⟩ .starting) rfl
  have running := alike.entering .running
  have single' : (v.entering .running).session.options.watch = false := by
    rw [running.reads (·.options) fun _ _ => rfl]
    exact single
  have writes : .terminate ∉ (v.entering .running).log := by
    rw [running.mem_log_iff rfl]
    simp [World.extend, World.entering, asked, spawning]
  have exits : Alike tidied (.atExit (new options files listeners) executable config)
      ((v.entering .running).extend (fun s => { s with holdsProcess := false })
        ((v.entering .running).session.listeners.heard .started ++ [.wait])
        [.told .started]) := by
    rw [running.reads (·.listeners) fun _ _ => rfl]
    have unremoved : removals (listeners.heard .started ++ [.wait]) = [] := by
      rw [removals_append, removals_heard]
      rfl
    have exited := running.extend (fun s => { s with holdsProcess := false })
      (listeners.heard .started ++ [.wait]) [.told .started] (fun _ _ => rfl) unremoved
    simpa [World.extend, World.entering, World.atExit, launched, ran, asked, spawning, new]
      using exited
  obtain ⟨v', run, alike'⟩ := does_runChecker serves written ends rounds single' writes
    (fun u alike'' => concludes u (exits.trans alike'')) spares unremoved
  refine ⟨output, v, v', launches, run,
    (exits.extend change log course spares unremoved).trans ?_⟩
  simpa [World.extend] using alike'

/-- **After a fatal exit a start fails**, and has given the configuration back. -/
theorem exec_start_of_fatal
    (serves : host.Serves tidied executable config pieces status answers) {options : Options}
    (single : options.watch = false) (files : List String) (listeners : Listeners)
    (rounds : Nat) (fatal : Fatal status (pieces.flatMap String.toList)) :
    ∃ w', exec (start host rounds) ⟨new options files listeners, [], []⟩ = (.error (.failure
        (.checkerExit options.checker status (pieces.flatMap String.toList))), w') ∧
      w'.gist = .failed (new options files listeners) executable config ∧
      w'.session.config? = none ∧ removals w'.log = [config].filter (· ≠ "") := by
  have concludes : ∀ v, Alike tidied (.atExit (new options files listeners) executable config) v →
      Does tidied (conclude host (pieces.flatMap String.toList) status) v (.error (.failure
        (.checkerExit options.checker status (pieces.flatMap String.toList)))) id [] [] :=
    fun _ => does_conclude_of_fatal fatal
  obtain ⟨output, v, v', launches, run, alike⟩ :=
    runs_to_exit serves single files listeners rounds concludes spares_id rfl
  have alike : Alike tidied (.atExit (new options files listeners) executable config) v' := by
    simpa [World.extend] using alike
  -- the failure tears the session down, which has only the configuration to give back by now
  have exited : v'.session.holdsProcess = false := alike.reads (·.holdsProcess) fun _ _ => rfl
  have stopped := exec_stop_of_exited serves.removes alike.isOpen_atExit exited
  have closed := alike.entering .closed
  refine ⟨(v'.entering .closed).cleaned, ?_, ?_, rfl, ?_⟩
  · rw [exec_start rfl, launches]
    dsimp only
    rw [run]
    exact exec_bind_ok stopped _
  · rw [(Alike.cleaned _ True trivial).gist, closed.gist]
    simp [World.gist, World.entering, World.atExit, World.failed, holding, new]
  · calc removals (v'.entering .closed).cleaned.log = (v'.entering .closed).removalsDue := by
          simp [World.cleaned, World.removalsDue]
      _ = [config].filter (· ≠ "") := by
          rw [closed.due]
          simp [World.removalsDue, World.entering, World.atExit, owedRemovals]

/-- **After any other exit a start succeeds**, and leaves the configuration where it is. -/
theorem exec_start_of_not_fatal
    (serves : host.Serves tidied executable config pieces status answers) {options : Options}
    (single : options.watch = false) (files : List String) (listeners : Listeners)
    (rounds : Nat) (mild : ¬ Fatal status (pieces.flatMap String.toList)) :
    ∃ w' snapshot, exec (start host rounds) ⟨new options files listeners, [], []⟩ = (.ok (), w') ∧
      Snapshot.assemble
          (Diagnostic.ofOutput (new options files listeners).root (pieces.flatMap String.toList))
          (new options files listeners).files
          (tableOf answers (new options files listeners).files) = .ok snapshot ∧
      w'.gist = .succeeded (new options files listeners) executable config
        (tableOf answers (new options files listeners).files) snapshot ∧
      w'.removalsDue = [config].filter (· ≠ "") ∧
      (¬ tidied → w'.session.config? = some config ∧ removals w'.log = []) := by
  obtain ⟨snapshot, judged⟩ := Snapshot.exists_assemble
    (proper_tableOf serves (new options files listeners).files)
    (ready_new options files listeners).named
    (Diagnostic.ofOutput (new options files listeners).root (pieces.flatMap String.toList))
  obtain ⟨output, v, v', launches, run, alike⟩ :=
    runs_to_exit serves single files listeners rounds
      (fun _ => does_conclude serves rfl mild judged) (fun _ _ => rfl) (by simp)
  have due : v'.removalsDue = [config].filter (· ≠ "") := by
    rw [alike.due]
    simp [World.removalsDue, World.extend, World.atExit, owedRemovals, settled]
  refine ⟨v', snapshot, ?_, judged, ?_, due, fun still => ?_⟩
  · rw [exec_start rfl, launches]
    dsimp only
    rw [run]
  · rw [alike.gist]
    simp [World.gist, World.extend, World.atExit, World.succeeded, holding, new, settled]
  · -- what is due is still held, so it has not been removed
    have held : v'.session.config? = some config :=
      alike.config.resolve_right fun removed => still removed.1
    rw [World.removalsDue, owedRemovals, held] at due
    exact ⟨held, List.append_left_eq_self.mp due⟩

/-- **What a single run comes to.**  In surroundings that serve it, a session that does not
watch fails just if the exit is fatal: the status is unusual and the output, put together,
reports nothing.  Then it is closed without having collected or published anything, and the
configuration was removed.  Otherwise exactly one snapshot is published, after the start was
told: that of the output over what is known about the files under test.  The session is done and
shows the snapshot, and the configuration is not removed, unless others do it.  How the output
was cut into pieces makes no difference. -/
theorem outcome_of_single_run
    (serves : host.Serves tidied executable config pieces status answers) {options : Options}
    (single : options.watch = false) (files : List String) (listeners : Listeners)
    (rounds : Nat) :
    ∃ r w', exec (start host rounds) ⟨new options files listeners, [], []⟩ = (r, w') ∧
      (Fatal status (pieces.flatMap String.toList) →
        r = .error (.failure
          (.checkerExit options.checker status (pieces.flatMap String.toList))) ∧
        w'.gist = .failed (new options files listeners) executable config ∧
        w'.session.config? = none ∧ removals w'.log = [config].filter (· ≠ "")) ∧
      (¬ Fatal status (pieces.flatMap String.toList) →
        r = .ok () ∧
        ∃ snapshot, Snapshot.assemble
            (Diagnostic.ofOutput (new options files listeners).root
              (pieces.flatMap String.toList))
            (new options files listeners).files
            (tableOf answers (new options files listeners).files) = .ok snapshot ∧
          w'.gist = .succeeded (new options files listeners) executable config
            (tableOf answers (new options files listeners).files) snapshot ∧
          w'.removalsDue = [config].filter (· ≠ "") ∧
          (¬ tidied → w'.session.config? = some config ∧ removals w'.log = [])) := by
  by_cases fatal : Fatal status (pieces.flatMap String.toList)
  · obtain ⟨w', run, failed⟩ := exec_start_of_fatal serves single files listeners rounds fatal
    exact ⟨_, w', run, fun _ => ⟨rfl, failed⟩, fun mild => absurd fatal mild⟩
  · obtain ⟨w', snapshot, run, succeeded⟩ :=
      exec_start_of_not_fatal serves single files listeners rounds fatal
    exact ⟨_, w', run, fun deadly => absurd deadly fatal, fun _ => ⟨rfl, snapshot, succeeded⟩⟩

/-- A file that begins with a group. -/
def grouped : Collected where
  forest := ⟨#[
    { id := "f", name := "f", shape := .file "/a.ts" [1], file? := some 0 },
    { id := "s", name := "s", shape := .suite [], suite? := some 0, file? := some 0 }]⟩
  file := 0
  spans := [⟨0, 5, 1, by decide⟩]
  text := "s(f);".toList

theorem grouped_proper : grouped.definitions.Proper where
  file := ⟨_, rfl⟩
  spans span mem := by
    cases List.mem_singleton.mp mem
    exact ⟨[], rfl⟩
  map := ⟨_, rfl⟩

/-- What is known where only this file is. -/
def knownFile (path : String) : Option Collected := if path = "/a.ts" then some grouped else none

/-- A host whose checker writes some pieces of output and exits with a status, and who knows
one file. -/
def exiting (pieces : List String) (status : Int) : Host :=
  { Host.quiet with
    createConfig := fun _ => .pure "tsconfig.json"
    spawn := fun _ => .pure { pieces := pieces.map .pure }
    wait := fun _ => .pure status
    collect := fun _ path => .pure (knownFile path) }

theorem serves_exiting (pieces : List String) (status : Int) :
    (exiting pieces status).Serves False "" "tsconfig.json" pieces status knownFile where
  resolves _ := rfl
  configures _ := ⟨rfl, by simp [exiting, Reply.pure]⟩
  spawns _ := by
    refine ⟨_, ⟨rfl, by simp [exiting, Reply.pure]⟩, ?_, ⟨rfl, by simp [Reply.pure]⟩⟩
    exact List.forall₂_map_left_iff.mpr
      (List.forall₂_same.mpr fun _ _ => ⟨rfl, by simp [Reply.pure]⟩)
  waits _ := ⟨rfl, by simp [exiting, Reply.pure]⟩
  collects _ _ := ⟨rfl, by simp [exiting, Reply.pure]⟩
  listens _ _ _ := ⟨rfl, by simp [exiting, Host.quiet, Reply.pure]⟩
  removes _ := rfl
  proper path c known := by
    obtain ⟨-, rfl⟩ : path = "/a.ts" ∧ grouped = c := by simpa [knownFile] using known
    exact grouped_proper

/-- A session that runs once, with the file under test and a listener for everything. -/
def attended : Session :=
  new {} ["a.ts"] { started? := some "start", published? := some "end", rerun? := some "rerun" }

/-- The file after a report in its group. -/
def groupedReported : Record where
  forest := ⟨#[
    { id := "f", name := "f", shape := .file "/a.ts" [1], file? := some 0,
      result? := some ⟨.fail, none⟩ },
    { id := "s", name := "s", shape := .suite [2], suite? := some 0, file? := some 0,
      result? := some ⟨.fail, none⟩ },
    { id := "s_typecheck_1", name := "TS1: type error #1", shape := .typecheck, suite? := some 1,
      file? := some 0,
      result? := some ⟨.fail, some ⟨"TS1: m", [⟨"/a.ts", some 1, some 1⟩]⟩⟩ }]⟩
  file := 0

/-- Two exits with the same unusual status: after no output at all, and after a report that
came in two pieces. -/
theorem outcome_of_single_run_exiting :
    (∃ w', exec (start (exiting [] 3) 0) ⟨attended, [], []⟩ =
        (.error (.failure (.checkerExit "tsc" 3 [])), w') ∧
      w'.gist = .failed attended "" "tsconfig.json" ∧ removals w'.log = ["tsconfig.json"]) ∧
    ∃ w', exec (start (exiting ["a.ts(1,1): error", " TS1: m"] 3) 0) ⟨attended, [], []⟩ =
        (.ok (), w') ∧
      w'.gist = .succeeded attended "" "tsconfig.json" [("/a.ts", grouped.definitions)]
        ⟨[groupedReported], []⟩ ∧
      w'.session.config? = some "tsconfig.json" ∧ removals w'.log = [] := by
  have single : ({} : Options).watch = false := rfl
  constructor
  · obtain ⟨r, w', run, failed, -⟩ :=
      outcome_of_single_run (serves_exiting [] 3) single ["a.ts"] attended.listeners 0
    obtain ⟨rfl, gist, -, removed⟩ := failed ⟨by decide, by decide +kernel⟩
    exact ⟨w', run, gist, removed⟩
  · obtain ⟨r, w', run, -, succeeded⟩ := outcome_of_single_run
      (serves_exiting ["a.ts(1,1): error", " TS1: m"] 3) single ["a.ts"] attended.listeners 0
    have reported : Diagnostic.parseAll "a.ts(1,1): error TS1: m".toList ≠ [] := by
      decide +kernel
    obtain ⟨rfl, snapshot, judged, gist, -, kept⟩ := succeeded fun fatal => reported fatal.2
    -- the file is collected under its resolved path, and the report falls into its group
    have collected : tableOf knownFile attended.files = [("/a.ts", grouped.definitions)] := rfl
    have outcome : (Snapshot.assemble
        (Diagnostic.ofOutput attended.root "a.ts(1,1): error TS1: m".toList) attended.files
        [("/a.ts", grouped.definitions)]).toOption = some ⟨[groupedReported], []⟩ := by
      decide +kernel
    change Snapshot.assemble
      (Diagnostic.ofOutput attended.root "a.ts(1,1): error TS1: m".toList) attended.files
      (tableOf knownFile attended.files) = _ at judged
    change w'.gist = .succeeded attended _ _ (tableOf knownFile attended.files) snapshot at gist
    rw [collected] at judged gist
    rw [judged] at outcome
    obtain rfl : snapshot = ⟨[groupedReported], []⟩ := Option.some.inj outcome
    exact ⟨w', run, gist, kept id⟩

end Session

end TypeVerdict
