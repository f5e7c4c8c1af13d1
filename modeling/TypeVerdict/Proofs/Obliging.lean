import TypeVerdict.Proofs.Assembly
import TypeVerdict.Proofs.Disturbance

/-!
# Passes that run through

Listeners and collectors may fail, and they may tear the session down.  Where they
do neither, every step that a session takes for a pass ends with a result, and what
it leaves behind is known up to a disturbance (`Disturbed`): others may still give
up the configuration.

## Main definitions

* `Host.Obliging`: listeners and collectors return and leave the session open
* `Session.Ready`: an open session whose passes can have snapshots
* `Session.Reaches`: an action ends in a given world, up to a disturbance

## Main statements

* `Obliging.reaches_beginRerun`: what announcing a pass comes to
* `Obliging.reaches_finishPass`: what completing a pass comes to
-/

namespace TypeVerdict

open Session in
/-- Listeners and the collector return normally and do not close an open session,
and what is collected is what a collector promises.

Both are stated for the answers as the session waits for them, so others may tear
down what they like meanwhile as long as the session is still open afterwards. -/
structure Host.Obliging (host : Host) : Prop where
  /-- A listener that is told something in an open session. -/
  listens : ∀ (w : World) (listener : String) (notice : Notice), w.session.phase ≠ .closed →
    ∃ w', exec (await host (host.notify w.log listener notice)) w = (.ok (), w') ∧
      w'.session.phase ≠ .closed
  /-- The collector that is asked for a file in an open session. -/
  collects : ∀ (w : World) (path : String), w.session.phase ≠ .closed →
    ∃ collected? w', exec (await host (host.collect w.log path)) w = (.ok collected?, w') ∧
      w'.session.phase ≠ .closed ∧
      ∀ c : Collected, collected? = some c → c.definitions.Proper

/-- A host that answers at once: nothing fails, nothing is collected, and nobody does
anything meanwhile. -/
def Host.quiet : Host where
  resolveExecutable _ := .ok ""
  createConfig _ := .pure ""
  removeConfig _ := none
  spawn _ := .pure { pieces := [] }
  wait _ := .pure 0
  terminate _ := none
  collect _ _ := .pure none
  notify _ _ _ := .pure ()

/-- Options of a watching session with a letter for each marker. -/
def Options.lettered : Options :=
  { watch := true, markers := ⟨⟨"a", .ofPattern (.char 'a')⟩, ⟨"b", .ofPattern (.char 'b')⟩⟩ }

theorem Host.obliging_quiet : Host.quiet.Obliging where
  listens w _ _ isOpen := ⟨w, rfl, isOpen⟩
  collects w _ isOpen := ⟨none, w, rfl, isOpen, by simp⟩

namespace Session

variable {α : Type}

/-- An open session whose passes can have snapshots: every requested file has a
name, and the definitions collected so far are proper. -/
structure Ready (s : Session) : Prop where
  isOpen : s.phase ≠ .closed
  named : ∀ file ∈ s.files, file ≠ ""
  proper : ∀ table, s.table? = some table → DefinitionTable.Proper table

/-- An action ends with a result, the session is still open, and apart from what
others gave up meanwhile the world is a given one. -/
def Reaches (a : Act α) (w : World) (x : α) (v : World) : Prop :=
  ∃ w', exec a w = (.ok x, w') ∧ Disturbed v w' ∧ w'.session.phase ≠ .closed

/-- A disturbed session is as ready as before if it is open. -/
theorem Ready.of_disturbed {v w : World} (h : v.session.Ready) (disturbed : Disturbed v w)
    (isOpen : w.session.phase ≠ .closed) : w.session.Ready where
  isOpen := isOpen
  named := by
    rw [disturbed.frame]
    exact h.named
  proper := by
    rw [disturbed.frame]
    exact h.proper

/-- A new session is ready, whatever its files. -/
theorem ready_new (options : Options) (files : List String) (listeners : Listeners) :
    (Session.new options files listeners).Ready where
  isOpen := by simp [Session.new]
  named := by
    intro file mem
    obtain ⟨text, -, rfl⟩ := List.mem_map.mp (Snapshot.mem_of_mem_requested mem)
    exact Path.resolveText_ne_empty _ _
  proper := by simp [Session.new]

/-! ### Telling and collecting -/

variable {host : Host} {w : World}

theorem reaches_notify (obliging : host.Obliging) (isOpen : w.session.phase ≠ .closed)
    (notice : Notice) :
    Reaches (notify host notice) w () { w with course := w.course ++ [.told notice] } := by
  unfold notify Reaches
  rw [exec_bind_ok (exec_reach _ _), exec_bind_ok (exec_current _)]
  cases listener? : w.session.listeners.for? notice with
  | none => exact ⟨_, exec_pure _ _, Disturbed.refl _, isOpen⟩
  | some listener =>
      obtain ⟨w', run, isOpen'⟩ := obliging.listens
        ⟨w.session, w.log ++ [.notify listener notice], w.course ++ [.told notice]⟩
        listener notice isOpen
      have disturbed := (disturbed_await host _).of_exec run
      refine ⟨w', ?_, ⟨disturbed.frame, disturbed.closing⟩, isOpen'⟩
      simp only [exec_bind_ok (exec_record _ _), exec_bind_ok (exec_history _)]
      exact run

theorem reaches_collectFile (obliging : host.Obliging) (isOpen : w.session.phase ≠ .closed)
    (path : String) :
    ∃ found?, Reaches (collectFile host path) w found? w ∧
      ∀ d : Definitions, found? = some d → d.Proper := by
  obtain ⟨collected?, w', run, isOpen', proper⟩ := obliging.collects
    ⟨w.session, w.log ++ [.collect w.session.root path], w.course⟩ path isOpen
  have disturbed := (disturbed_await host _).of_exec run
  refine ⟨collected?.map (·.definitions),
    ⟨w', ?_, ⟨disturbed.frame, disturbed.closing⟩, isOpen'⟩, ?_⟩
  · unfold collectFile
    simp only [exec_bind_ok (exec_current _), exec_bind_ok (exec_record _ _),
      exec_bind_ok (exec_history _), exec_bind_ok run, exec_pure]
  · intro d hd
    obtain ⟨c, hc, rfl⟩ := Option.map_eq_some_iff.mp hd
    exact proper c hc

/-- Asking for one file after the other gathers to a proper table. -/
theorem reaches_collectEach (obliging : host.Obliging) (isOpen : w.session.phase ≠ .closed)
    (paths : List String) :
    ∃ found table, Reaches (collectEach host paths) w found w ∧
      gather found = .ok table ∧ DefinitionTable.Proper table := by
  induction paths generalizing w with
  | nil => exact ⟨[], [], ⟨w, rfl, Disturbed.refl w, isOpen⟩, rfl, by simp [DefinitionTable.Proper]⟩
  | cons path more ih =>
      obtain ⟨found?, ⟨w₁, run₁, disturbed₁, isOpen₁⟩, proper₁⟩ :=
        reaches_collectFile obliging isOpen path
      obtain ⟨rest, table, ⟨w₂, run₂, disturbed₂, isOpen₂⟩, gathered, proper₂⟩ := ih isOpen₁
      refine ⟨(path, .ok found?) :: rest,
        (found?.map (path, ·)).toList ++ table, ⟨w₂, ?_, disturbed₁.trans disturbed₂, isOpen₂⟩,
        ?_, ?_⟩
      · have run : exec (attempt (collectFile host path)) w = (.ok (.ok found?), w₁) := by
          rw [exec_attempt, run₁]
        rw [collectEach, exec_bind_ok run, exec_bind_ok run₂, exec_pure]
      · simp only [gather, gathered]
        cases found? <;> rfl
      · intro entry mem
        rcases List.mem_append.mp mem with mem | mem
        · obtain ⟨d, hd, rfl⟩ := Option.map_eq_some_iff.mp (Option.mem_toList.mp mem)
          exact proper₁ d hd
        · exact proper₂ entry mem

theorem Disturbed.knowing {u v : World} (h : Disturbed u v) (table : DefinitionTable) :
    Disturbed (u.knowing table) (v.knowing table) where
  frame := by
    simp only [World.knowing]
    rw [h.frame]
  closing := h.closing

theorem reaches_collectAll (obliging : host.Obliging) (isOpen : w.session.phase ≠ .closed) :
    ∃ table, Reaches (collectAll host) w table (w.knowing table) ∧
      DefinitionTable.Proper table := by
  obtain ⟨found, table, ⟨w', run, disturbed, isOpen'⟩, gathered, proper⟩ :=
    reaches_collectEach obliging isOpen w.session.files
  refine ⟨table, ⟨w'.knowing table, ?_, disturbed.knowing table, isOpen'⟩, proper⟩
  unfold collectAll
  rw [exec_bind_ok (exec_current w), exec_bind_ok run, gathered,
    exec_bind_ok (exec_ofExcept _ _), exec_bind_ok (exec_update _ _), exec_pure]
  rfl

/-! ### Passes -/

/-- Proper definitions give a snapshot, and judging by them changes nothing. -/
theorem exec_judge {v : World} (ready : v.session.Ready)
    (diagnostics : Grouping (Option String) LocatedDiagnostic) {table : DefinitionTable}
    (proper : DefinitionTable.Proper table) :
    ∃ snapshot, exec (judge diagnostics table) v = (.ok snapshot, v) := by
  obtain ⟨snapshot, hs⟩ := Snapshot.exists_assemble proper ready.named diagnostics
  refine ⟨snapshot, ?_⟩
  rw [judge, exec_bind_ok (exec_current _), hs]
  rfl

/-- The definitions that a pass is judged by: those known before, or new ones. -/
theorem reaches_assembleFrom (obliging : host.Obliging) (ready : w.session.Ready)
    (diagnostics : Grouping (Option String) LocatedDiagnostic) :
    ∃ snapshot table, Reaches (assembleFrom host diagnostics) w snapshot (w.knowing table) ∧
      DefinitionTable.Proper table := by
  unfold assembleFrom
  cases known : w.session.table? with
  | some table =>
      have same : w.knowing table = w := by
        rw [World.knowing, ← known]
      obtain ⟨snapshot, run⟩ := exec_judge ready diagnostics (ready.proper table known)
      refine ⟨snapshot, table, ⟨w, ?_, same ▸ Disturbed.refl w, ready.isOpen⟩,
        ready.proper table known⟩
      rw [exec_bind_ok (exec_current w), known, exec_bind_ok (exec_pure _ _)]
      exact run
  | none =>
      obtain ⟨table, ⟨w', run, disturbed, isOpen⟩, proper⟩ :=
        reaches_collectAll obliging ready.isOpen
      have ready' : (w.knowing table).session.Ready := ⟨ready.isOpen, ready.named, by
        rintro known' ⟨⟩
        exact proper⟩
      obtain ⟨snapshot, run'⟩ :=
        exec_judge (ready'.of_disturbed disturbed isOpen) diagnostics proper
      refine ⟨snapshot, table, ⟨w', ?_, disturbed, isOpen⟩, proper⟩
      rw [exec_bind_ok (exec_current w), known, exec_bind_ok run]
      exact run'

/-- The world in which a pass was announced and its listeners were told. -/
def World.announced (w : World) : World where
  session := { w.session with rerunSeen := true, snapshot := .empty, table? := none }
  log := w.log
  course := w.course ++ [.told .rerun]

/-- The world in which the text of a pass was judged by a table, and the snapshot
was published and told. -/
def World.published (w : World) (output : List Char) (table : DefinitionTable)
    (snapshot : Snapshot) : World where
  session := { w.session with table? := some table, snapshot }
  log := w.log
  course := w.course ++ [.completed output, .told (.published snapshot)]

/-- **Announcing a pass** drops what is out of date and tells the listeners. -/
theorem reaches_beginRerun (obliging : host.Obliging) (isOpen : w.session.phase ≠ .closed) :
    Reaches (beginRerun host) w () w.announced := by
  obtain ⟨w', run, disturbed, isOpen'⟩ := reaches_notify obliging
    (w := { w with session := { w.session with
      rerunSeen := true, snapshot := .empty, table? := none } }) isOpen .rerun
  refine ⟨w', ?_, disturbed, isOpen'⟩
  rw [beginRerun, exec_bind_ok (exec_update _ _)]
  exact run

/-- **Completing a pass** publishes the snapshot of its text and tells the
listeners. -/
theorem reaches_finishPass (obliging : host.Obliging) (ready : w.session.Ready)
    (output : List Char) :
    ∃ table snapshot,
      Reaches (finishPass host output) w () (w.published output table snapshot) ∧
      DefinitionTable.Proper table := by
  have ready₁ : ({ w with course := w.course ++ [.completed output] } : World).session.Ready :=
    ready
  obtain ⟨snapshot, table, ⟨w₁, run₁, disturbed₁, isOpen₁⟩, proper⟩ :=
    reaches_assembleFrom obliging ready₁ (Diagnostic.ofOutput w.session.root output)
  obtain ⟨w₂, run₂, disturbed₂, isOpen₂⟩ := reaches_notify obliging
    (w := { w₁ with session := { w₁.session with snapshot } }) isOpen₁ (.published snapshot)
  refine ⟨table, snapshot, ⟨w₂, ?_, Disturbed.trans ?_ disturbed₂, isOpen₂⟩, proper⟩
  · rw [finishPass, exec_bind_ok (exec_reach _ _)]
    rw [snapshotOf, bind_assoc, exec_bind_ok (exec_current _), exec_bind_ok run₁,
      exec_bind_ok (exec_current _), if_neg isOpen₁, publish, exec_bind_ok (exec_update _ _)]
    exact run₂
  · obtain ⟨-, course⟩ := disturbed₁.calm isOpen₁
    refine ⟨?_, Or.inl ⟨?_, ?_⟩⟩
    · simp only [World.published]
      rw [disturbed₁.frame]
      rfl
    · exact (disturbed₁.calm isOpen₁).1
    · simp [World.published, course, World.knowing]

end Session

end TypeVerdict
