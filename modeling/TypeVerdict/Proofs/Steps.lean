import TypeVerdict.Proofs.Disturbance
import TypeVerdict.Session.Lifecycle

/-!
# The steps of a session that runs

Between the places where a session gets hold of its configuration and its process and
the places where it enters a phase by itself, it does little: it asks the surroundings
something, takes up the text of a pass, changes what it knows about its passes, tells a
listener, and suffers what others do to it while it waits.  `Step` lists these, one
constructor each, with what the session makes sure of before: it tells something only
while it is open.

Every action that runs in between is a run of such steps, with whatever outcome.  So
what a step preserves is preserved by reading, by feeding and by completing passes, and
a fact about sessions that run is proved by one case for each step.  Where the order of
two steps matters that act on the same marker, and that the buffer calls for them, a move
(`Move`) puts them together; every action is a sequence of moves first, and a run of steps
because of that.

What is left are the places in between: launching, which only asks, waits and takes
(`guides_launch`), and following the checker, which is a run up to the exit and, in a
single run, another one from there (`Follows`).  Nothing else is known about the order in
which a session does these things, so a fact about whole sessions begins with
`exec_start` and `follows_runChecker`.

## Main definitions

* `Session.Step`: one step of a session that runs
* `Session.Run`: any number of steps
* `Session.Move`, `Session.Moves`: the steps on one marker put together
* `Session.Exits`: the checker is followed up to its exit
* `Session.Follows`: how following the checker goes

## Main statements

* `Moves.tell`, `Moves.assembleFrom`: telling something in an open session, and assembling a
  snapshot, are sequences of moves
* `Moves.follow`, `Moves.readAll`, `Run.follow`, `Run.readAll`: so is reading the output in
  either way, and it is a run
* `follows_runChecker`: how following a started checker goes
* `guides_launch`: what launching comes to, wherever it waits
* `exec_start`: how a whole session goes
-/

namespace TypeVerdict

/-- The calls by which a listener, if there is one, hears of a notice. -/
def Listeners.heard (l : Listeners) (notice : Notice) : Log :=
  (l.for? notice).toList.map (.notify · notice)

/-- The result that a session shows once it has told something. -/
def Notice.shown : Notice → Snapshot → Snapshot
  | .started, shown => shown
  | .published snapshot, _ => snapshot
  | .rerun, _ => .empty

/-- Events that are neither part of a teardown nor a notice: the session asks its
surroundings for something, or has read something. -/
def Event.isQuestion : Event → Bool
  | .removeConfig _ | .terminate | .notify _ _ => false
  | _ => true

namespace Session

/-- The world after a session has told something and shows what it told. -/
def World.telling (w : World) (notice : Notice) : World where
  session := { w.session with snapshot := notice.shown w.session.snapshot }
  log := w.log ++ w.session.listeners.heard notice
  course := w.course ++ [.told notice]

/-- **One step of a session that runs.** -/
inductive Step : World → World → Prop where
  /-- Others tear it down. -/
  | release {u v : World} (h : Release u v) : Step u v
  /-- It asks the surroundings something. -/
  | ask {w : World} (e : Event) (h : e.isQuestion = true) : Step w { w with log := w.log ++ [e] }
  /-- It takes up the text of a pass. -/
  | takeUp {w : World} (output : List Char) :
      Step w { w with course := w.course ++ [.completed output] }
  /-- It changes what it knows about its passes. -/
  | revise {w : World} (buffer : List Char) (rerunSeen : Bool)
      (table? : Option DefinitionTable) :
      Step w { w with session := { w.session with buffer, rerunSeen, table? } }
  /-- It tells something, which it does only while it is open. -/
  | tell {w : World} (notice : Notice) (isOpen : w.session.phase ≠ .closed) :
      Step w (w.telling notice)

/-- Any number of steps. -/
abbrev Run : World → World → Prop := Relation.ReflTransGen Step

/-! ### Moves -/

/-- The world after a session acted on the announcement of a pass. -/
def World.announcing (w : World) : World :=
  { w with session := { w.session with rerunSeen := true, table? := none } }.telling .rerun

/-- The world after a session took a complete pass off its buffer. -/
def World.completing (w : World) (output rest : List Char) : World where
  session := { w.session with buffer := rest, rerunSeen := false }
  log := w.log
  course := w.course ++ [.completed output]

/-- **One move of a session that runs**: a step, or the steps that act on one marker, which
the session takes only if its buffer calls for them. -/
inductive Move : World → World → Prop where
  /-- Others tear it down. -/
  | release {u v : World} (h : Release u v) : Move u v
  /-- It asks the surroundings something. -/
  | ask {w : World} (e : Event) (h : e.isQuestion = true) : Move w { w with log := w.log ++ [e] }
  /-- It keeps what was collected. -/
  | collect {w : World} (table : DefinitionTable) : Move w (w.knowing table)
  /-- More output comes in. -/
  | receive {w : World} (piece : List Char) :
      Move w { w with session := { w.session with buffer := w.session.buffer ++ piece } }
  /-- It tells something else than the announcement of a pass. -/
  | tell {w : World} (notice : Notice) (isOpen : w.session.phase ≠ .closed)
      (other : notice ≠ .rerun) : Move w (w.telling notice)
  /-- It acts on the announcement of a pass. -/
  | announce {w : World} (isOpen : w.session.phase ≠ .closed)
      (called : Segment.next w.session.options.markers w.session.rerunSeen w.session.buffer =
        .rerun) : Move w w.announcing
  /-- It takes up a complete pass. -/
  | complete {w : World} {output rest : List Char} (isOpen : w.session.phase ≠ .closed)
      (called : Segment.next w.session.options.markers w.session.rerunSeen w.session.buffer =
        .pass output rest) : Move w (w.completing output rest)

/-- Any number of moves. -/
abbrev Moves : World → World → Prop := Relation.ReflTransGen Move

/-- A move consists of steps. -/
theorem Run.of_move {u v : World} (h : Move u v) : Run u v := by
  cases h with
  | release h => exact .single (.release h)
  | ask e h => exact .single (.ask e h)
  | collect table => exact .single (.revise u.session.buffer u.session.rerunSeen (some table))
  | receive piece =>
      exact .single (.revise (u.session.buffer ++ piece) u.session.rerunSeen u.session.table?)
  | tell notice isOpen other => exact .single (.tell notice isOpen)
  | announce isOpen called =>
      have revised : Step u _ := .revise u.session.buffer true none
      exact .head revised (.single (.tell .rerun isOpen))
  | @complete output rest isOpen called =>
      have revised : Step u _ := .revise rest false u.session.table?
      exact .head revised (.single (.takeUp output))

theorem Run.of_moves {u v : World} (h : Moves u v) : Run u v :=
  Preorderly.of_steps (r := Move) (fun _ _ => Run.of_move) h

/-- **Telling something comes to a telling** and to what others do while the listener is
waited for; it begins before the result that goes with it is shown. -/
theorem guides_notify (host : Host) (w : World) (notice : Notice) :
    GuidesFrom Released (w.telling notice) (notify host notice) { w with session :=
      { w.session with snapshot := notice.shown w.session.snapshot } } := by
  rw [notify]
  refine .skip (exec_reach _ _) rfl (.skip (exec_current _) rfl ?_)
  cases listener? : w.session.listeners.for? notice with
  | none =>
      have unheard : w.session.listeners.heard notice = [] := by
        simp [Listeners.heard, listener?]
      rw [World.telling, unheard, List.append_nil]
      exact .of_end rfl .refl
  | some listener =>
      have heard : w.session.listeners.heard notice = [.notify listener notice] := by
        simp [Listeners.heard, listener?]
      dsimp only
      refine .skip (exec_record _ _) rfl (.skip (exec_history _) rfl ?_)
      rw [World.telling, heard]
      exact guides_await host _ _

theorem released_notify (host : Host) (w : World) (notice : Notice) :
    Released (w.telling notice) (exec (notify host notice) { w with session :=
      { w.session with snapshot := notice.shown w.session.snapshot } }).2 :=
  (guides_notify host w notice).last

namespace Moves

variable {α : Type} {host : Host}

theorem of_released {u v : World} (h : Released u v) : Moves u v :=
  h.lift id fun _ _ => .release

theorem await (reply : Reply α) : Guides Moves (Session.await host reply) :=
  (guides_await host reply).mono fun _ _ => of_released

theorem ask {e : Event} (h : e.isQuestion = true) : Guides Moves (record e) :=
  .atOnce fun _ => .single (.ask e h)

/-- **Telling something in an open session.** -/
theorem tell {w : World} (isOpen : w.session.phase ≠ .closed) {notice : Notice}
    (other : notice ≠ .rerun) :
    GuidesFrom Moves w (notify host notice) { w with session :=
      { w.session with snapshot := notice.shown w.session.snapshot } } :=
  .head (.single (.tell notice isOpen other))
    ((guides_notify host w notice).mono fun _ _ => of_released)

/-- The start can be told where nothing else is shown. -/
theorem tellStart {w : World} (isOpen : w.session.phase ≠ .closed) :
    GuidesFrom Moves w (notify host .started) w := tell isOpen (by simp)

/-! ### Collecting and assembling -/

theorem collectFile (path : String) : Guides Moves (Session.collectFile host path) := by
  refine .bind .current fun s => ?_
  refine .bind (ask (e := .collect s.root path) rfl) fun _ => ?_
  refine .bind .history fun _ => ?_
  exact .bind (await _) fun _ => .pure _

theorem collectEach (paths : List String) : Guides Moves (Session.collectEach host paths) := by
  induction paths with
  | nil => exact .pure _
  | cons path more ih =>
      refine .bind (collectFile path).attempt fun _ => ?_
      exact .bind ih fun _ => .pure _

theorem collectAll : Guides Moves (Session.collectAll host) := by
  refine .bind .current fun s => ?_
  refine .bind (collectEach _) fun _ => ?_
  refine .bind (.ofExcept _) fun table => ?_
  exact .bind (.atOnce fun w => .single (.collect table)) fun _ => .pure _

theorem judge (diagnostics : Grouping (Option String) LocatedDiagnostic)
    (table : DefinitionTable) : Guides Moves (Session.judge diagnostics table) := by
  refine .bind .current fun s => ?_
  split
  · exact .pure _
  · exact .failWith _

theorem assembleFrom (diagnostics : Grouping (Option String) LocatedDiagnostic) :
    Guides Moves (Session.assembleFrom host diagnostics) := by
  refine .bind .current fun s => ?_
  split
  · exact .bind (.pure _) (judge diagnostics)
  · exact .bind collectAll (judge diagnostics)

/-! ### Passes -/

/-- An announcement is acted on where the buffer calls for it. -/
theorem beginRerun {w : World} (isOpen : w.session.phase ≠ .closed)
    (called : Segment.next w.session.options.markers w.session.rerunSeen w.session.buffer =
      .rerun) : GuidesFrom Moves w (Session.beginRerun host) w := by
  rw [Session.beginRerun]
  have told := guides_notify host
    { w with session := { w.session with rerunSeen := true, table? := none } } .rerun
  exact .skip (exec_update _ w) rfl (.head (.single (.announce isOpen called))
    (told.mono fun _ _ => of_released))

/-- What follows when the text of a pass was taken up: it is judged, and published in an
open session. -/
theorem publishPass (output : List Char) :
    Guides Moves (do
      let snapshot ← Session.snapshotOf host output
      if (← Session.current).phase = .closed then return
      Session.publish snapshot
      Session.notify host (.published snapshot)) := by
  refine .bind (.bind .current fun _ => assembleFrom _) fun snapshot => ?_
  -- the session asks whether it is still open before it publishes
  refine fun w => .skip (exec_current w) rfl ?_
  split
  · exact .of_end rfl .refl
  · next isOpen => exact .skip (exec_update _ w) rfl (tell isOpen (by simp))

/-- A complete pass is taken off the buffer and finished where the buffer calls for it. -/
theorem finishPass {w : World} {output rest : List Char} (isOpen : w.session.phase ≠ .closed)
    (called : Segment.next w.session.options.markers w.session.rerunSeen w.session.buffer =
      .pass output rest) :
    GuidesFrom Moves w (Session.finishPass host output) { w with session :=
      { w.session with buffer := rest, rerunSeen := false } } :=
  .skip (exec_reach _ _) rfl (.head (.single (.complete isOpen called)) (publishPass output _))

theorem drain (rounds : Nat) : Guides Moves (Session.drain host rounds) := by
  induction rounds with
  | zero => exact .throw _
  | succ rounds ih =>
      intro w
      rw [Session.drain]
      refine .skip (exec_current w) rfl ?_
      split
      · exact .of_end rfl .refl
      · next isOpen =>
          split
          · exact .of_end rfl .refl
          · next called => exact (beginRerun isOpen called).bind fun _ => ih
          · next output rest called =>
              exact .skip (exec_update _ w) rfl ((finishPass isOpen called).bind fun _ => ih)

theorem feed (rounds : Nat) (piece : List Char) :
    Guides Moves (Session.feed host rounds piece) :=
  .bind (.atOnce fun _ => .single (.receive piece)) fun _ => drain rounds

/-! ### Reading -/

theorem hasStopped (output : Output) : Guides Moves (Session.hasStopped output) :=
  .bind .history fun _ => .pure _

theorem readAll (output : Output) (index : Nat) (pieces : List (Reply String)) :
    Guides Moves (Session.readAll host output index pieces) := by
  induction pieces generalizing index with
  | nil => exact .bind (await _) fun _ => .pure _
  | cons reply more ih =>
      refine .bind (hasStopped output) fun _ => .ite (.pure _) ?_
      refine .bind (await _) fun _ => ?_
      refine .bind (ask (e := .read index) rfl) fun _ => ?_
      exact .bind (ih _) fun _ => .pure _

theorem follow (rounds : Nat) (output : Output) (index : Nat) (pieces : List (Reply String)) :
    Guides Moves (Session.follow host rounds output index pieces) := by
  induction pieces generalizing index with
  | nil => exact await _
  | cons reply more ih =>
      refine .bind (hasStopped output) fun _ => .ite (.pure _) ?_
      refine .bind (await _) fun _ => ?_
      refine .bind (ask (e := .read index) rfl) fun _ => ?_
      refine .bind .current fun _ => .ite (.pure _) ?_
      exact .bind (feed _ _) fun _ => ih _

end Moves

namespace Run

variable {α : Type} {host : Host}

theorem of_released {u v : World} (h : Released u v) : Run u v :=
  h.lift id fun _ _ => .release

/-- Nothing that happens while a session runs changes its options. -/
theorem options_eq {u v : World} (h : Run u v) : v.session.options = u.session.options := by
  induction h with
  | refl => rfl
  | tail _ step ih =>
      rw [← ih]
      cases step with
      | release h => rw [h.disturbed.frame]
      | _ => rfl

theorem await (reply : Reply α) : Guides Run (Session.await host reply) :=
  (Moves.await reply).mono fun _ _ => of_moves

/-- Announcing a pass in an open session is a run, whether or not the buffer calls for it. -/
theorem beginRerun {w : World} (isOpen : w.session.phase ≠ .closed) :
    Run w (exec (Session.beginRerun host) w).2 := by
  have revised : Step w _ := .revise w.session.buffer true none
  rw [Session.beginRerun, exec_bind_ok (exec_update _ w)]
  exact .head revised (.head (.tell .rerun isOpen) (of_released (released_notify host _ .rerun)))

/-- So is completing one. -/
theorem finishPass (output : List Char) : Guides Run (Session.finishPass host output) :=
  .bind (.atOnce fun _ => .single (.takeUp output)) fun _ =>
    (Moves.publishPass output).mono fun _ _ => of_moves

/-- Telling the start is a run. -/
theorem tellStart {w : World} (isOpen : w.session.phase ≠ .closed) :
    Run w (exec (notify host .started) w).2 := of_moves (Moves.tellStart isOpen).last

theorem readAll (output : Output) (index : Nat) (pieces : List (Reply String)) :
    Guides Run (Session.readAll host output index pieces) :=
  (Moves.readAll output index pieces).mono fun _ _ => of_moves

theorem follow (rounds : Nat) (output : Output) (index : Nat) (pieces : List (Reply String)) :
    Guides Run (Session.follow host rounds output index pieces) :=
  (Moves.follow rounds output index pieces).mono fun _ _ => of_moves

end Run

/-! ### The exit -/

/-- The world after the process was waited for. -/
def World.exited (w : World) : World where
  session := { w.session with holdsProcess := false }
  log := w.log
  course := w.course

/-- After the process was waited for with success, it is no longer held. -/
theorem exec_awaitExit (host : Host) (u : World) :
    exec (awaitExit host) u =
      match exec (await host (host.wait (u.log ++ [.wait])))
        { u with log := u.log ++ [.wait] } with
      | (.ok status, m) => (.ok status, m.exited)
      | (.error e, m) => (.error e, m) := by
  rw [awaitExit, exec_bind_ok (exec_record _ _), exec_bind_ok (exec_history _), exec_bind]
  dsimp only
  rcases waited : exec (await host (host.wait (u.log ++ [.wait])))
    { u with log := u.log ++ [.wait] } with ⟨_ | status, m⟩
  · rw [waited]
  · rw [waited]
    rfl

/-- What follows the exit of a single run: its whole output makes one snapshot. -/
def conclude (host : Host) (text : List Char) (status : Int) : Act Unit := do
  let s ← current
  if s.phase = .closed then return
  let diagnostics := Diagnostic.ofOutput s.root text
  if !usualStatuses.contains status && diagnostics.groups.isEmpty then
    failWith (.checkerExit s.options.checker status text)
  let snapshot ← assembleFrom host diagnostics
  if (← current).phase = .closed then return
  publish snapshot
  enter .done
  notify host (.published snapshot)

theorem checkOnce_eq (host : Host) (output : Output) :
    checkOnce host output = (do
      let text ← readAll host output 0 output.pieces
      let status ← awaitExit host
      conclude host text status) := rfl

namespace Run

variable {host : Host}

/-- Waiting for the exit is a run, at whose end, if it succeeds, the process is no longer
held. -/
theorem awaitExit {u v : World} {r : Except Interruption Int}
    (run : exec (Session.awaitExit host) u = (r, v)) :
    (∃ e, r = .error e ∧ Run u v) ∨ ∃ status m, r = .ok status ∧ Run u m ∧ v = m.exited := by
  rw [exec_awaitExit] at run
  rcases waited : exec (Session.await host (host.wait (u.log ++ [.wait])))
    { u with log := u.log ++ [.wait] } with ⟨answer, m⟩
  have asked : Run u m := .head (.ask .wait rfl) ((await _).of_exec waited)
  rw [waited] at run
  cases answer with
  | error e =>
      cases run
      exact Or.inl ⟨e, rfl, asked⟩
  | ok status =>
      cases run
      exact Or.inr ⟨status, m, rfl, asked, rfl⟩

/-- **What follows the exit of a single run** is a run, which is interrupted if the session is
done; it is open then. -/
theorem conclude (text : List Char) (status : Int) (w : World) :
    Run w (exec (Session.conclude host text status) w).2 ∨
    ∃ m, Run w m ∧ m.session.phase ≠ .closed ∧
      Run (m.entering .done) (exec (Session.conclude host text status) w).2 := by
  rw [Session.conclude, exec_bind_ok (exec_current w)]
  split
  · exact Or.inl .refl
  · dsimp only
    split
    · exact Or.inl .refl
    · rcases assembled : exec (Session.assembleFrom host _) w with ⟨e | snapshot, m⟩
      all_goals
        have run : Run w m := of_moves ((Moves.assembleFrom _).of_exec assembled)
      · rw [exec_bind_error assembled]
        exact Or.inl run
      · rw [exec_bind_ok assembled, exec_bind_ok (exec_current m)]
        split
        · exact Or.inl run
        · next isOpen =>
            refine Or.inr ⟨m, run, isOpen, ?_⟩
            rw [publish, exec_bind_ok (exec_update _ m), exec_bind_ok (exec_enter _ _)]
            have done : (m.entering .done).session.phase ≠ .closed := by simp [World.entering]
            exact of_moves (Moves.tell done (by simp)).last

end Run

/-! ### The checker -/

/-- **The output is read to its end**: piece by piece, if the session watches, and it is
still open then. -/
def ReadThrough (host : Host) (rounds : Nat) (output : Output) (u v : World) : Prop :=
  if u.session.options.watch then
    exec (follow host rounds output 0 output.pieces) u = (.ok (), v) ∧ v.session.phase ≠ .closed
  else ∃ text, exec (readAll host output 0 output.pieces) u = (.ok text, v)

/-- **The started checker exits**: its start was told, its output was read to the end, and
then waiting for the process ended with a status. -/
def Exits (host : Host) (rounds : Nat) (output : Output) (u v : World) : Prop :=
  ∃ v₁ v₂ status, exec (notify host .started) u = (.ok (), v₁) ∧
    ReadThrough host rounds output v₁ v₂ ∧ exec (awaitExit host) v₂ = (.ok status, v)

/-- **How following a started checker goes**, by how far it comes. -/
inductive Follows (host : Host) (rounds : Nat) (output : Output) (u : World) :
    Except Interruption Unit → World → Prop where
  /-- It is over before the exit: it was interrupted, or the session was closed. -/
  | early {r : Except Interruption Unit} {v : World} (run : Run u v)
      (still : ∀ e, r = .error e → ∀ m, ¬ Exits host rounds output u m) :
      Follows host rounds output u r v
  /-- A single run is over before its snapshot is published.  If it was interrupted after
  the exit, then the session was open at the exit. -/
  | unpublished {r : Except Interruption Unit} {m v : World} (run : Run u m)
      (exits : Exits host rounds output u m.exited)
      (isOpen : ∀ e, r = .error e → m.session.phase ≠ .closed) (rest : Run m.exited v) :
      Follows host rounds output u r v
  /-- A single run is done and publishes its snapshot. -/
  | published {r : Except Interruption Unit} {m m' v : World} (run : Run u m)
      (exits : Exits host rounds output u m.exited) (rest : Run m.exited m')
      (isOpen : m'.session.phase ≠ .closed) (told : Run (m'.entering .done) v) :
      Follows host rounds output u r v
  /-- A watching session is done. -/
  | watched {m : World} (run : Run u m) (watch : u.session.options.watch = true)
      (exits : Exits host rounds output u m.exited) :
      Follows host rounds output u (.ok ()) (m.exited.entering .done)

section Follow

variable {host : Host} {rounds : Nat} {output : Output} {u v v₁ : World}
  {r : Except Interruption Unit}

/-- Once the start was told, it is early unless the output is read to its end and then the
process is waited for. -/
theorem Follows.early_of_told (told : exec (notify host .started) u = (.ok (), v₁))
    (run : Run u v) (still : ∀ v₂, ReadThrough host rounds output v₁ v₂ →
      ∀ status m, exec (awaitExit host) v₂ ≠ (.ok status, m)) :
    Follows host rounds output u r v := by
  refine .early run fun _ _ m => ?_
  rintro ⟨_, v₂, status, told', read, exited⟩
  rw [told] at told'
  cases told'
  exact still v₂ read status m exited

/-- It is early where waiting for the process is interrupted. -/
theorem Follows.early_of_waiting (told : exec (notify host .started) u = (.ok (), v₁))
    {v₂ : World} (reading : Run u v₂)
    (only : ∀ v', ReadThrough host rounds output v₁ v' → v' = v₂) {e : Interruption}
    (waited : exec (awaitExit host) v₂ = (.error e, v)) : Follows host rounds output u r v := by
  rcases Run.awaitExit waited with ⟨_, _, waiting⟩ | ⟨_, _, ok, _⟩
  · refine .early_of_told told (reading.trans waiting) fun v' through => ?_
    rw [only v' through, waited]
    rintro _ _ ok
    cases ok
  · cases ok

theorem follows_checkOnce (telling : Run u v₁)
    (told : exec (notify host .started) u = (.ok (), v₁))
    (single : v₁.session.options.watch ≠ true)
    (run : exec (checkOnce host output) v₁ = (r, v)) : Follows host rounds output u r v := by
  have readThrough {v₂ : World} : ReadThrough host rounds output v₁ v₂ ↔
      ∃ text, exec (readAll host output 0 output.pieces) v₁ = (.ok text, v₂) := by
    rw [ReadThrough, if_neg single]
  rw [checkOnce_eq] at run
  rcases read : exec (readAll host output 0 output.pieces) v₁ with ⟨e | text, v₂⟩
  · rw [exec_bind_error read] at run
    cases run
    have reading : Run u _ := telling.trans ((Run.readAll _ _ _).of_exec read)
    refine .early_of_told told reading fun v₂ through => ?_
    obtain ⟨_, ok⟩ := readThrough.mp through
    rw [read] at ok
    cases ok
  have reading : Run u v₂ := telling.trans ((Run.readAll _ _ _).of_exec read)
  rw [exec_bind_ok read] at run
  rcases waited : exec (awaitExit host) v₂ with ⟨e | status, v₃⟩
  · rw [exec_bind_error waited] at run
    cases run
    refine .early_of_waiting told reading (fun v' through => ?_) waited
    obtain ⟨_, same⟩ := readThrough.mp through
    rw [read] at same
    cases same
    rfl
  rw [exec_bind_ok waited] at run
  rcases Run.awaitExit waited with ⟨_, bad, _⟩ | ⟨_, m, _, waiting, rfl⟩
  · cases bad
  have exits : Exits host rounds output u m.exited :=
    ⟨v₁, v₂, status, told, readThrough.mpr ⟨text, read⟩, waited⟩
  have concluded := @Run.conclude host text status m.exited
  rw [run] at concluded
  rcases concluded with rest | ⟨m', rest, isOpen, told⟩
  · refine .unpublished (reading.trans waiting) exits (fun e bad closed => ?_) rest
    -- a closed session concludes nothing
    have closed : m.exited.session.phase = .closed := closed
    rw [conclude, exec_bind_ok (exec_current _), if_pos closed, bad] at run
    cases run
  · exact .published (reading.trans waiting) exits rest isOpen told

theorem follows_checkOnChange (telling : Run u v₁)
    (told : exec (notify host .started) u = (.ok (), v₁))
    (watch : v₁.session.options.watch = true)
    (run : exec (checkOnChange host rounds output) v₁ = (r, v)) :
    Follows host rounds output u r v := by
  have readThrough {v₂ : World} : ReadThrough host rounds output v₁ v₂ ↔
      exec (follow host rounds output 0 output.pieces) v₁ = (.ok (), v₂) ∧
        v₂.session.phase ≠ .closed := by
    rw [ReadThrough, if_pos watch]
  rw [checkOnChange] at run
  rcases read : exec (follow host rounds output 0 output.pieces) v₁ with ⟨e | _, v₂⟩
  · rw [exec_bind_error read] at run
    cases run
    have reading : Run u _ := telling.trans ((Run.follow _ _ _ _).of_exec read)
    refine .early_of_told told reading fun v₂ through => ?_
    have ok := (readThrough.mp through).1
    rw [read] at ok
    cases ok
  have reading : Run u v₂ := telling.trans ((Run.follow _ _ _ _).of_exec read)
  have only : ∀ v', ReadThrough host rounds output v₁ v' → v' = v₂ := by
    intro v' through
    have same := (readThrough.mp through).1
    rw [read] at same
    cases same
    rfl
  rw [exec_bind_ok read, exec_bind_ok (exec_current v₂)] at run
  split at run
  · cases run
    exact .early reading fun _ bad => by cases bad
  next isOpen =>
    rcases waited : exec (awaitExit host) v₂ with ⟨e | status, v₃⟩
    · rw [exec_bind_error waited] at run
      cases run
      exact .early_of_waiting told reading only waited
    rw [exec_bind_ok waited, exec_enter] at run
    cases run
    rcases Run.awaitExit waited with ⟨_, bad, _⟩ | ⟨_, m, _, waiting, rfl⟩
    · cases bad
    refine .watched (reading.trans waiting) ?_
      ⟨v₁, v₂, status, told, readThrough.mpr ⟨read, isOpen⟩, waited⟩
    rw [← telling.options_eq, watch]

/-- **How following a started checker goes**, whatever the surroundings do. -/
theorem follows_runChecker (isOpen : u.session.phase ≠ .closed)
    (run : exec (runChecker host rounds output) u = (r, v)) :
    Follows host rounds output u r v := by
  have telling : Run u (exec (notify host .started) u).2 := .tellStart isOpen
  rw [runChecker] at run
  rcases told : exec (notify host .started) u with ⟨e | _, v₁⟩
  all_goals rw [told] at telling
  · rw [exec_bind_error told] at run
    cases run
    refine .early telling fun _ _ m => ?_
    rintro ⟨_, _, _, ok, -⟩
    rw [told] at ok
    cases ok
  · rw [exec_bind_ok told, exec_bind_ok (exec_current v₁)] at run
    split at run
    · next watch => exact follows_checkOnChange telling told watch run
    · next single => exact follows_checkOnce telling told single run

end Follow

/-! ### A whole session -/

/-- **Launching** leads only to related worlds, if teardowns do, if asking anything does
that is not about definitions, and if taking a configuration or a process does. -/
theorem guides_launch {R : World → World → Prop} [Preorderly R] {host : Host}
    (release : ∀ u v, Release u v → R u v)
    (ask : ∀ (w : World) (e : Event), e.isQuestion = true → (∀ root path, e ≠ .collect root path) →
      R w { w with log := w.log ++ [e] })
    (take : ∀ (w : World) config? holdsProcess,
      R w { w with session := { w.session with config?, holdsProcess } }) :
    Guides R (launch host) := by
  have wait {α : Type} (reply : Reply α) : Guides R (await host reply) :=
    (guides_await host reply).mono fun _ _ => Preorderly.of_steps release
  refine .bind .current fun s => ?_
  refine .bind (.atOnce fun w => ask w _ rfl (by simp)) fun _ => ?_
  refine .bind .history fun log => ?_
  dsimp only
  cases host.resolveExecutable log with
  | error cause => exact .failWith cause
  | ok executable =>
      refine .bind (.pure _) fun executable => ?_
      refine .bind (.atOnce fun w => ask w _ rfl (by simp)) fun _ => ?_
      refine .bind .history fun _ => ?_
      refine .bind (wait _) fun config => ?_
      refine .bind (.atOnce fun w => take w (some config) w.session.holdsProcess) fun _ => ?_
      refine .bind (.atOnce fun w => ask w _ rfl (by simp)) fun _ => ?_
      refine .bind .history fun _ => ?_
      refine .bind (wait _) fun output => ?_
      exact .bind (.atOnce fun w => take w w.session.config? true) fun _ => .pure _

/-- **How a session goes**: it is launched, its checker is followed, and after a failure
it is stopped; after it was called off only if the checker ran. -/
theorem exec_start {w : World} (idle : w.session.phase = .idle) (host : Host) (rounds : Nat) :
    exec (start host rounds) w = match exec (launch host) (w.entering .starting) with
      | (.error (.failure cause), v) => exec (do stop host; failWith cause) v
      | (.error e, v) => (.error e, v)
      | (.ok output, v) => match exec (runChecker host rounds output) (v.entering .running) with
        | (.ok (), v) => (.ok (), v)
        | (.error .outOfRounds, v) => (.error .outOfRounds, v)
        | (.error e, v) => exec (do stop host; throw e) v := by
  rw [start, exec_bind_ok (exec_current w)]
  dsimp only
  rw [if_neg (not_not_intro idle), exec_bind_ok (exec_enter _ _),
    exec_bind_ok (exec_attempt _ _)]
  rcases exec (launch host) (w.entering .starting) with ⟨(cause | _ | _) | output, v⟩
  · rfl
  · rfl
  · rfl
  · dsimp only
    rw [exec_bind_ok (exec_enter _ _), exec_bind_ok (exec_attempt _ _)]
    rcases exec (runChecker host rounds output) (v.entering .running) with
      ⟨(cause | _ | _) | _, v'⟩ <;> rfl

end Session

end TypeVerdict
