import TypeVerdict.Proofs.Steps

/-!
# What a session takes, it gives back once

A session gets hold of two things: a configuration, which has to be removed, and a
process, which has to be terminated unless it was waited for.  Giving them back can
fail, can be done by others while the session waits, and can be asked for again and
again.  That nothing is given back twice and nothing is forgotten is a law of
conservation: what the log shows as given back, together with what the session still
holds, changes only where something new is taken and where the process has exited.

Every step of a session that runs obeys this law (`Conserves`).  So after a failure,
when the last stop leaves nothing in the session's hands, the log shows each thing that
was taken exactly once.

## Main definitions

* `removals`, `terminations`: what a log shows as given back
* `Conserves`: the law of conservation
* `Configured`, `Spawned`, `Exited`: what was taken, and that the process has exited

## Main statements

* `Conserves.of_run`: every run of steps obeys the law
* `due_launch`, `due_runChecker`: what is due after launching and after following the
  checker
* `torn_down_of_failure`: a start that fails has given everything back exactly once
-/

namespace TypeVerdict

/-- The path that an event removes. -/
def Event.removed? : Event → Option String
  | .removeConfig path => some path
  | _ => none

namespace Session

variable {α : Type} {host : Host} {rounds : Nat} {u v w : World}

/-- The paths that a log shows as removed, in order. -/
def removals (log : Log) : List String := log.filterMap Event.removed?

/-- How often a log shows that the process was told to terminate. -/
def terminations (log : Log) : Nat := log.count .terminate

/-- What was removed and what is still to be removed. -/
def World.removalsDue (w : World) : List String := removals w.log ++ w.session.owedRemovals

/-- How often the process was told to terminate, and will be. -/
def World.terminationsDue (w : World) : Nat :=
  terminations w.log + w.session.holdsProcess.toNat

@[simp] theorem removals_append (log more : Log) :
    removals (log ++ more) = removals log ++ removals more :=
  List.filterMap_append

@[simp] theorem terminations_append (log more : Log) :
    terminations (log ++ more) = terminations log + terminations more :=
  List.count_append

/-- Neither a question nor a notice gives anything back. -/
theorem removals_of_isQuestion {e : Event} (h : e.isQuestion = true) : removals [e] = [] := by
  cases e <;> first | rfl | cases h

theorem terminations_of_isQuestion {e : Event} (h : e.isQuestion = true) :
    terminations [e] = 0 := by
  cases e <;> first | rfl | cases h

@[simp] theorem removals_heard (l : Listeners) (notice : Notice) :
    removals (l.heard notice) = [] := by
  cases h : l.for? notice <;> simp [Listeners.heard, h, removals, Event.removed?]

@[simp] theorem terminations_heard (l : Listeners) (notice : Notice) :
    terminations (l.heard notice) = 0 := by
  cases h : l.for? notice <;> simp [Listeners.heard, h, terminations]

@[simp] theorem removals_map_removeConfig (paths : List String) :
    removals (paths.map .removeConfig) = paths := by
  simp [removals, List.filterMap_map, Function.comp_def, Event.removed?]

@[simp] theorem terminations_map_removeConfig (paths : List String) :
    terminations (paths.map .removeConfig) = 0 := by
  simp [terminations, List.count_eq_zero]

/-! ### The law of conservation -/

/-- **Nothing is given back twice and nothing is forgotten.**  A session may lose its
process only by being closed, and a closed session, unless it held one before, holds
none. -/
structure Conserves (u v : World) : Prop where
  removals : v.removalsDue = u.removalsDue
  terminations : v.terminationsDue = u.terminationsDue
  config : v.session.config? = u.session.config? ∨ v.session.config? = none
  closed : u.session.phase = .closed → v.session.phase = .closed
  process : v.session.phase = .closed ∨ v.session.holdsProcess = u.session.holdsProcess
  tidy : (u.session.phase = .closed → u.session.holdsProcess = false) →
    v.session.phase = .closed → v.session.holdsProcess = false

namespace Conserves

/-- A world that differs in nothing that matters. -/
theorem of_same (removals : v.removalsDue = u.removalsDue)
    (terminations : v.terminationsDue = u.terminationsDue)
    (config : v.session.config? = u.session.config?)
    (phase : v.session.phase = u.session.phase)
    (process : v.session.holdsProcess = u.session.holdsProcess) : Conserves u v where
  removals := removals
  terminations := terminations
  config := Or.inl config
  closed h := phase.trans h
  process := Or.inr process
  tidy h closed := process.trans (h (phase.symm.trans closed))

instance : Preorderly Conserves where
  refl _ := of_same rfl rfl rfl rfl rfl
  trans {u v w} h₁ h₂ :=
    { removals := h₂.removals.trans h₁.removals
      terminations := h₂.terminations.trans h₁.terminations
      config := by
        rcases h₂.config with same | none
        · rw [same]
          exact h₁.config
        · exact Or.inr none
      closed := fun h => h₂.closed (h₁.closed h)
      process := by
        rcases h₂.process with closed | same
        · exact Or.inl closed
        · rcases h₁.process with closed | same'
          · exact Or.inl (h₂.closed closed)
          · exact Or.inr (same.trans same')
      tidy := fun h => h₂.tidy (h₁.tidy h) }

/-- Closing gives the process back, and cleaning the configuration. -/
theorem of_release (h : Release u v) : Conserves u v := by
  cases h with
  | close isOpen =>
      refine ⟨?_, ?_, Or.inl rfl, fun _ => rfl, Or.inl rfl, fun _ _ => rfl⟩
      · cases holds : u.session.holdsProcess <;>
          simp [World.removalsDue, World.closing, holds, Session.removals, Event.removed?,
            owedRemovals]
      · cases holds : u.session.holdsProcess <;>
          simp [World.terminationsDue, World.closing, holds, Session.terminations]
  | clean =>
      refine ⟨?_, ?_, Or.inr rfl, id, Or.inr rfl, id⟩
      · simp [World.removalsDue, World.cleaned, owedRemovals]
      · simp [World.terminationsDue, World.cleaned]

/-- **Every step obeys the law.** -/
theorem of_step (h : Step u v) : Conserves u v := by
  cases h with
  | release h => exact of_release h
  | ask e h =>
      refine of_same ?_ ?_ rfl rfl rfl
      · simp [World.removalsDue, removals_of_isQuestion h]
      · simp [World.terminationsDue, terminations_of_isQuestion h]
  | takeUp output => exact of_same rfl rfl rfl rfl rfl
  | revise buffer rerunSeen table? => exact of_same rfl rfl rfl rfl rfl
  | tell notice isOpen =>
      refine of_same ?_ ?_ rfl rfl rfl
      · simp [World.removalsDue, World.telling, owedRemovals]
      · simp [World.terminationsDue, World.telling]

theorem of_run (h : Run u v) : Conserves u v :=
  Preorderly.of_steps (r := Step) (fun _ _ => of_step) h

/-- An open session that goes on in another phase than the closed one. -/
theorem of_entering {phase : Phase} (isOpen : u.session.phase ≠ .closed)
    (other : phase ≠ .closed) : Conserves u (u.entering phase) where
  removals := rfl
  terminations := rfl
  config := Or.inl rfl
  closed h := absurd h isOpen
  process := Or.inr rfl
  tidy _ closed := absurd closed other

end Conserves

/-- A session that holds no process gets none. -/
theorem Conserves.process_eq_false (h : Conserves u v) (none : u.session.holdsProcess = false) :
    v.session.holdsProcess = false := by
  rcases h.process with closed | same
  · exact h.tidy (fun _ => none) closed
  · exact same.trans none

/-- Where no process is held, no termination is due but those that the log shows. -/
theorem terminationsDue_eq (none : w.session.holdsProcess = false) :
    w.terminationsDue = terminations w.log := by
  simp [World.terminationsDue, none]

/-- What waiting comes to. -/
theorem conserves_await (reply : Reply α) : Guides Conserves (await host reply) :=
  (Run.await reply).mono fun _ _ => .of_run

/-! ### Giving everything back -/

/-- **Stopping gives everything back**: afterwards the session is closed and holds
nothing, and the log shows all that was due. -/
theorem snd_exec_stop_due (tidy : v.session.phase = .closed → v.session.holdsProcess = false) :
    (exec (stop host) v).2.session.phase = .closed ∧
    (exec (stop host) v).2.session.config? = none ∧
    removals (exec (stop host) v).2.log = v.removalsDue ∧
    terminations (exec (stop host) v).2.log = v.terminationsDue := by
  rw [snd_exec_stop]
  split
  · next closed =>
      refine ⟨closed, rfl, ?_, ?_⟩
      · simp [World.cleaned, World.removalsDue]
      · simp [World.cleaned, World.terminationsDue, tidy closed]
  · next isOpen =>
      have conserved := Conserves.of_release (.close isOpen)
      refine ⟨rfl, rfl, ?_, ?_⟩
      · rw [← conserved.removals]
        simp [World.cleaned, World.removalsDue]
      · rw [← conserved.terminations]
        simp [World.cleaned, World.terminationsDue, World.closing]

/-- **A closed session that holds nothing is left alone** by all that tear it down. -/
theorem exec_interfere_of_closed (closed : w.session.phase = .closed)
    (empty : w.session.config? = none) (later : List Interference) :
    exec (interfere host later) w = (.ok (), w) := by
  have cleaned : exec (clean host) w = (.ok (), w) := by
    rw [clean, exec_bind_ok (exec_current w), exec_bind_ok (exec_update _ w), empty]
    have same : { w with session := { w.session with config? := none } } = w := by
      rw [← empty]
    exact congrArg (Prod.mk _) same
  have torn : ∀ what, exec (tearDown host what) w = (.ok (), w) := by
    intro what
    cases what with
    | clean => exact cleaned
    | stop =>
        rw [tearDown, stop, exec_bind_ok (exec_current w), if_pos closed]
        exact cleaned
  induction later with
  | nil => rfl
  | cons i more ih =>
      cases i with
      | within what => rw [interfere, exec_bind_ok (exec_pause w), exec_bind_ok (torn what), ih]
      | beside what =>
          have attempted : exec (attempt (tearDown host what)) w = (.ok (.ok ()), w) := by
            rw [exec_attempt, torn]
          rw [interfere, exec_bind_ok (exec_pause w), exec_bind_ok attempted, ih]

/-! ### Launching -/

/-- The log in which a launch asks for the executable. -/
def World.resolving (u : World) : Log :=
  u.log ++ [.resolveExecutable u.session.root u.session.options.checker]

/-- The log in which it asks for the configuration. -/
def World.configuring (u : World) : Log :=
  u.resolving ++
    [.createConfig u.session.root u.session.options.tsconfig? u.session.options.globs]

/-- **A launch is given a configuration**: the executable is found, and waiting for the
configuration ends with its path. -/
def Configured (host : Host) (u : World) (path : String) : Prop :=
  ∃ executable v, host.resolveExecutable u.resolving = .ok executable ∧
    exec (await host (host.createConfig u.configuring)) { u with log := u.configuring } =
      (.ok path, v)

/-- Starting the checker takes the process, if it succeeds, and nothing else. -/
theorem due_spawn (process : u.session.holdsProcess = false) (command : List String)
    (directory : String) {r : Except Interruption Output}
    (run : exec (do
      record (.spawn command directory)
      let output ← await host (host.spawn (← history))
      update fun s => { s with holdsProcess := true }
      return output) u = (r, v)) :
    v.removalsDue = u.removalsDue ∧ terminations v.log = terminations u.log ∧
      v.session.holdsProcess = r.toBool := by
  rw [exec_bind_ok (exec_record _ _), exec_bind_ok (exec_history _)] at run
  rcases spawned : exec (await host (host.spawn (u.log ++ [.spawn command directory])))
    { u with log := u.log ++ [.spawn command directory] } with ⟨e | output, v₁⟩
  all_goals
    have conserved : Conserves u v₁ :=
      Preorderly.trans (Conserves.of_step (.ask _ rfl)) ((conserves_await _).of_exec spawned)
    have none := conserved.process_eq_false process
    have same : terminations v₁.log = terminations u.log := by
      rw [← terminationsDue_eq none, conserved.terminations, terminationsDue_eq process]
  · rw [exec_bind_error spawned] at run
    cases run
    exact ⟨conserved.removals, same, none⟩
  · rw [exec_bind_ok spawned, exec_bind_ok (exec_update _ _)] at run
    cases run
    exact ⟨conserved.removals, same, rfl⟩

/-- **What is due after launching** a session that held nothing: the configuration, if
one was given, and the process, if there is one. -/
theorem due_launch (config : u.session.config? = none) (process : u.session.holdsProcess = false)
    {r : Except Interruption Output} (run : exec (launch host) u = (r, v)) :
    terminations v.log = terminations u.log ∧ v.session.holdsProcess = r.toBool ∧
    (∀ path, Configured host u path → v.removalsDue = removals u.log ++ [path].filter (· ≠ "")) ∧
    ((∀ path, ¬ Configured host u path) → v.removalsDue = removals u.log) := by
  have asked : Conserves u { u with log := u.configuring } :=
    .of_run (.tail (.single (.ask _ rfl)) (.ask _ rfl))
  have before : u.removalsDue = removals u.log := by
    simp [World.removalsDue, owedRemovals, config]
  rw [launch, exec_bind_ok (exec_current u), exec_bind_ok (exec_record _ _),
    exec_bind_ok (exec_history _)] at run
  dsimp only at run
  rw [← World.resolving] at run
  cases resolved : host.resolveExecutable u.resolving with
  | error cause =>
      -- there is no executable, and nothing was asked for yet
      have unconfigured : ∀ path, ¬ Configured host u path := by
        rintro path ⟨executable, -, found, -⟩
        rw [resolved] at found
        cases found
      rw [resolved] at run
      cases run
      have conserved : Conserves u { u with log := u.resolving } := .of_run (.single (.ask _ rfl))
      exact ⟨by simp [World.resolving, terminations], process,
        fun path h => absurd h (unconfigured path),
        fun _ => conserved.removals.trans before⟩
  | ok executable =>
      rw [resolved, exec_bind_ok (exec_pure _ _), exec_bind_ok (exec_record _ _),
        exec_bind_ok (exec_history _)] at run
      dsimp only at run
      rw [← World.configuring] at run
      rcases created : exec (await host (host.createConfig u.configuring))
        { u with log := u.configuring } with ⟨e | path, v₁⟩
      · -- no configuration was given, so none is held
        have unconfigured : ∀ path, ¬ Configured host u path := by
          rintro path ⟨_, _, _, given⟩
          rw [created] at given
          cases given
        have conserved : Conserves u v₁ :=
          Preorderly.trans asked ((conserves_await _).of_exec created)
        have empty := conserved.process_eq_false process
        rw [exec_bind_error created] at run
        cases run
        refine ⟨?_, empty, fun path h => absurd h (unconfigured path),
          fun _ => conserved.removals.trans before⟩
        rw [← terminationsDue_eq empty, conserved.terminations, terminationsDue_eq process]
      · -- from here on the configuration is due
        have only : ∀ other, Configured host u other → other = path := by
          rintro other ⟨_, _, _, given⟩
          rw [created] at given
          cases given
          rfl
        have conserved : Conserves u v₁ :=
          Preorderly.trans asked ((conserves_await _).of_exec created)
        have unheld : v₁.session.config? = none := by
          rcases conserved.config with same | none
          · rw [same, config]
          · exact none
        have empty := conserved.process_eq_false process
        have given : removals v₁.log = removals u.log := by
          rw [← before, ← conserved.removals, World.removalsDue, owedRemovals, unheld]
          simp
        have unspent : terminations v₁.log = terminations u.log := by
          rw [← terminationsDue_eq empty, conserved.terminations, terminationsDue_eq process]
        rw [exec_bind_ok created, exec_bind_ok (exec_update _ _)] at run
        obtain ⟨removals, terminations, holds⟩ := due_spawn
          (u := { v₁ with session := { v₁.session with config? := some path } }) empty _ _ run
        refine ⟨terminations.trans unspent, holds, fun other h => ?_,
          fun none => absurd ⟨executable, v₁, resolved, created⟩ (none path)⟩
        rw [removals, only other h, ← given]
        rfl

/-! ### Following the checker -/

/-- **An interrupted checker** either has not exited, and then the law was obeyed all
along, or it exited while the session was open, and the law was obeyed before and
since. -/
theorem conserves_runChecker {output : Output} {e : Interruption}
    (isOpen : u.session.phase ≠ .closed)
    (run : exec (runChecker host rounds output) u = (.error e, v)) :
    ((∀ m, ¬ Exits host rounds output u m) ∧ Conserves u v) ∨
    ∃ m, Exits host rounds output u m.exited ∧ m.session.phase ≠ .closed ∧
      Conserves u m ∧ Conserves m.exited v := by
  cases follows_runChecker isOpen run with
  | early run never => exact Or.inl ⟨never e rfl, .of_run run⟩
  | unpublished run exits wasOpen rest =>
      exact Or.inr ⟨_, exits, wasOpen e rfl, .of_run run, .of_run rest⟩
  | published run exits rest isOpen told =>
      have rest := Conserves.of_run rest
      have done := @Conserves.of_entering _ .done isOpen (by decide)
      exact Or.inr ⟨_, exits, fun closed => isOpen (rest.closed closed), .of_run run,
        Preorderly.trans rest (Preorderly.trans done (.of_run told))⟩

/-- **What is due when the checker is interrupted**: everything that was due before, but
the process only if it has not exited. -/
theorem due_runChecker {output : Output} {e : Interruption}
    (isOpen : u.session.phase ≠ .closed) (holds : u.session.holdsProcess = true)
    (run : exec (runChecker host rounds output) u = (.error e, v)) :
    v.removalsDue = u.removalsDue ∧
    (v.session.phase = .closed → v.session.holdsProcess = false) ∧
    ((∃ m, Exits host rounds output u m) → v.terminationsDue = terminations u.log) ∧
    ((∀ m, ¬ Exits host rounds output u m) → v.terminationsDue = terminations u.log + 1) := by
  have start : u.terminationsDue = terminations u.log + 1 := by
    simp [World.terminationsDue, holds]
  rcases conserves_runChecker isOpen run with ⟨never, law⟩ | ⟨m, exits, wasOpen, before, since⟩
  · exact ⟨law.removals, law.tidy fun closed => absurd closed isOpen,
      fun ⟨m, exits⟩ => absurd exits (never m), fun _ => law.terminations.trans start⟩
  · -- the process was still held when it exited, so it was not terminated before
    have held : m.session.holdsProcess = true := (before.process.resolve_left wasOpen).trans holds
    have spared : terminations m.log = terminations u.log := by
      have due := before.terminations
      rw [start, World.terminationsDue, held] at due
      exact Nat.succ.inj due
    refine ⟨since.removals.trans before.removals, since.tidy fun _ => rfl, fun _ => ?_,
      fun never => absurd exits (never _)⟩
    rw [since.terminations, terminationsDue_eq rfl, ← spared]
    rfl

/-! ### Whole sessions -/

/-- A session that was not started, and holds nothing. -/
structure World.Unstarted (w : World) : Prop where
  idle : w.session.phase = .idle
  config : w.session.config? = none
  process : w.session.holdsProcess = false

theorem unstarted_new (options : Options) (files : List String) (listeners : Listeners) :
    World.Unstarted ⟨new options files listeners, [], []⟩ := ⟨rfl, rfl, rfl⟩

/-- **The process was spawned**: the launch succeeded. -/
def Spawned (host : Host) (u : World) : Prop := ∃ output v, exec (launch host) u = (.ok output, v)

/-- A launch that was interrupted spawned nothing. -/
theorem not_spawned_of_error {e : Interruption} (launched : exec (launch host) u = (.error e, v)) :
    ¬ Spawned host u := by
  rintro ⟨_, _, ok⟩
  rw [launched] at ok
  cases ok

/-- **The process was waited for** with success. -/
def Exited (host : Host) (rounds : Nat) (u : World) : Prop :=
  ∃ output v m, exec (launch host) u = (.ok output, v) ∧
    Exits host rounds output (v.entering .running) m

/-- Whatever is thrown after a stop, the world is as the stop left it. -/
theorem snd_exec_stop_throw (host : Host) (e : Interruption) (v : World) :
    (exec (do stop host; throw e : Act Unit) v).2 = (exec (stop host) v).2 := by
  rcases stopped : exec (stop host) v with ⟨e' | _, v'⟩
  · rw [exec_bind_error stopped]
  · rw [exec_bind_ok stopped, exec_throw]

/-- **A start that fails ends with a stop**: of a session whose launch failed, or of one
whose checker was interrupted. -/
theorem stopped_of_failure (idle : w.session.phase = .idle) {cause : Failure} {w' : World}
    (failed : exec (start host rounds) w = (.error (.failure cause), w')) :
    ∃ v, w' = (exec (stop host) v).2 ∧
      ((∃ e, exec (launch host) (w.entering .starting) = (.error e, v)) ∨
      ∃ output v₀ e, exec (launch host) (w.entering .starting) = (.ok output, v₀) ∧
        exec (runChecker host rounds output) (v₀.entering .running) = (.error e, v)) := by
  have stop_then {v : World} {e : Interruption}
      (run : exec (do stop host; throw e : Act Unit) v = (.error (.failure cause), w')) :
      w' = (exec (stop host) v).2 := by
    rw [← snd_exec_stop_throw, run]
  rw [exec_start idle] at failed
  rcases launched : exec (launch host) (w.entering .starting) with ⟨e | output, v₀⟩
  · rw [launched] at failed
    cases e with
    | failure cause' => exact ⟨v₀, stop_then failed, Or.inl ⟨_, rfl⟩⟩
    | cancelled => cases failed
    | outOfRounds => cases failed
  · rw [launched] at failed
    dsimp only at failed
    rcases ran : exec (runChecker host rounds output) (v₀.entering .running) with ⟨e | _, v⟩
    · rw [ran] at failed
      cases e with
      | outOfRounds => cases failed
      | _ => exact ⟨v, stop_then failed, Or.inr ⟨output, v₀, _, rfl, ran⟩⟩
    · rw [ran] at failed
      cases failed

/-- **What is due when the checker of a session is interrupted**, before the last stop. -/
theorem due_of_interrupted (unstarted : w.Unstarted) {output : Output} {v₀ : World}
    {e : Interruption} (launched : exec (launch host) (w.entering .starting) = (.ok output, v₀))
    (ran : exec (runChecker host rounds output) (v₀.entering .running) = (.error e, v)) :
    (v.session.phase = .closed → v.session.holdsProcess = false) ∧
    (∀ path, Configured host (w.entering .starting) path →
      v.removalsDue = removals w.log ++ [path].filter (· ≠ "")) ∧
    ((∀ path, ¬ Configured host (w.entering .starting) path) →
      v.removalsDue = removals w.log) ∧
    (¬ Exited host rounds (w.entering .starting) →
      v.terminationsDue = terminations w.log + 1) ∧
    (Exited host rounds (w.entering .starting) → v.terminationsDue = terminations w.log) := by
  obtain ⟨spared, holds, configured, unconfigured⟩ :=
    due_launch (u := w.entering .starting) unstarted.config unstarted.process launched
  obtain ⟨same, tidy, exited, still⟩ :=
    due_runChecker (u := v₀.entering .running) (by simp [World.entering]) holds ran
  have same : v.removalsDue = v₀.removalsDue := same
  have exited_iff : Exited host rounds (w.entering .starting) ↔
      ∃ m, Exits host rounds output (v₀.entering .running) m := by
    constructor
    · rintro ⟨_, _, m, ok, exits⟩
      rw [launched] at ok
      cases ok
      exact ⟨m, exits⟩
    · rintro ⟨m, exits⟩
      exact ⟨output, v₀, m, launched, exits⟩
  refine ⟨tidy, fun path h => same.trans (configured path h),
    fun none => same.trans (unconfigured none), fun never => ?_, fun exits => ?_⟩
  · rw [exited_iff, not_exists] at never
    exact (still never).trans (congrArg (· + 1) spared)
  · exact (exited (exited_iff.mp exits)).trans spared

/-- **What is due when a start fails**, before its last stop. -/
theorem due_of_failure (unstarted : w.Unstarted) {cause : Failure} {w' : World}
    (failed : exec (start host rounds) w = (.error (.failure cause), w')) :
    ∃ v, w' = (exec (stop host) v).2 ∧
      (v.session.phase = .closed → v.session.holdsProcess = false) ∧
      (∀ path, Configured host (w.entering .starting) path →
        v.removalsDue = removals w.log ++ [path].filter (· ≠ "")) ∧
      ((∀ path, ¬ Configured host (w.entering .starting) path) →
        v.removalsDue = removals w.log) ∧
      (Spawned host (w.entering .starting) → ¬ Exited host rounds (w.entering .starting) →
        v.terminationsDue = terminations w.log + 1) ∧
      ((Spawned host (w.entering .starting) → Exited host rounds (w.entering .starting)) →
        v.terminationsDue = terminations w.log) := by
  obtain ⟨v, stopped, ⟨e, launched⟩ | ⟨output, v₀, e, launched, ran⟩⟩ :=
    stopped_of_failure unstarted.idle failed
  · -- there is no process
    obtain ⟨spared, empty, configured, unconfigured⟩ :=
      due_launch (u := w.entering .starting) unstarted.config unstarted.process launched
    exact ⟨v, stopped, fun _ => empty, configured, unconfigured,
      fun spawned => absurd spawned (not_spawned_of_error launched),
      fun _ => (terminationsDue_eq empty).trans spared⟩
  · obtain ⟨tidy, configured, unconfigured, still, exited⟩ :=
      due_of_interrupted unstarted launched ran
    exact ⟨v, stopped, tidy, configured, unconfigured, fun _ => still,
      fun exits => exited (exits ⟨output, v₀, launched⟩)⟩

/-- **A start that fails has given everything back exactly once.**  Whatever the
surroundings do, and whoever stops the session meanwhile, it is closed in the end.  The
configuration that it was given, if its path is not empty, was removed once, and nothing
else was removed.  The process, if one was spawned that was not waited for, was
terminated once, and otherwise nothing was.  Whatever anybody does to the session
later, nothing happens any more. -/
theorem torn_down_of_failure (unstarted : w.Unstarted) {cause : Failure} {w' : World}
    (failed : exec (start host rounds) w = (.error (.failure cause), w')) :
    w'.session.phase = .closed ∧
    (∀ path, Configured host (w.entering .starting) path → path ≠ "" →
      removals w'.log = removals w.log ++ [path]) ∧
    ((∀ path, Configured host (w.entering .starting) path → path = "") →
      removals w'.log = removals w.log) ∧
    (Spawned host (w.entering .starting) → ¬ Exited host rounds (w.entering .starting) →
      terminations w'.log = terminations w.log + 1) ∧
    ((Spawned host (w.entering .starting) → Exited host rounds (w.entering .starting)) →
      terminations w'.log = terminations w.log) ∧
    ∀ later, exec (interfere host later) w' = (.ok (), w') := by
  obtain ⟨v, rfl, tidy, configured, unconfigured, unexited, spared⟩ :=
    due_of_failure unstarted failed
  obtain ⟨closed, empty, removed, terminated⟩ := @snd_exec_stop_due host v tidy
  rw [removed, terminated]
  refine ⟨closed, fun path given named => ?_, fun unnamed => ?_, unexited, spared,
    exec_interfere_of_closed closed empty⟩
  · rw [configured path given]
    simp [named]
  · by_cases given : ∃ path, Configured host (w.entering .starting) path
    · obtain ⟨path, given⟩ := given
      rw [configured path given]
      simp [unnamed path given]
    · exact unconfigured fun path h => given ⟨path, h⟩

/-- A host whose checker's output cannot be read, and who refuses both to terminate the
process and to remove the configuration. -/
def brittle : Host where
  resolveExecutable _ := .ok "tsc"
  createConfig _ := .pure "tsconfig.json"
  removeConfig _ := some (.system "remove")
  spawn _ := .pure { pieces := [⟨[], .fails (.system "read")⟩] }
  wait _ := .pure 0
  terminate _ := some (.system "terminate")
  collect _ _ := .pure none
  notify _ _ _ := .pure ()

/-- A single run whose teardown is refused, too. -/
theorem torn_down_of_failure_brittle :
    ∃ w', exec (start brittle 1) ⟨new {} [], [], []⟩ = (.error (.failure (.system "remove")), w') ∧
      w'.session.phase = .closed ∧ removals w'.log = ["tsconfig.json"] ∧
      terminations w'.log = 1 ∧ ∀ later, exec (interfere brittle later) w' = (.ok (), w') := by
  have failed : exec (start brittle 1) ⟨new {} [], [], []⟩ =
      (.error (.failure (.system "remove")), (exec (start brittle 1) ⟨new {} [], [], []⟩).2) := rfl
  obtain ⟨closed, removed, -, terminated, -, later⟩ :=
    torn_down_of_failure (unstarted_new {} [] {}) failed
  refine ⟨_, failed, closed, removed "tsconfig.json" ⟨_, _, rfl, rfl⟩ (by decide),
    terminated ⟨_, _, rfl⟩ ?_, later⟩
  rintro ⟨_, _, _, launched, _, _, _, told, through, -⟩
  cases launched
  cases told
  obtain ⟨text, read⟩ := through
  cases read

end Session

end TypeVerdict
