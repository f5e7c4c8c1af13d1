import Mathlib.Data.List.Forall2
import TypeVerdict.Proofs.Ledger
import TypeVerdict.Proofs.Obliging

/-!
# Surroundings that serve a session

Where the surroundings answer whatever a session asks, nothing fails and nobody stops the
session, an action has one result, and what it does can be written down at once.

Two things may still vary from run to run: how the output was cut into pieces, and when others
removed the configuration meanwhile.  The gist of a world (`World.gist`) is what is left of it
when one looks at neither.  What an action does to the gist is one change of the session, with
some events and milestones more (`Does`); what becomes of the configuration is a matter of
account, as everywhere.

## Main definitions

* `Host.Serves`: surroundings in which nothing fails and nobody stops the session
* `World.gist`: a world apart from the configuration and from the reading of the output
* `Alike`: worlds with the same gist, in which as much is due
* `Does`: an action with a known result and a known effect

## Main statements

* `Alike.extend`: what happens to worlds of the same gist leaves them alike
* `Does.bind`: one action after the other
* `does_launch`, `does_readAll`, `does_assembleFrom`: the parts of a run
-/

namespace TypeVerdict

/-! ### Surroundings that serve a session -/

/-- What is done to a session, whoever does it. -/
def Interference.what : Interference → Teardown
  | within what | beside what => what

/-- **A call is answered**, and meanwhile nobody does more to the session than removing its
configuration, and not even that unless it is `tidied`. -/
structure Reply.Yields {α : Type} (tidied : Prop) (reply : Reply α) (answer : α) : Prop where
  ending : reply.ending = .returns answer
  meanwhile : ∀ i ∈ reply.meanwhile, i.what = .clean ∧ tidied

/-- **Surroundings that serve a session**: whatever was asked before, they answer with an
executable, a configuration, a checker that writes some pieces of output and exits with a
status, and what is known about the files, which is as a collector promises.  Nothing fails. -/
structure Host.Serves (host : Host) (tidied : Prop) (executable config : String)
    (pieces : List String) (status : Int) (answers : String → Option Collected) : Prop where
  resolves : ∀ log, host.resolveExecutable log = .ok executable
  configures : ∀ log, (host.createConfig log).Yields tidied config
  spawns : ∀ log, ∃ output, (host.spawn log).Yields tidied output ∧
    List.Forall₂ (Reply.Yields tidied) output.pieces pieces ∧ output.afterwards.Yields tidied ()
  waits : ∀ log, (host.wait log).Yields tidied status
  collects : ∀ log path, (host.collect log path).Yields tidied (answers path)
  listens : ∀ log listener notice, (host.notify log listener notice).Yields tidied ()
  removes : ∀ log, host.removeConfig log = none
  proper : ∀ path c, answers path = some c → c.definitions.Proper

/-- Events without which a session would come to the same: the configuration is removed, or a
piece of output was read. -/
def Event.isIncidental : Event → Bool
  | .removeConfig _ | .read _ => true
  | _ => false

namespace Session

variable {α β : Type} {host : Host} {tidied : Prop} {u v w : World} {x : α}
  {r : Except Interruption β} {a : Act α} {f : α → Act β} {change change' : Session → Session}
  {log log' : Log} {course course' : List Milestone}

/-! ### Worlds with the same gist -/

/-- A session with another configuration to be removed. -/
def holding (s : Session) (config? : Option String) : Session := { s with config? }

/-- A change that has nothing to do with the configuration. -/
def Spares (change : Session → Session) : Prop :=
  ∀ s config?, change (holding s config?) = holding (change s) config?

theorem spares_id : Spares id := fun _ _ => rfl

theorem Spares.config?_eq (h : Spares change) (s : Session) : (change s).config? = s.config? := by
  have same : change s = holding (change s) s.config? := h s s.config?
  rw [same, holding]

/-- **A world apart from the configuration and from how the output was read.** -/
def World.gist (w : World) : World where
  session := holding w.session none
  log := w.log.filter (!·.isIncidental)
  course := w.course

/-- A world in which the session has changed and something has happened. -/
def World.extend (w : World) (change : Session → Session) (log : Log)
    (course : List Milestone) : World :=
  ⟨change w.session, w.log ++ log, w.course ++ course⟩

/-- A world in which the session has been given a configuration. -/
def World.given (w : World) (path : String) : World :=
  { w with session := holding w.session (some path) }

/-- **Worlds with the same gist**, in which the same removals are due, and the same
configuration is held unless others have removed it. -/
structure Alike (tidied : Prop) (u v : World) : Prop where
  gist : v.gist = u.gist
  due : v.removalsDue = u.removalsDue
  config : v.session.config? = u.session.config? ∨ tidied ∧ v.session.config? = none

namespace Alike

theorem refl (w : World) : Alike tidied w w := ⟨rfl, rfl, Or.inl rfl⟩

theorem trans (h₁ : Alike tidied u v) (h₂ : Alike tidied v w) : Alike tidied u w where
  gist := h₂.gist.trans h₁.gist
  due := h₂.due.trans h₁.due
  config := by
    rcases h₂.config with same | removed
    · rw [same]
      exact h₁.config
    · exact Or.inr removed

/-- They have the same session but for the configuration. -/
theorem session (h : Alike tidied u v) : v.session = holding u.session v.session.config? := by
  have same : holding v.session none = holding u.session none := congrArg World.session h.gist
  calc v.session = holding (holding v.session none) v.session.config? := rfl
    _ = holding u.session v.session.config? := by rw [same]; rfl

/-- What is read from their sessions apart from the configuration is the same. -/
theorem reads (h : Alike tidied u v) {γ : Type} (read : Session → γ)
    (apart : ∀ s config?, read (holding s config?) = read s) :
    read v.session = read u.session := by
  rw [h.session, apart]

/-- What is not incidental happened in both of them or in neither. -/
theorem mem_log_iff (h : Alike tidied u v) {e : Event} (matters : e.isIncidental = false) :
    e ∈ v.log ↔ e ∈ u.log := by
  have same : v.log.filter (!·.isIncidental) = u.log.filter (!·.isIncidental) :=
    congrArg World.log h.gist
  have mem : e ∈ v.log.filter (!·.isIncidental) ↔ e ∈ u.log.filter (!·.isIncidental) := by
    rw [same]
  simpa [List.mem_filter, matters] using mem

/-- What happens to both of them leaves them alike. -/
theorem extend (h : Alike tidied u v) (change : Session → Session) (log : Log)
    (course : List Milestone) (spares : Spares change) (unremoved : removals log = []) :
    Alike tidied (u.extend change log course) (v.extend change log course) where
  gist := by
    have gist : ∀ w : World, (w.extend change log course).gist =
        w.gist.extend change (log.filter (!·.isIncidental)) course := by
      intro w
      simp only [World.extend, World.gist, List.filter_append, spares _ _]
    rw [gist, gist, h.gist]
  due := by
    have due : ∀ w : World, (w.extend change log course).removalsDue = w.removalsDue := by
      intro w
      rw [World.removalsDue, World.removalsDue, World.extend, removals_append, unremoved,
        List.append_nil, owedRemovals, owedRemovals, spares.config?_eq]
    rw [due, due, h.due]
  config := by
    show (change v.session).config? = (change u.session).config? ∨
      tidied ∧ (change v.session).config? = none
    rw [spares.config?_eq, spares.config?_eq]
    exact h.config

/-- So does that they enter a phase. -/
theorem entering (h : Alike tidied u v) (phase : Phase) :
    Alike tidied (u.entering phase) (v.entering phase) := by
  have entered := h.extend (fun s => { s with phase }) [] [.entered phase] (fun _ _ => rfl) rfl
  simpa [World.extend, World.entering] using entered

/-- So does that they are given a configuration, if they held none. -/
theorem given (h : Alike tidied u v) (unheld : u.session.config? = none) (path : String) :
    Alike tidied (u.given path) (v.given path) where
  gist := h.gist
  due := by
    have unheld' : v.session.config? = none := h.config.elim (·.trans unheld) (·.2)
    have due : removals v.log = removals u.log := by
      simpa [World.removalsDue, owedRemovals, unheld, unheld'] using h.due
    simp only [World.removalsDue, World.given, due, owedRemovals, holding]
  config := Or.inl rfl

/-- Removing the configuration makes no difference where it may be removed. -/
theorem cleaned (w : World) (tidied : Prop) (may : tidied) : Alike tidied w w.cleaned where
  gist := by
    have incidental : (w.session.owedRemovals.map Event.removeConfig).filter
        (!·.isIncidental) = [] := by
      simp [List.filter_eq_nil_iff, Event.isIncidental]
    simp [World.gist, World.cleaned, incidental, holding]
  due := (Conserves.of_release (.clean w)).removals
  config := Or.inr ⟨may, rfl⟩

/-- Nor does it that a piece of output was read. -/
theorem read (w : World) (index : Nat) :
    Alike tidied w { w with log := w.log ++ [.read index] } where
  gist := by simp [World.gist, Event.isIncidental]
  due := by simp [World.removalsDue, removals, Event.removed?]
  config := Or.inl rfl

end Alike

/-! ### Actions with a known effect -/

/-- **An action has a result and an effect**: a change of the session, with events and
milestones that it adds. -/
def Does (tidied : Prop) (a : Act α) (w : World) (r : Except Interruption α)
    (change : Session → Session) (log : Log) (course : List Milestone) : Prop :=
  ∃ w', exec a w = (r, w') ∧ Alike tidied (w.extend change log course) w'

namespace Does

theorem pure (x : α) (w : World) : Does tidied (Pure.pure x : Act α) w (.ok x) id [] [] :=
  ⟨w, rfl, by simpa [World.extend] using Alike.refl w⟩

/-- **One action after the other.** -/
theorem bind (first : Does tidied a w (.ok x) change log course)
    (next : ∀ v, Alike tidied (w.extend change log course) v →
      Does tidied (f x) v r change' log' course')
    (spares : Spares change') (unremoved : removals log' = []) :
    Does tidied (a >>= f) w r (change' ∘ change) (log ++ log') (course ++ course') := by
  obtain ⟨v, run, alike⟩ := first
  obtain ⟨v', run', alike'⟩ := next v alike
  refine ⟨v', by rw [exec_bind_ok run, run'], ?_⟩
  have both := (alike.extend change' log' course' spares unremoved).trans alike'
  simpa [World.extend] using both

end Does

section Serving

variable {executable config : String} {pieces : List String} {status : Int}
  {answers : String → Option Collected}

/-- Cleaning succeeds. -/
theorem exec_clean_of_removes (removes : ∀ log, host.removeConfig log = none) (w : World) :
    exec (clean host) w = (.ok (), w.cleaned) := by
  refine Prod.ext ?_ (snd_exec_clean host w)
  rw [clean, exec_bind_ok (exec_current w), exec_bind_ok (exec_update _ w)]
  split
  · rfl
  · rfl
  · rw [exec_bind_ok (exec_record _ _), exec_bind_ok (exec_pause _), exec_bind_ok (exec_history _)]
    simp [removes]

/-- Meanwhile the configuration may be removed, and that is all. -/
theorem does_interfere (removes : ∀ log, host.removeConfig log = none)
    {meanwhile : List Interference} (only : ∀ i ∈ meanwhile, i.what = .clean ∧ tidied)
    (w : World) : Does tidied (interfere host meanwhile) w (.ok ()) id [] [] := by
  induction meanwhile generalizing w with
  | nil => exact ⟨w, rfl, by simpa [World.extend] using Alike.refl w⟩
  | cons i more ih =>
      obtain ⟨what, may⟩ := only i List.mem_cons_self
      obtain ⟨v, run, alike⟩ := ih (fun j mem => only j (List.mem_cons_of_mem i mem)) w.cleaned
      have cleaned := Alike.cleaned w tidied may
      refine ⟨v, ?_, ?_⟩
      · -- a removal within the session would end the action only if it failed
        cases i with
        | within what' =>
            cases what
            rw [interfere, exec_bind_ok (exec_pause w), tearDown,
              exec_bind_ok (exec_clean_of_removes removes w), run]
        | beside what' =>
            cases what
            have attempted :
                exec (attempt (tearDown host .clean)) w = (.ok (.ok ()), w.cleaned) := by
              rw [exec_attempt, tearDown, exec_clean_of_removes removes w]
            rw [interfere, exec_bind_ok (exec_pause w), exec_bind_ok attempted, run]
      · simpa [World.extend] using cleaned.trans (by simpa [World.extend] using alike)

/-- **Waiting for an answer.** -/
theorem does_await (removes : ∀ log, host.removeConfig log = none) {reply : Reply α}
    (yields : reply.Yields tidied x) (w : World) :
    Does tidied (await host reply) w (.ok x) id [] [] := by
  refine Does.bind (does_interfere removes yields.meanwhile w) (fun v _ => ?_) spares_id
    (show removals [] = [] from rfl)
  rw [yields.ending]
  exact .pure x v

/-- **Telling something** calls the listener, if there is one. -/
theorem does_notify (serves : host.Serves tidied executable config pieces status answers)
    (notice : Notice) (w : World) :
    Does tidied (notify host notice) w (.ok ()) id (w.session.listeners.heard notice)
      [.told notice] := by
  rw [notify]
  cases listener? : w.session.listeners.for? notice with
  | none =>
      refine ⟨w.extend id [] [.told notice], ?_, ?_⟩
      · rw [exec_bind_ok (exec_reach _ _), exec_bind_ok (exec_current _)]
        simp [listener?, World.extend]
      · rw [Listeners.heard, listener?]
        exact .refl _
  | some listener =>
      obtain ⟨v, run, alike⟩ := does_await serves.removes
        (serves.listens (w.log ++ [.notify listener notice]) listener notice)
        (w.extend id [.notify listener notice] [.told notice])
      refine ⟨v, ?_, ?_⟩
      · rw [exec_bind_ok (exec_reach _ _), exec_bind_ok (exec_current _)]
        simp only [listener?]
        rw [exec_bind_ok (exec_record _ _), exec_bind_ok (exec_history _)]
        exact run
      · rw [Listeners.heard, listener?]
        simpa [World.extend] using alike

/-! ### The parts of a run -/

/-- **Reading gives the pieces put together**, and changes nothing that matters. -/
theorem does_readAll (removes : ∀ log, host.removeConfig log = none) {output : Output}
    {replies : List (Reply String)} (yields : List.Forall₂ (Reply.Yields tidied) replies pieces)
    (ends : output.afterwards.Yields tidied ()) {w : World} (writes : .terminate ∉ w.log)
    (index : Nat) :
    Does tidied (readAll host output index replies) w (.ok (pieces.flatMap String.toList)) id []
      [] := by
  induction yields generalizing w index with
  | nil =>
      rw [readAll]
      exact Does.bind (does_await removes ends w) (fun v _ => .pure [] v) spares_id rfl
  | @cons reply piece replies pieces yields _ ih =>
      obtain ⟨v, waited, alike⟩ := does_await removes yields w
      have alike : Alike tidied w (v.extend id [.read index] []) := by
        have read : Alike tidied v { v with log := v.log ++ [.read index] } := .read v index
        simpa [World.extend] using alike.trans (by simpa [World.extend] using read)
      -- nobody stopped the checker meanwhile, so it goes on writing
      have writes' : .terminate ∉ (v.extend id [.read index] []).log := by
        rwa [alike.mem_log_iff rfl]
      obtain ⟨v', rest, alike'⟩ := ih writes' (index + 1)
      refine ⟨v', ?_, ?_⟩
      · have stopped : exec (hasStopped output) w = (.ok false, w) := by
          rw [hasStopped, exec_bind_ok (exec_history w), exec_pure]
          simp [writes]
        rw [readAll, exec_bind_ok stopped, if_neg Bool.false_ne_true, exec_bind_ok waited,
          exec_bind_ok (exec_record _ _)]
        have rest : exec (readAll host output (index + 1) replies)
            { v with log := v.log ++ [.read index] } =
              (.ok (pieces.flatMap String.toList), v') := by
          simpa [World.extend] using rest
        rw [exec_bind_ok rest, exec_pure, List.flatMap_cons]
      · simpa [World.extend] using alike.trans (by simpa [World.extend] using alike')

/-- Waiting for the exit gives the status, and the process is no longer held. -/
theorem does_awaitExit (serves : host.Serves tidied executable config pieces status answers)
    (w : World) :
    Does tidied (awaitExit host) w (.ok status) (fun s => { s with holdsProcess := false })
      [.wait] [] := by
  obtain ⟨v, run, alike⟩ := does_await serves.removes (serves.waits (w.log ++ [.wait]))
    (w.extend id [.wait] [])
  have run : exec (await host (host.wait (w.log ++ [.wait]))) { w with log := w.log ++ [.wait] } =
      (.ok status, v) := by
    simpa [World.extend] using run
  refine ⟨v.exited, by rw [exec_awaitExit, run], ?_⟩
  have exited := alike.extend (fun s => { s with holdsProcess := false }) [] [] (fun _ _ => rfl)
    rfl
  simpa [World.extend, World.exited] using exited

/-- What is known about some files, by path. -/
def tableOf (answers : String → Option Collected) (paths : List String) : DefinitionTable :=
  paths.filterMap fun path => (answers path).map fun c => (path, c.definitions)

/-- Each file is asked for. -/
theorem does_collectEach (serves : host.Serves tidied executable config pieces status answers)
    (paths : List String) (w : World) :
    Does tidied (collectEach host paths) w
      (.ok (paths.map fun path => (path, .ok ((answers path).map (·.definitions))))) id
      (paths.map (.collect w.session.root)) [] := by
  induction paths generalizing w with
  | nil => exact .pure [] w
  | cons path more ih =>
      obtain ⟨v, waited, alike⟩ := does_await serves.removes
        (serves.collects (w.log ++ [.collect w.session.root path]) path)
        (w.extend id [.collect w.session.root path] [])
      obtain ⟨v', rest, alike'⟩ := ih v
      have root : v.session.root = w.session.root := alike.reads (·.root) fun _ _ => rfl
      rw [root] at alike'
      refine ⟨v', ?_, ?_⟩
      · have found : exec (attempt (collectFile host path)) w =
            (.ok (.ok ((answers path).map (·.definitions))), v) := by
          rw [exec_attempt, collectFile, exec_bind_ok (exec_current w),
            exec_bind_ok (exec_record _ _), exec_bind_ok (exec_history _)]
          have waited : exec (await host (host.collect
              (w.log ++ [.collect w.session.root path]) path))
              { w with log := w.log ++ [.collect w.session.root path] } =
                (.ok (answers path), v) := by
            simpa [World.extend] using waited
          rw [exec_bind_ok waited, exec_pure]
        rw [collectEach, exec_bind_ok found, exec_bind_ok rest, exec_pure, List.map_cons]
      · have unremoved : removals (more.map (Event.collect w.session.root)) = [] := by
          simp [removals, Event.removed?]
        have both := (alike.extend id _ [] spares_id unremoved).trans alike'
        simpa [World.extend] using both

theorem gather_answers (answers : String → Option Collected) (paths : List String) :
    gather (paths.map fun path => (path, .ok ((answers path).map (·.definitions)))) =
      .ok (tableOf answers paths) := by
  induction paths with
  | nil => rfl
  | cons path more ih =>
      have rest : tableOf answers (path :: more) =
          ((answers path).map fun c => (path, c.definitions)).toList ++ tableOf answers more := by
        cases known : answers path <;> simp [tableOf, known]
      rw [List.map_cons, gather, ih, rest]
      cases answers path <;> rfl

/-- The files under test are asked for, and what is known about them is kept. -/
theorem does_collectAll (serves : host.Serves tidied executable config pieces status answers)
    (w : World) :
    Does tidied (collectAll host) w (.ok (tableOf answers w.session.files))
      (fun s => { s with table? := some (tableOf answers w.session.files) })
      (w.session.files.map (.collect w.session.root)) [] := by
  obtain ⟨v, found, alike⟩ := does_collectEach serves w.session.files w
  refine ⟨v.knowing (tableOf answers w.session.files), ?_, ?_⟩
  · rw [collectAll, exec_bind_ok (exec_current w), exec_bind_ok found, gather_answers,
      exec_bind_ok (exec_ofExcept _ _), exec_bind_ok (exec_update _ _), exec_pure]
    rfl
  · have known := alike.extend
      (fun s => { s with table? := some (tableOf answers w.session.files) }) [] []
      (fun _ _ => rfl) rfl
    simpa [World.extend, World.knowing] using known

theorem proper_tableOf (serves : host.Serves tidied executable config pieces status answers)
    (paths : List String) : DefinitionTable.Proper (tableOf answers paths) := by
  intro entry mem
  obtain ⟨path, -, found⟩ := List.mem_filterMap.mp mem
  obtain ⟨c, answer, rfl⟩ := Option.map_eq_some_iff.mp found
  exact serves.proper path c answer

/-- **A snapshot is judged** by what is known about the files under test. -/
theorem does_assembleFrom (serves : host.Serves tidied executable config pieces status answers)
    {diagnostics : Grouping (Option String) LocatedDiagnostic} {w : World}
    (uncollected : w.session.table? = none) {snapshot : Snapshot}
    (judged : Snapshot.assemble diagnostics w.session.files (tableOf answers w.session.files) =
      .ok snapshot) :
    Does tidied (assembleFrom host diagnostics) w (.ok snapshot)
      (fun s => { s with table? := some (tableOf answers w.session.files) })
      (w.session.files.map (.collect w.session.root)) [] := by
  obtain ⟨v, collected, alike⟩ := does_collectAll serves w
  have files : v.session.files = w.session.files := alike.reads (·.files) fun _ _ => rfl
  refine ⟨v, ?_, alike⟩
  rw [assembleFrom, exec_bind_ok (exec_current w), uncollected, exec_bind_ok collected]
  show exec (judge diagnostics _) v = _
  rw [judge, exec_bind_ok (exec_current v), files, judged]
  rfl

/-- How a session starts its checker. -/
def spawning (s : Session) (executable config : String) : Event :=
  .spawn (s.options.command executable config) s.root

/-- What a session asks before its checker runs. -/
def asked (s : Session) (executable config : String) : Log :=
  [.resolveExecutable s.root s.options.checker,
    .createConfig s.root s.options.tsconfig? s.options.globs, s.spawning executable config]

/-- A session whose checker was started. -/
def launched (config : String) (s : Session) : Session :=
  { s with config? := some config, holdsProcess := true }

/-- **A launch succeeds**, and from then on the session holds a configuration and a process. -/
theorem does_launch (serves : host.Serves tidied executable config pieces status answers)
    {w : World} (unheld : w.session.config? = none) :
    ∃ output : Output, List.Forall₂ (Reply.Yields tidied) output.pieces pieces ∧
      output.afterwards.Yields tidied () ∧
      Does tidied (launch host) w (.ok output) (launched config)
        (w.session.asked executable config) [] := by
  obtain ⟨v, configured, alike⟩ := does_await serves.removes (serves.configures w.configuring)
    { w with log := w.configuring }
  obtain ⟨output, yields, written, ends⟩ :=
    serves.spawns (v.log ++ [w.session.spawning executable config])
  obtain ⟨v', spawned, alike'⟩ := does_await serves.removes yields
    ((v.given config).extend id [w.session.spawning executable config] [])
  refine ⟨output, written, ends,
    { v' with session := { v'.session with holdsProcess := true } }, ?_, ?_⟩
  · rw [launch, exec_bind_ok (exec_current w), exec_bind_ok (exec_record _ _),
      exec_bind_ok (exec_history _)]
    dsimp only
    rw [← World.resolving, serves.resolves, exec_bind_ok (exec_pure _ _),
      exec_bind_ok (exec_record _ _), exec_bind_ok (exec_history _)]
    dsimp only
    rw [← World.configuring, exec_bind_ok configured, exec_bind_ok (exec_update _ _),
      exec_bind_ok (exec_record _ _), exec_bind_ok (exec_history _)]
    rw [← spawning]
    have spawned : exec (await host
        (host.spawn (v.log ++ [w.session.spawning executable config])))
        { v.given config with log := v.log ++ [w.session.spawning executable config] } =
          (.ok output, v') := by
      simpa [World.extend, World.given] using spawned
    exact exec_bind_ok spawned _
  · have given := (alike.given unheld config).extend id
      [w.session.spawning executable config] [] spares_id rfl
    have running := (given.trans (by simpa [World.extend] using alike')).extend
      (fun s => { s with holdsProcess := true }) [] [] (fun _ _ => rfl) rfl
    simpa [World.extend, World.given, World.configuring, World.resolving, asked, launched, holding]
      using running

end Serving

end Session

end TypeVerdict
