import TypeVerdict.Proofs.Ledger
import TypeVerdict.Proofs.Obliging

/-!
# Calling a session off

Whoever runs a session may call it off, and the session notices that where it waits: for
its configuration, its process, a listener, a collector, more output or the exit.  What
is called off there is not answered any more, and nothing that would follow is done, so
launching and following the checker end as called off themselves.

The two differ in what comes next.  A checker that was called off is stopped, and this
gives everything back.  A launch that was called off is left as it is, so that whatever
it took by then stays with a session that nobody closes.  And where the last stop itself
is refused, that refusal is what the run ends with.  Both are the only exceptions, and
`torn_down_of_calledOff` says when exactly each occurs.

## Main definitions

* `CalledOff`: an action is called off at one of its waits
* `CalledOffInStart`: a session is called off while it is launched or while its checker
  is followed
* `TornDown`: a session is closed, and what it took is given back
* `LeftInLaunch`, `TeardownRefused`: the two exceptions

## Main statements

* `calledOff_launch_iff`, `calledOff_runChecker_iff`: an action ends as called off exactly
  if it is called off at one of its waits
* `torn_down_of_calledOff`: what calling a session off comes to
-/

namespace TypeVerdict.Session

variable {α β : Type} {host : Host} {u v w : World}

/-! ### Waits -/

/-- **An action is called off at one of its waits.**  Where the definitions of several
files are collected, all files before were answered. -/
inductive CalledOff (host : Host) : {α : Type} → Act α → World → Prop where
  /-- It waits, and what others do meanwhile goes well. -/
  | wait {α : Type} {reply : Reply α} {u v : World}
      (meanwhile : exec (interfere host reply.meanwhile) u = (.ok (), v))
      (off : reply.ending = .cancelled) : CalledOff host (await host reply) u
  /-- The first half of it is called off. -/
  | first {α β : Type} {a : Act α} {f : α → Act β} {u : World} (off : CalledOff host a u) :
      CalledOff host (a >>= f) u
  /-- The first half is done, and the second is called off. -/
  | later {α β : Type} {a : Act α} {f : α → Act β} {x : α} {u v : World}
      (done : exec a u = (.ok x, v)) (off : CalledOff host (f x) v) : CalledOff host (a >>= f) u
  /-- It collects the definitions of all files, and is called off at one of them. -/
  | collecting {before after : List String} {path : String} {table : DefinitionTable}
      {found : List (String × Except Interruption (Option Definitions))} {u v : World}
      (files : u.session.files = before ++ path :: after)
      (answered : exec (collectEach host before) u = (.ok found, v))
      (gathered : gather found = .ok table) (off : CalledOff host (collectFile host path) v) :
      CalledOff host (collectAll host) u

/-! ### Collecting -/

/-- Asking for definitions always ends with what was found. -/
theorem exec_collectEach (host : Host) (paths : List String) (u : World) :
    ∃ found v, exec (collectEach host paths) u = (.ok found, v) := by
  induction paths generalizing u with
  | nil => exact ⟨_, _, rfl⟩
  | cons path more ih =>
      obtain ⟨rest, v, run⟩ := ih (exec (collectFile host path) u).2
      refine ⟨(path, (exec (collectFile host path) u).1) :: rest, v, ?_⟩
      rw [collectEach, exec_bind_ok (exec_attempt _ _), exec_bind_ok run, exec_pure]

/-- The files are asked for one after the other. -/
theorem exec_collectEach_append {before after : List String}
    {found rest : List (String × Except Interruption (Option Definitions))}
    (run : exec (collectEach host before) u = (.ok found, v))
    (next : exec (collectEach host after) v = (.ok rest, w)) :
    exec (collectEach host (before ++ after)) u = (.ok (found ++ rest), w) := by
  induction before generalizing u found with
  | nil =>
      cases run
      exact next
  | cons path more ih =>
      rw [collectEach, exec_bind_ok (exec_attempt _ _)] at run
      obtain ⟨later, v', run', last⟩ := exec_bind_eq_ok run
      cases last
      rw [List.cons_append, collectEach, exec_bind_ok (exec_attempt _ _), exec_bind_ok (ih run'),
        exec_pure, List.cons_append]

/-- A file that was answered does not change whether gathering is interrupted. -/
theorem gather_answered_eq_error_iff {path : String} {found? : Option Definitions}
    {more : List (String × Except Interruption (Option Definitions))} {e : Interruption} :
    gather ((path, .ok found?) :: more) = .error e ↔ gather more = .error e := by
  rw [gather]
  cases gather more with
  | error e' => exact Iff.rfl
  | ok table =>
      refine iff_of_false ?_ ?_
      · intro h
        cases h
      · intro h
        cases h

/-- The first interruption is what collecting comes to. -/
theorem gather_append_error {found : List (String × Except Interruption (Option Definitions))}
    {table : DefinitionTable} (gathered : gather found = .ok table) (path : String)
    (e : Interruption) (rest : List (String × Except Interruption (Option Definitions))) :
    gather (found ++ (path, .error e) :: rest) = .error e := by
  induction found generalizing table with
  | nil => rfl
  | cons entry more ih =>
      obtain ⟨other, e' | found?⟩ := entry
      · cases gathered
      · cases gathered' : gather more with
        | error e' =>
            rw [gather_answered_eq_error_iff.mpr gathered'] at gathered
            cases gathered
        | ok table' => exact gather_answered_eq_error_iff.mpr (ih gathered')

/-- **What is called off ends as called off.** -/
theorem CalledOff.exec_eq {a : Act α} (h : CalledOff host a u) :
    ∃ v, exec a u = (.error .cancelled, v) := by
  induction h with
  | wait meanwhile off =>
      rw [await, exec_bind_ok meanwhile, off]
      exact ⟨_, rfl⟩
  | first off ih =>
      obtain ⟨v, run⟩ := ih
      exact ⟨v, exec_bind_error run _⟩
  | later done off ih =>
      rw [exec_bind_ok done]
      exact ih
  | @collecting before after path table found u v files answered gathered off ih =>
      obtain ⟨v₁, run⟩ := ih
      obtain ⟨rest, v₂, next⟩ := exec_collectEach host after v₁
      have asked : exec (collectEach host (path :: after)) v =
          (.ok ((path, .error .cancelled) :: rest), v₂) := by
        rw [collectEach, exec_bind_ok (exec_attempt _ _), run, exec_bind_ok next, exec_pure]
      rw [collectAll, exec_bind_ok (exec_current u), files,
        exec_bind_ok (exec_collectEach_append answered asked),
        gather_append_error gathered]
      exact ⟨_, rfl⟩

/-! ### Nothing else calls a session off -/

/-- However an action ends, nobody called it off. -/
def Uncancelled (a : Act α) : Prop := ∀ w v, exec a w ≠ (.error .cancelled, v)

namespace Uncancelled

/-- An action that always succeeds. -/
theorem of_succeeds {a : Act α} (h : ∀ w, (exec a w).1.toBool = true) : Uncancelled a := by
  intro w v off
  have ok := h w
  rw [off] at ok
  cases ok

theorem pure (x : α) : Uncancelled (Pure.pure x : Act α) := of_succeeds fun _ => rfl

theorem current : Uncancelled Session.current := of_succeeds fun _ => rfl

theorem history : Uncancelled Session.history := of_succeeds fun _ => rfl

theorem pause : Uncancelled Session.pause := of_succeeds fun _ => rfl

theorem update (change : Session → Session) : Uncancelled (Session.update change) :=
  of_succeeds fun _ => rfl

theorem record (e : Event) : Uncancelled (Session.record e) := of_succeeds fun _ => rfl

theorem reach (m : Milestone) : Uncancelled (Session.reach m) := of_succeeds fun _ => rfl

theorem enter (phase : Phase) : Uncancelled (Session.enter phase) := of_succeeds fun _ => rfl

theorem attempt (a : Act α) : Uncancelled (Session.attempt a) := of_succeeds fun _ => rfl

theorem failWith (cause : Failure) : Uncancelled (Session.failWith cause : Act α) := by
  intro w v h
  cases h

theorem bind {a : Act α} {f : α → Act β} (ha : Uncancelled a) (hf : ∀ x, Uncancelled (f x)) :
    Uncancelled (a >>= f) := by
  intro w v h
  rcases run : exec a w with ⟨e | x, w'⟩
  · rw [exec_bind_error run] at h
    cases h
    exact ha w v run
  · rw [exec_bind_ok run] at h
    exact hf x w' v h

theorem ite {c : Prop} [Decidable c] {a b : Act α} (ha : Uncancelled a) (hb : Uncancelled b) :
    Uncancelled (if c then a else b) := by
  split
  · exact ha
  · exact hb

theorem thenAlways {a b : Act Unit} (ha : Uncancelled a) (hb : Uncancelled b) :
    Uncancelled (Session.thenAlways a b) := by
  intro w v h
  rw [Session.thenAlways, exec_bind_ok (exec_attempt a w)] at h
  rcases run : exec b (exec a w).2 with ⟨e | _, w'⟩
  · rw [exec_bind_error run] at h
    cases h
    exact hb _ _ run
  · rw [exec_bind_ok run, exec_ofExcept] at h
    have off : (exec a w).1 = .error .cancelled := congrArg Prod.fst h
    exact ha w (exec a w).2 (by rw [← off])

theorem clean (host : Host) : Uncancelled (Session.clean host) := by
  refine .bind .current fun s => .bind (.update _) fun _ => ?_
  split
  · exact .pure _
  · exact .pure _
  · refine .bind (.record _) fun _ => .bind .pause fun _ => .bind .history fun log => ?_
    split
    · exact .pure _
    · exact .failWith _

theorem terminate (host : Host) : Uncancelled (Session.terminate host) := by
  refine .bind (.record _) fun _ => .bind .pause fun _ => .bind .history fun log => ?_
  split
  · exact .pure _
  · exact .failWith _

theorem stop (host : Host) : Uncancelled (Session.stop host) := by
  refine .bind .current fun s => .ite (clean host) ?_
  refine .bind .current fun s => .bind (enter _) fun _ => .bind (.update _) fun _ => ?_
  exact .ite (thenAlways (terminate host) (clean host)) (clean host)

theorem tearDown (host : Host) (what : Teardown) : Uncancelled (Session.tearDown host what) := by
  cases what with
  | stop => exact stop host
  | clean => exact clean host

/-- Others tear a session down, but they do not call it off. -/
theorem interfere (host : Host) (meanwhile : List Interference) :
    Uncancelled (Session.interfere host meanwhile) := by
  induction meanwhile with
  | nil => exact .pause
  | cons i more ih =>
      cases i with
      | within what => exact .bind .pause fun _ => .bind (tearDown host what) fun _ => ih
      | beside what => exact .bind .pause fun _ => .bind (.attempt _) fun _ => ih

theorem judge (diagnostics : Grouping (Option String) LocatedDiagnostic)
    (table : DefinitionTable) : Uncancelled (Session.judge diagnostics table) := by
  refine .bind .current fun s => ?_
  split
  · exact .pure _
  · exact .failWith _

theorem hasStopped (output : Output) : Uncancelled (Session.hasStopped output) :=
  .bind .history fun _ => .pure _

end Uncancelled

/-- An action ends as called off only if it is called off at one of its waits. -/
def OnlyAtWaits (host : Host) (a : Act α) : Prop :=
  ∀ w v, exec a w = (.error .cancelled, v) → CalledOff host a w

namespace OnlyAtWaits

theorem of_uncancelled {a : Act α} (ha : Uncancelled a) : OnlyAtWaits host a :=
  fun w v h => absurd h (ha w v)

theorem bind {a : Act α} {f : α → Act β} (ha : OnlyAtWaits host a)
    (hf : ∀ x, OnlyAtWaits host (f x)) : OnlyAtWaits host (a >>= f) := by
  intro w v h
  rcases run : exec a w with ⟨e | x, w'⟩
  · rw [exec_bind_error run] at h
    cases h
    exact .first (ha w v run)
  · rw [exec_bind_ok run] at h
    exact .later run (hf x w' v h)

/-- An action that begins with one that nobody can call off. -/
theorem after {a : Act α} {f : α → Act β} (ha : Uncancelled a) (hf : ∀ x, OnlyAtWaits host (f x)) :
    OnlyAtWaits host (a >>= f) :=
  .bind (.of_uncancelled ha) hf

theorem ite {c : Prop} [Decidable c] {a b : Act α} (ha : OnlyAtWaits host a)
    (hb : OnlyAtWaits host b) : OnlyAtWaits host (if c then a else b) := by
  split
  · exact ha
  · exact hb

theorem pure (x : α) : OnlyAtWaits host (Pure.pure x : Act α) := .of_uncancelled (.pure x)

theorem await (reply : Reply α) : OnlyAtWaits host (Session.await host reply) := by
  intro w v h
  rcases meanwhile : exec (interfere host reply.meanwhile) w with ⟨e | _, w'⟩
  · rw [Session.await, exec_bind_error meanwhile] at h
    cases h
    exact absurd meanwhile (Uncancelled.interfere host _ _ _)
  · rw [Session.await, exec_bind_ok meanwhile] at h
    refine .wait meanwhile ?_
    cases ending : reply.ending with
    | cancelled => rfl
    | returns answer =>
        rw [ending] at h
        cases h
    | fails cause =>
        rw [ending] at h
        cases h

theorem notify (notice : Notice) : OnlyAtWaits host (Session.notify host notice) := by
  refine .after (.reach _) fun _ => .after .current fun s => ?_
  split
  · exact .pure _
  · exact .after (.record _) fun _ => .after .history fun _ => .await _

/-! #### Collecting -/

theorem collectFile (path : String) : OnlyAtWaits host (Session.collectFile host path) := by
  refine .after .current fun s => .after (.record _) fun _ => .after .history fun _ => ?_
  exact .bind (.await _) fun _ => .pure _

/-- If collecting is called off, this happens at the first file that was not answered. -/
theorem collectEach {paths : List String}
    {found : List (String × Except Interruption (Option Definitions))}
    (run : exec (collectEach host paths) u = (.ok found, v))
    (off : gather found = .error .cancelled) :
    ∃ before path after answers table v₁, paths = before ++ path :: after ∧
      exec (Session.collectEach host before) u = (.ok answers, v₁) ∧ gather answers = .ok table ∧
      CalledOff host (Session.collectFile host path) v₁ := by
  induction paths generalizing u found with
  | nil =>
      cases run
      cases off
  | cons path more ih =>
      rw [Session.collectEach, exec_bind_ok (exec_attempt _ _)] at run
      obtain ⟨rest, v₁, run₁, last⟩ := exec_bind_eq_ok run
      cases last
      rcases asked : exec (Session.collectFile host path) u with ⟨e | found?, u₁⟩
      · rw [asked] at off
        cases off
        exact ⟨[], path, more, [], [], u, rfl, rfl, rfl, collectFile path u u₁ asked⟩
      · rw [asked] at off run₁
        obtain ⟨before, path', after, answers, table, v₂, rfl, run₂, gathered, calledOff⟩ :=
          ih run₁ (gather_answered_eq_error_iff.mp off)
        refine ⟨path :: before, path', after, (path, .ok found?) :: answers, _, v₂, rfl, ?_,
          by rw [gather, gathered]; rfl, calledOff⟩
        rw [Session.collectEach, exec_bind_ok (exec_attempt _ _), asked, exec_bind_ok run₂,
          exec_pure]

theorem collectAll : OnlyAtWaits host (Session.collectAll host) := by
  intro w v h
  obtain ⟨found, v₁, run⟩ := exec_collectEach host w.session.files w
  rw [Session.collectAll, exec_bind_ok (exec_current w), exec_bind_ok run] at h
  cases gathered : gather found with
  | ok table =>
      rw [gathered, exec_bind_ok (exec_ofExcept _ _)] at h
      cases h
  | error e =>
      rw [gathered, exec_bind_error (exec_ofExcept _ _)] at h
      cases h
      obtain ⟨before, path, after, answers, table, v₂, files, answered, gathered, off⟩ :=
        collectEach run gathered
      exact .collecting files answered gathered off

theorem assembleFrom (diagnostics : Grouping (Option String) LocatedDiagnostic) :
    OnlyAtWaits host (Session.assembleFrom host diagnostics) := by
  refine .after .current fun s => ?_
  split
  · exact .after (.pure _) fun table => .of_uncancelled (.judge _ table)
  · exact .bind collectAll fun table => .of_uncancelled (.judge _ table)

/-! #### Passes -/

theorem beginRerun : OnlyAtWaits host (Session.beginRerun host) :=
  .after (.update _) fun _ => .notify _

theorem finishPass (output : List Char) : OnlyAtWaits host (Session.finishPass host output) := by
  refine .after (.reach _) fun _ => ?_
  refine .bind (.after .current fun s => .assembleFrom _) fun snapshot => ?_
  refine .after .current fun s => .ite (.pure _) ?_
  exact .after (.update _) fun _ => .notify _

theorem drain (rounds : Nat) : OnlyAtWaits host (Session.drain host rounds) := by
  induction rounds with
  | zero =>
      intro w v h
      cases h
  | succ rounds ih =>
      refine .after .current fun s => .ite (.pure _) ?_
      split
      · exact .pure _
      · exact .bind beginRerun fun _ => ih
      · exact .after (.update _) fun _ => .bind (finishPass _) fun _ => ih

theorem feed (rounds : Nat) (piece : List Char) :
    OnlyAtWaits host (Session.feed host rounds piece) :=
  .after (.update _) fun _ => .drain rounds

/-! #### Reading -/

theorem readAll (output : Output) (index : Nat) (pieces : List (Reply String)) :
    OnlyAtWaits host (Session.readAll host output index pieces) := by
  induction pieces generalizing index with
  | nil => exact .bind (.await _) fun _ => .pure _
  | cons reply more ih =>
      refine .after (.hasStopped output) fun _ => .ite (.pure _) ?_
      refine .bind (.await _) fun _ => .after (.record _) fun _ => ?_
      exact .bind (ih _) fun _ => .pure _

theorem follow (rounds : Nat) (output : Output) (index : Nat) (pieces : List (Reply String)) :
    OnlyAtWaits host (Session.follow host rounds output index pieces) := by
  induction pieces generalizing index with
  | nil => exact .await _
  | cons reply more ih =>
      refine .after (.hasStopped output) fun _ => .ite (.pure _) ?_
      refine .bind (.await _) fun _ => .after (.record _) fun _ => ?_
      refine .after .current fun s => .ite (.pure _) ?_
      exact .bind (.feed rounds _) fun _ => ih _

theorem awaitExit : OnlyAtWaits host (Session.awaitExit host) := by
  refine .after (.record _) fun _ => .after .history fun _ => ?_
  exact .bind (.await _) fun _ => .after (.update _) fun _ => .pure _

theorem conclude (text : List Char) (status : Int) :
    OnlyAtWaits host (Session.conclude host text status) := by
  refine .after .current fun s => .ite (.pure _) ?_
  refine .ite (.after (.failWith _) fun _ => ?_) ?_
  all_goals
    refine .bind (.assembleFrom _) fun snapshot => .after .current fun s => .ite (.pure _) ?_
    exact .after (.update _) fun _ => .after (.enter _) fun _ => .notify _

theorem checkOnce (output : Output) : OnlyAtWaits host (Session.checkOnce host output) := by
  rw [checkOnce_eq]
  exact .bind (.readAll _ _ _) fun text => .bind .awaitExit fun status => .conclude text status

theorem checkOnChange (rounds : Nat) (output : Output) :
    OnlyAtWaits host (Session.checkOnChange host rounds output) := by
  refine .bind (.follow _ _ _ _) fun _ => .after .current fun s => .ite (.pure _) ?_
  exact .bind .awaitExit fun _ => .of_uncancelled (.enter _)

theorem runChecker (rounds : Nat) (output : Output) :
    OnlyAtWaits host (Session.runChecker host rounds output) := by
  refine .bind (.notify _) fun _ => .after .current fun s => ?_
  exact .ite (.checkOnChange rounds output) (.checkOnce output)

theorem launch : OnlyAtWaits host (Session.launch host) := by
  refine .after .current fun s => .after (.record _) fun _ => .after .history fun log => ?_
  dsimp only
  cases host.resolveExecutable log with
  | error cause => exact .of_uncancelled (.failWith cause)
  | ok executable =>
      refine .after (.pure _) fun executable => .after (.record _) fun _ => ?_
      refine .after .history fun _ => .bind (.await _) fun config => ?_
      refine .after (.update _) fun _ => .after (.record _) fun _ => .after .history fun _ => ?_
      exact .bind (.await _) fun output => .after (.update _) fun _ => .pure _

end OnlyAtWaits

/-- **A launch ends as called off** exactly if it is called off at one of its waits. -/
theorem calledOff_launch_iff (host : Host) (u : World) :
    CalledOff host (launch host) u ↔ ∃ v, exec (launch host) u = (.error .cancelled, v) :=
  ⟨CalledOff.exec_eq, fun ⟨v, run⟩ => OnlyAtWaits.launch u v run⟩

/-- **A checker is called off** exactly at one of the waits in which it is followed. -/
theorem calledOff_runChecker_iff (host : Host) (rounds : Nat) (output : Output) (u : World) :
    CalledOff host (runChecker host rounds output) u ↔
      ∃ v, exec (runChecker host rounds output) u = (.error .cancelled, v) :=
  ⟨CalledOff.exec_eq, fun ⟨v, run⟩ => OnlyAtWaits.runChecker rounds output u v run⟩

/-! ### What is left behind -/

section Start

variable {rounds : Nat} {w' : World}

/-- **A session is called off**: while it is launched, or while its checker is followed. -/
def CalledOffInStart (host : Host) (rounds : Nat) (w : World) : Prop :=
  CalledOff host (launch host) (w.entering .starting) ∨
  ∃ output v, exec (launch host) (w.entering .starting) = (.ok output, v) ∧
    CalledOff host (runChecker host rounds output) (v.entering .running)

/-- **A run tears the session down**: in the end it is closed, the configuration that it was
given, if its path is not empty, was removed once and nothing else was, and the process, if
one was spawned that was not waited for, was terminated once. -/
structure TornDown (host : Host) (rounds : Nat) (w w' : World) : Prop where
  closed : w'.session.phase = .closed
  removed : ∀ path, Configured host (w.entering .starting) path → path ≠ "" →
    removals w'.log = removals w.log ++ [path]
  terminated : Spawned host (w.entering .starting) → ¬ Exited host rounds (w.entering .starting) →
    terminations w'.log = terminations w.log + 1

/-- **The launch is called off and something is left**: nobody closed the session meanwhile,
or the configuration is still to be removed. -/
def LeftInLaunch (host : Host) (w : World) : Prop :=
  ∃ v, exec (launch host) (w.entering .starting) = (.error .cancelled, v) ∧
    (v.session.phase ≠ .closed ∨ v.session.owedRemovals ≠ [])

/-- **The last stop is refused**: the checker is called off, and then the process cannot be
terminated or the configuration not removed. -/
def TeardownRefused (host : Host) (rounds : Nat) (w : World) : Prop :=
  ∃ output v₀ v, exec (launch host) (w.entering .starting) = (.ok output, v₀) ∧
    exec (runChecker host rounds output) (v₀.entering .running) = (.error .cancelled, v) ∧
    ∃ e v', exec (stop host) v = (.error e, v')

/-- A launch only adds to the log. -/
theorem log_launch {r : Except Interruption Output} (run : exec (launch host) u = (r, v)) :
    u.log <+: v.log := by
  have grows : Guides (Preserves fun m => u.log <+: m.log) (launch host) := by
    refine guides_launch (fun m m' release before => ?_)
      (fun m e _ _ before => before.trans (List.prefix_append _ _)) fun m _ _ before => before
    cases release with
    | close isOpen => exact before.trans (List.prefix_append _ _)
    | clean => exact before.trans (List.prefix_append _ _)
  exact grows.of_exec run List.prefix_rfl

/-- A launch that was given no configuration with a path holds none. -/
theorem owedRemovals_of_launch (config : u.session.config? = none)
    (process : u.session.holdsProcess = false) {r : Except Interruption Output}
    (launched : exec (launch host) u = (r, v))
    (unnamed : ∀ path, Configured host u path → path = "") : v.session.owedRemovals = [] := by
  obtain ⟨-, -, configured, unconfigured⟩ := due_launch config process launched
  have due : v.removalsDue = removals u.log := by
    by_cases given : ∃ path, Configured host u path
    · obtain ⟨path, given⟩ := given
      rw [configured path given, unnamed path given]
      simp
    · exact unconfigured (not_exists.mp given)
  -- nothing is due, and the log forgets nothing
  obtain ⟨more, log⟩ := log_launch launched
  rw [World.removalsDue, ← log, removals_append, List.append_assoc, List.append_right_eq_self,
    List.append_eq_nil_iff] at due
  exact due.2

/-- **A launch that is called off** is left as it is: it tore the session down only if others
did. -/
theorem tornDown_of_launch (unstarted : w.Unstarted)
    (launched : exec (launch host) (w.entering .starting) = (.error .cancelled, v)) :
    TornDown host rounds w v ↔ v.session.phase = .closed ∧ v.session.owedRemovals = [] := by
  obtain ⟨-, -, configured, -⟩ :=
    due_launch (u := w.entering .starting) unstarted.config unstarted.process launched
  constructor
  · intro torn
    refine ⟨torn.closed, ?_⟩
    by_cases given : ∃ path, Configured host (w.entering .starting) path ∧ path ≠ ""
    · obtain ⟨path, given, named⟩ := given
      have due := configured path given
      rw [World.removalsDue, torn.removed path given named] at due
      simpa [World.entering, named] using due
    · refine owedRemovals_of_launch (u := w.entering .starting) unstarted.config unstarted.process
        launched fun path any => ?_
      by_contra named
      exact given ⟨path, any, named⟩
  · rintro ⟨closed, empty⟩
    refine ⟨closed, fun path given named => ?_,
      fun spawned => absurd spawned (not_spawned_of_error launched)⟩
    have due := configured path given
    rw [World.removalsDue, empty, List.append_nil] at due
    rw [due]
    simp [World.entering, named]

/-- **A checker that is called off** is stopped, which tears the session down, even where it
is refused. -/
theorem tornDown_of_runChecker (unstarted : w.Unstarted) {output : Output} {v₀ : World}
    (launched : exec (launch host) (w.entering .starting) = (.ok output, v₀))
    (ran : exec (runChecker host rounds output) (v₀.entering .running) = (.error .cancelled, v)) :
    TornDown host rounds w (exec (stop host) v).2 := by
  obtain ⟨tidy, configured, -, still, -⟩ := due_of_interrupted unstarted launched ran
  obtain ⟨closed, -, removed, terminated⟩ := @snd_exec_stop_due host v tidy
  refine ⟨closed, fun path given named => ?_, fun _ never => terminated.trans (still never)⟩
  rw [removed, configured path given]
  simp [named]

/-- What is left of a launch that was called off can be read off where it ended. -/
theorem leftInLaunch_iff
    (launched : exec (launch host) (w.entering .starting) = (.error .cancelled, v)) :
    LeftInLaunch host w ↔ v.session.phase ≠ .closed ∨ v.session.owedRemovals ≠ [] := by
  constructor
  · rintro ⟨v', launched', left⟩
    rw [launched] at launched'
    cases launched'
    exact left
  · intro left
    exact ⟨v, launched, left⟩

/-- Whether the last stop is refused is known where the checker was called off. -/
theorem teardownRefused_iff {output : Output} {v₀ : World}
    (launched : exec (launch host) (w.entering .starting) = (.ok output, v₀))
    (ran : exec (runChecker host rounds output) (v₀.entering .running) = (.error .cancelled, v)) :
    TeardownRefused host rounds w ↔ ∃ e v', exec (stop host) v = (.error e, v') := by
  constructor
  · rintro ⟨output', v₀', v', launched', ran', refused⟩
    rw [launched] at launched'
    cases launched'
    rw [ran] at ran'
    cases ran'
    exact refused
  · intro refused
    exact ⟨output, v₀, v, launched, ran, refused⟩

/-- What is called off surfaces after a stop exactly if the stop is not refused. -/
theorem cancelled_of_stop_iff (host : Host) (v : World) :
    (exec (do stop host; throw .cancelled : Act Unit) v).1 = .error .cancelled ↔
      ¬ ∃ e v', exec (stop host) v = (.error e, v') := by
  rcases stopped : exec (stop host) v with ⟨e | _, v'⟩
  · -- the refusal takes the place of the call
    rw [exec_bind_error stopped]
    refine iff_of_false ?_ (not_not_intro ⟨e, v', rfl⟩)
    intro same
    cases same
    exact Uncancelled.stop host v v' stopped
  · rw [exec_bind_ok stopped]
    refine iff_of_true rfl ?_
    rintro ⟨e, v'', refused⟩
    cases refused

/-- **What calling a session off comes to**, in whatever mode, at whichever wait, and whatever
others do meanwhile.  The run ends as called off, unless the last stop is refused, and it
tears the session down, unless something is left of the launch. -/
theorem torn_down_of_calledOff (unstarted : w.Unstarted) (off : CalledOffInStart host rounds w)
    {r : Except Interruption Unit} (run : exec (start host rounds) w = (r, w')) :
    (r = .error .cancelled ↔ ¬ TeardownRefused host rounds w) ∧
    (TornDown host rounds w w' ↔ ¬ LeftInLaunch host w) := by
  rw [exec_start unstarted.idle] at run
  rcases off with inLaunch | ⟨output, v₀, launched, inChecker⟩
  · -- the launch is left as it is
    obtain ⟨v, launched⟩ := inLaunch.exec_eq
    rw [launched] at run
    cases run
    have accepted : ¬ TeardownRefused host rounds w := by
      rintro ⟨output, v₀, -, ok, -⟩
      rw [launched] at ok
      cases ok
    refine ⟨iff_of_true rfl accepted, ?_⟩
    rw [tornDown_of_launch unstarted launched, leftInLaunch_iff launched, not_or, not_not, not_not]
  · -- the checker is stopped
    obtain ⟨v, ran⟩ := inChecker.exec_eq
    have torn : TornDown host rounds w (exec (stop host) v).2 :=
      tornDown_of_runChecker unstarted launched ran
    have nothing : ¬ LeftInLaunch host w := by
      rintro ⟨v, failed, -⟩
      rw [launched] at failed
      cases failed
    rw [launched] at run
    dsimp only at run
    rw [ran] at run
    dsimp only at run
    have left : w' = (exec (stop host) v).2 := by
      rw [← snd_exec_stop_throw host .cancelled, run]
    rw [teardownRefused_iff launched ran, ← cancelled_of_stop_iff, run, left]
    exact ⟨Iff.rfl, iff_of_true torn nothing⟩

end Start

/-- A host whose checker writes nothing, and hangs until it is called off. -/
def hanging : Host :=
  { Host.quiet with
    createConfig := fun _ => .pure "tsconfig.json"
    spawn := fun _ => .pure { pieces := [], afterwards := ⟨[], .cancelled⟩ } }

/-- A single run that is called off while its checker hangs. -/
theorem torn_down_of_calledOff_hanging :
    ∃ w', exec (start hanging 1) ⟨new {} [], [], []⟩ = (.error .cancelled, w') ∧
      TornDown hanging 1 ⟨new {} [], [], []⟩ w' := by
  have off : CalledOffInStart hanging 1 ⟨new {} [], [], []⟩ :=
    Or.inr ⟨_, _, rfl, (calledOff_runChecker_iff _ _ _ _).mpr ⟨_, rfl⟩⟩
  refine ⟨_, rfl, (torn_down_of_calledOff (unstarted_new {} [] {}) off rfl).2.mpr ?_⟩
  rintro ⟨v, launched, -⟩
  cases launched

/-- **Calling a session off need not tear it down, nor surface.**  A launch that is called off
while the process is spawned leaves a starting session behind that still holds its
configuration; and where the process of a checker that is called off cannot be terminated,
the run ends with that. -/
theorem not_torn_down_of_calledOff :
    (∃ host w', CalledOffInStart host 1 ⟨new {} [], [], []⟩ ∧
      exec (start host 1) ⟨new {} [], [], []⟩ = (.error .cancelled, w') ∧
      Configured host (World.entering ⟨new {} [], [], []⟩ .starting) "tsconfig.json" ∧
      w'.session.phase = .starting ∧ removals w'.log = [] ∧
      ¬ TornDown host 1 ⟨new {} [], [], []⟩ w') ∧
    ∃ host w', CalledOffInStart host 1 ⟨new {} [], [], []⟩ ∧
      exec (start host 1) ⟨new {} [], [], []⟩ =
        (.error (.failure (.system "cannot kill")), w') := by
  constructor
  · refine ⟨{ hanging with spawn := fun _ => ⟨[], .cancelled⟩ }, _,
      Or.inl ((calledOff_launch_iff _ _).mpr ⟨_, rfl⟩), rfl, ⟨_, _, rfl, rfl⟩, rfl, rfl, ?_⟩
    intro torn
    cases torn.closed
  · exact ⟨{ hanging with terminate := fun _ => some (.system "cannot kill") }, _,
      Or.inr ⟨_, _, rfl, (calledOff_runChecker_iff _ _ _ _).mpr ⟨_, rfl⟩⟩, rfl⟩

end TypeVerdict.Session
