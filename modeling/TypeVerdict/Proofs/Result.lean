import TypeVerdict.Proofs.Conservation
import TypeVerdict.Proofs.Silence

/-!
# The result of a session

At any time a session can be asked for its result.  The answer depends on nothing but what
was published and announced last: the empty snapshot, if nothing was published yet or if a
pass was announced since, and the last published snapshot otherwise (`CallsFor`).  A pass
that fails, a listener that refuses, and a teardown change nothing about it.

Any time is a time at which somebody else can ask: before and after a session is started or
torn down, and wherever it waits meanwhile, for a listener, a collector or more output
(`stages`).  The proof follows the session through these, from the moment it is made and
whatever its surroundings do, in steps so small that each reaches at most one milestone
(`Stir`).  The invariant (`Current`) ties the result to the course; and it ties the flag for
announcements to the course too: if the flag is clear, every announcement of the past has a
complete pass behind it.  An announcement is acted on only if the flag is clear.  That is why
two announcements never follow one another without a complete pass between them (`Spaced`).

## Main definitions

* `Session.CallsFor`: the result that a course calls for
* `Session.Consumes`, `Session.Spaced`: a complete pass was taken up; so it was between any
  two announcements
* `Session.Stir`: one small step of a whole session
* `Session.Command`, `Session.drive`: a session is started and torn down, again and again
* `Session.stages`: the worlds in which others can look at it meanwhile
* `Session.Current`: the invariant
* `Session.Later`: what becomes of the result from one stage to a later one

## Main statements

* `callsFor_shown`: there is such a result
* `stirs_start`, `pairwise_stages`: a session gets from stage to stage in small steps
* `Current.of_stir`: every small step keeps the invariant
* `result_of_drive`: the result at any time
-/

namespace TypeVerdict.Session

variable {host : Host} {rounds : Nat} {markers : Markers} {u v w : World}
  {course more : List Milestone}

/-! ### The result that a course calls for -/

/-- **A course calls for a result**: the snapshot that was published last, and the empty
one if there is none or if a pass was announced since. -/
structure CallsFor (course : List Milestone) (result : Snapshot) : Prop where
  /-- Nothing was published yet. -/
  unpublished : (∀ s, .told (.published s) ∉ course) → result = .empty
  /-- A pass was announced behind the last publication. -/
  announced : ∀ before after, course = before ++ .told .rerun :: after →
    (∀ s, .told (.published s) ∉ after) → result = .empty
  /-- Nothing was published or announced behind this publication. -/
  published : ∀ before s after, course = before ++ .told (.published s) :: after →
    (∀ s', .told (.published s') ∉ after) → .told .rerun ∉ after → result = s

theorem shown_append : shown (course ++ more) = more.foldl Milestone.shown (shown course) :=
  List.foldl_append ..

/-- What is not a publication leaves the empty result empty. -/
theorem foldl_shown_empty (none : ∀ s, .told (.published s) ∉ more) :
    more.foldl Milestone.shown .empty = .empty := by
  induction more with
  | nil => rfl
  | cons m more ih =>
      have still : m.shown .empty = .empty := by
        rcases m with _ | _ | (_ | s | _)
        · rfl
        · rfl
        · rfl
        · exact absurd List.mem_cons_self (none s)
        · rfl
      rw [List.foldl_cons, still]
      exact ih fun s mem => none s (List.mem_cons_of_mem _ mem)

/-- What is neither a publication nor an announcement leaves every result as it is. -/
theorem foldl_shown_of_not_mem (none : ∀ s, .told (.published s) ∉ more)
    (quiet : .told .rerun ∉ more) (result : Snapshot) :
    more.foldl Milestone.shown result = result := by
  induction more with
  | nil => rfl
  | cons m more ih =>
      have still : m.shown result = result := by
        rcases m with _ | _ | (_ | s | _)
        · rfl
        · rfl
        · rfl
        · exact absurd List.mem_cons_self (none s)
        · exact absurd List.mem_cons_self quiet
      rw [List.foldl_cons, still]
      apply ih
      · intro s mem
        exact none s (List.mem_cons_of_mem _ mem)
      · intro mem
        exact quiet (List.mem_cons_of_mem _ mem)

/-- **What a course shows is what it calls for.** -/
theorem callsFor_shown (course : List Milestone) : CallsFor course (shown course) where
  unpublished none := foldl_shown_empty none
  announced before after split none := by
    rw [split, shown_append]
    exact foldl_shown_empty none
  published before s after split none quiet := by
    rw [split, shown_append]
    exact foldl_shown_of_not_mem none quiet s

/-! ### Complete passes between announcements -/

/-- **A complete pass was taken up**: a text with everything up to the end of the first
marker for a complete pass in what was buffered. -/
def Consumes (markers : Markers) (course : List Milestone) : Prop :=
  ∃ output rest start stop, .completed output ∈ course ∧
    markers.nextPassEnd? (output ++ rest) = some (start, stop) ∧ stop ≤ output.length

/-- Between any two announcements a complete pass was taken up. -/
def Spaced (markers : Markers) (course : List Milestone) : Prop :=
  ∀ before between after,
    course = before ++ .told .rerun :: (between ++ .told .rerun :: after) →
    Consumes markers between

theorem Consumes.append (h : Consumes markers course) (more : List Milestone) :
    Consumes markers (course ++ more) := by
  obtain ⟨output, rest, start, stop, mem, found⟩ := h
  exact ⟨output, rest, start, stop, List.mem_append_left _ mem, found⟩

/-- A text that a buffer gives up as a pass holds the marker that completes it. -/
theorem consumes_of_next {flag : Bool} {buffer output rest : List Char}
    (called : Segment.next markers flag buffer = .pass output rest)
    (mem : .completed output ∈ course) : Consumes markers course := by
  have whole : output ++ rest = buffer := Segment.append_of_next called
  rcases Segment.next_cases markers flag buffer with
    ⟨wait, -⟩ | ⟨rerun, -⟩ | ⟨start, stop, found, cut, -⟩
  · rw [wait] at called
    cases called
  · rw [rerun] at called
    cases called
  · refine ⟨output, rest, start, stop, mem, whole ▸ found, ?_⟩
    have inside : stop ≤ buffer.length := (markers.passEnd.search.bounds found).2.2
    rw [called, Segment.cutBehind] at cut
    split at cut
    · -- the cut is where the next announcement begins, at or behind the marker
      next next _ announced =>
        have behind : min stop buffer.length ≤ next := (markers.rerun.search.bounds announced).1
        cases cut
        rw [List.length_take]
        omega
    · cases cut
      exact inside

/-- Where a course that grew by one milestone is split, the milestone is the split or lies
behind it. -/
theorem split_of_concat {m n : Milestone} {before after : List Milestone}
    (split : course ++ [m] = before ++ n :: after) :
    (after = [] ∧ m = n ∧ course = before) ∨
    ∃ after', after = after' ++ [m] ∧ course = before ++ n :: after' := by
  rcases List.eq_nil_or_concat after with rfl | ⟨after', last, rfl⟩
  · obtain ⟨same, rest⟩ := List.append_inj' split rfl
    exact Or.inl ⟨rfl, List.singleton_inj.mp rest, same⟩
  · rw [List.concat_eq_append, ← List.cons_append, ← List.append_assoc] at split
    obtain ⟨same, rest⟩ := List.append_inj' split rfl
    exact Or.inr ⟨after', by rw [List.singleton_inj.mp rest, List.concat_eq_append], same⟩

/-- What is not an announcement leaves the announcements spaced. -/
theorem Spaced.append_singleton (h : Spaced markers course) {m : Milestone}
    (other : m ≠ .told .rerun) : Spaced markers (course ++ [m]) := by
  intro before between after split
  rw [← List.cons_append, ← List.append_assoc] at split
  rcases split_of_concat split with ⟨-, same, -⟩ | ⟨after', -, split'⟩
  · exact absurd same other
  · apply h before between after'
    rw [split', List.append_assoc, List.cons_append]

/-! ### Small steps -/

/-- **One small step of a whole session**: a move, or what happens in between. -/
inductive Stir : World → World → Prop where
  /-- A move of a session that runs. -/
  | move {u v : World} (h : Move u v) : Stir u v
  /-- The configuration or the process is taken, or given away without a trace. -/
  | take {w : World} (config? : Option String) (holdsProcess : Bool) :
      Stir w { w with session := { w.session with config?, holdsProcess } }
  /-- A phase is entered. -/
  | enter {w : World} (phase : Phase) : Stir w (w.entering phase)

/-- Any number of small steps. -/
abbrev Stirs : World → World → Prop := Relation.ReflTransGen Stir

theorem Stirs.of_moves (h : Moves u v) : Stirs u v :=
  h.lift id fun _ _ => .move

theorem Stirs.of_released (h : Released u v) : Stirs u v :=
  Stirs.of_moves (Moves.of_released h)

theorem stirs_await {α : Type} (reply : Reply α) : Guides Stirs (await host reply) :=
  (Moves.await reply).mono fun _ _ => Stirs.of_moves

theorem stirs_awaitExit : Guides Stirs (awaitExit host) := by
  refine .bind (.atOnce fun w => .single (.move (.ask .wait rfl))) fun _ => ?_
  refine .bind .history fun _ => ?_
  refine .bind (stirs_await _) fun _ => ?_
  exact .bind (.atOnce fun w => .single (.take w.session.config? false)) fun _ => .pure _

theorem stirs_launch : Guides Stirs (launch host) :=
  guides_launch (fun _ _ h => Stirs.of_released (.single h))
    (fun _ e question _ => .single (.move (.ask e question)))
    fun _ config? holdsProcess => .single (.take config? holdsProcess)

/-- A single run is done before its snapshot is told. -/
theorem stirs_conclude (text : List Char) (status : Int) :
    Guides Stirs (conclude host text status) := by
  refine fun w => .skip (exec_current w) rfl ?_
  split
  · exact .of_end rfl .refl
  dsimp only
  split
  · exact .of_end rfl .refl
  refine .bind ((Moves.assembleFrom _).mono (fun _ _ => Stirs.of_moves) w) fun snapshot => ?_
  refine fun v => .skip (exec_current v) rfl ?_
  split
  · exact .of_end rfl .refl
  · have done : (v.entering .done).session.phase ≠ .closed := by simp [World.entering]
    refine .skip (exec_update _ v) rfl (.skip (exec_enter _ _) rfl ?_)
    exact .head (.single (.enter .done))
      ((Moves.tell done (by simp)).mono fun _ _ => Stirs.of_moves)

theorem stirs_checkOnce (output : Output) : Guides Stirs (checkOnce host output) := by
  rw [checkOnce_eq]
  refine .bind ((Moves.readAll _ _ _).mono fun _ _ => Stirs.of_moves) fun text => ?_
  exact .bind stirs_awaitExit fun status => stirs_conclude text status

theorem stirs_checkOnChange (output : Output) :
    Guides Stirs (checkOnChange host rounds output) := by
  refine .bind ((Moves.follow _ _ _ _).mono fun _ _ => Stirs.of_moves) fun _ => ?_
  refine .bind .current fun s => ?_
  apply Guides.ite
  · exact .pure _
  · exact .bind stirs_awaitExit fun _ => .atOnce fun w => .single (.enter .done)

/-- An open session follows its checker in small steps. -/
theorem stirs_runChecker (isOpen : u.session.phase ≠ .closed) (output : Output) :
    GuidesFrom Stirs u (runChecker host rounds output) u := by
  refine .bind ((Moves.tellStart isOpen).mono fun _ _ => Stirs.of_moves) fun _ => ?_
  refine .bind .current fun s => ?_
  apply Guides.ite
  · exact stirs_checkOnChange output
  · exact stirs_checkOnce output

/-- **A start comes to small steps**, wherever it waits and whatever comes of it. -/
theorem stirs_start : Guides Stirs (start host rounds) := by
  intro w
  have stopped (e : Interruption) : Guides Stirs (do stop host; throw e : Act Unit) :=
    .bind ((guides_stop host).mono fun _ _ => Stirs.of_released) fun _ => .throw e
  rw [start]
  refine .skip (exec_current w) rfl ?_
  dsimp only
  split
  · -- a session that is not idle refuses to be started, and nothing changes
    refine .of_end (waits_bind_error (exec_failWith _ w) _) ?_
    rw [exec_bind_error (exec_failWith _ w)]
  refine .skip (exec_enter _ w) rfl (.head (.single (.enter .starting)) ?_)
  refine .bind (stirs_launch _).attempt fun launched => ?_
  rcases launched with (cause | _ | _) | output
  · exact stopped (.failure cause)
  · exact .throw _
  · exact .throw _
  intro v
  have isOpen : (v.entering .running).session.phase ≠ .closed := by simp [World.entering]
  refine .skip (exec_enter _ v) rfl (.head (.single (.enter .running)) ?_)
  refine .bind (stirs_runChecker isOpen output).attempt fun ran => ?_
  rcases ran with (cause | _ | _) | _
  · exact stopped (.failure cause)
  · exact stopped .cancelled
  · exact .throw _
  · exact .pure _

/-! ### Commands -/

/-- What can be done with a session from outside. -/
inductive Command where
  | start
  | tearDown (what : Teardown)

/-- The action of a command. -/
def Command.act (host : Host) (rounds : Nat) : Command → Act Unit
  | start => Session.start host rounds
  | tearDown what => Session.tearDown host what

theorem Command.stirs_act (command : Command) : Guides Stirs (command.act host rounds) := by
  cases command with
  | start => exact stirs_start
  | tearDown what => exact (guides_tearDown host what).mono fun _ _ => Stirs.of_released

/-- The world after some commands, one after the other, each whatever came of those
before. -/
def drive (host : Host) (rounds : Nat) (commands : List Command) (w : World) : World :=
  commands.foldl (fun w command => (exec (command.act host rounds) w).2) w

/-- **The stages of a session**: the worlds in which others can look at it, in order.  They can
before the first command and behind every one, and wherever a command waits. -/
def stages (host : Host) (rounds : Nat) (commands : List Command) (w : World) : List World :=
  match commands with
  | [] => [w]
  | command :: more =>
    w :: ((command.act host rounds).waits w ++
      stages host rounds more (exec (command.act host rounds) w).2)

/-! ### The invariant -/

/-- **The result is current**, and so is the flag: as long as it is clear, a complete pass
was taken up behind every announcement. -/
structure Current (markers : Markers) (w : World) : Prop where
  options : w.session.options.markers = markers
  result : w.session.snapshot = shown w.course
  spaced : Spaced markers w.course
  flag : w.session.rerunSeen = false → ∀ before after,
    w.course = before ++ .told .rerun :: after → Consumes markers after

namespace Current

theorem of_new (options : Options) (files : List String) (l : Listeners) :
    Current options.markers ⟨new options files l, [], []⟩ where
  options := rfl
  result := rfl
  spaced := by
    intro before between after split
    simp at split
  flag := by
    intro _ before after split
    simp at split

/-- What changes neither the course nor the result nor the flag. -/
theorem of_same (h : Current markers u) (options : v.session.options = u.session.options)
    (course : v.course = u.course) (result : v.session.snapshot = u.session.snapshot)
    (flag : v.session.rerunSeen = u.session.rerunSeen) : Current markers v where
  options := options ▸ h.options
  result := by rw [result, course, h.result]
  spaced := course ▸ h.spaced
  flag := by
    rw [flag, course]
    exact h.flag

/-- Reaching a milestone that is not an announcement. -/
theorem of_reach (h : Current markers u) {m : Milestone} (other : m ≠ .told .rerun)
    (options : v.session.options = u.session.options) (course : v.course = u.course ++ [m])
    (result : v.session.snapshot = m.shown u.session.snapshot)
    (flag : v.session.rerunSeen = u.session.rerunSeen) : Current markers v where
  options := options ▸ h.options
  result := by rw [result, course, shown_append_singleton, h.result]
  spaced := course ▸ h.spaced.append_singleton other
  flag := by
    rw [flag, course]
    intro clear before after split
    rcases split_of_concat split with ⟨-, same, -⟩ | ⟨after', rfl, split'⟩
    · exact absurd same other
    · exact (h.flag clear before after' split').append [m]

/-- **An announcement** is acted on if the flag is clear, so a complete pass was taken up
behind the announcement before it. -/
theorem announcing (h : Current markers w)
    (called : Segment.next w.session.options.markers w.session.rerunSeen w.session.buffer =
      .rerun) : Current markers w.announcing where
  options := h.options
  result := by
    show Snapshot.empty = shown (w.course ++ [.told .rerun])
    rw [shown_append_singleton]
    rfl
  spaced := by
    intro before between after split
    have split : w.course ++ [.told .rerun] =
        before ++ .told .rerun :: (between ++ .told .rerun :: after) := split
    rw [← List.cons_append, ← List.append_assoc] at split
    rcases split_of_concat split with ⟨-, -, split'⟩ | ⟨after', -, split'⟩
    · exact h.flag (Segment.flag_of_next called) before between split'
    · apply h.spaced before between after'
      rw [split', List.append_assoc, List.cons_append]
  flag := by
    intro clear
    cases clear

/-- **A complete pass** clears the flag, and it stands behind every announcement. -/
theorem completing (h : Current markers w) {output rest : List Char}
    (called : Segment.next w.session.options.markers w.session.rerunSeen w.session.buffer =
      .pass output rest) : Current markers (w.completing output rest) where
  options := h.options
  result := by
    show w.session.snapshot = shown (w.course ++ [.completed output])
    rw [shown_append_singleton, ← h.result]
    rfl
  spaced := h.spaced.append_singleton (by simp)
  flag := by
    intro _ before after split
    have split : w.course ++ [.completed output] = before ++ .told .rerun :: after := split
    rcases split_of_concat split with ⟨-, same, -⟩ | ⟨after', rfl, -⟩
    · cases same
    · rw [h.options] at called
      exact consumes_of_next called (List.mem_append_right _ (List.mem_singleton.mpr rfl))

/-- **Every small step keeps the invariant.** -/
theorem of_stir (h : Current markers u) (step : Stir u v) : Current markers v := by
  cases step with
  | enter phase => exact h.of_reach (m := .entered phase) (by simp) rfl rfl rfl rfl
  | take config? holdsProcess => exact h.of_same rfl rfl rfl rfl
  | move step =>
      cases step with
      | release released =>
          cases released with
          | close isOpen => exact h.of_reach (m := .entered .closed) (by simp) rfl rfl rfl rfl
          | clean => exact h.of_same rfl rfl rfl rfl
      | ask | collect | receive => exact h.of_same rfl rfl rfl rfl
      | tell notice isOpen other =>
          exact h.of_reach (m := .told notice) (by simpa using other) rfl rfl rfl rfl
      | announce isOpen called => exact h.announcing called
      | complete isOpen called => exact h.completing called

theorem of_stirs (h : Current markers u) (steps : Stirs u v) : Current markers v :=
  Preorderly.of_steps (R := Preserves (Current markers)) (fun _ _ step h => h.of_stir step) steps h

end Current

/-! ### Whole sessions -/

/-- A small step adds milestones at most. -/
theorem prefix_of_stirs (h : Stirs u v) : u.course <+: v.course := by
  induction h with
  | refl => exact List.prefix_rfl
  | tail _ step ih =>
      refine ih.trans ?_
      cases step with
      | enter phase => exact List.prefix_append _ _
      | take config? holdsProcess => exact List.prefix_rfl
      | move step =>
          cases step with
          | release released =>
              cases released with
              | close isOpen => exact List.prefix_append _ _
              | clean => exact List.prefix_rfl
          | ask | collect | receive => exact List.prefix_rfl
          | tell | announce | complete => exact List.prefix_append _ _

/-- The first stage is the world at the beginning. -/
theorem exists_stages_eq (commands : List Command) (w : World) :
    ∃ more, stages host rounds commands w = w :: more := by
  cases commands with
  | nil => exact ⟨[], rfl⟩
  | cons command more => exact ⟨_, rfl⟩

/-- The last stage is the world in which the session is left. -/
theorem getLast?_stages (commands : List Command) (w : World) :
    (stages host rounds commands w).getLast? = some (drive host rounds commands w) := by
  induction commands generalizing w with
  | nil => rfl
  | cons command more ih =>
      obtain ⟨later, begins⟩ := @exists_stages_eq host rounds more
        (exec (command.act host rounds) w).2
      have last := ih (exec (command.act host rounds) w).2
      rw [begins] at last
      rw [stages, begins, ← List.cons_append, List.getLast?_append, last]
      rfl

/-- **From stage to stage a session takes small steps.** -/
theorem pairwise_stages (commands : List Command) (w : World) :
    (stages host rounds commands w).Pairwise Stirs := by
  induction commands generalizing w with
  | nil => exact List.pairwise_singleton _ _
  | cons command more ih =>
      have rest := ih (exec (command.act host rounds) w).2
      obtain ⟨later, begins⟩ := @exists_stages_eq host rounds more
        (exec (command.act host rounds) w).2
      have along := @Command.stirs_act host rounds command w
      rw [GuidesFrom, trail, ← List.cons_append, List.pairwise_append] at along
      obtain ⟨waits, -, toEnd⟩ := along
      rw [stages, ← List.cons_append, List.pairwise_append]
      refine ⟨waits, rest, fun u mem v mem' => ?_⟩
      have ended : Stirs u _ := toEnd u mem _ List.mem_cons_self
      rw [begins] at rest mem'
      rcases List.mem_cons.mp mem' with rfl | mem'
      · exact ended
      · exact ended.trans (List.rel_of_pairwise_cons rest mem')

/-- **A later stage.**  Milestones may have been reached since, and the result is the same unless a
snapshot was published or a pass announced. -/
structure Later (u v : World) : Prop where
  course : u.course <+: v.course
  result : ∀ more, v.course = u.course ++ more → (∀ s, .told (.published s) ∉ more) →
    .told .rerun ∉ more → v.session.snapshot = u.session.snapshot

theorem Later.of_stirs (h : Stirs u v) (before : Current markers u) (now : Current markers v) :
    Later u v where
  course := prefix_of_stirs h
  result more split unpublished unannounced := by
    rw [now.result, split, shown_append, ← before.result]
    exact foldl_shown_of_not_mem unpublished unannounced _

/-- **The result at any time.**  Let a session be made and then started and torn down, any
number of times and in any order, whatever its surroundings answer, refuse or call off, and
whatever others do to it meanwhile.  Whenever others can look at it, before and after each of these
and wherever it waits, the result is what was published last, or empty if there is no such thing
or if a pass was announced since; and between any two announcements a complete pass was taken up.
From one such time to a later one the result stays, unless something was published or announced. -/
theorem result_of_drive (host : Host) (rounds : Nat) (options : Options) (files : List String)
    (l : Listeners) (commands : List Command) :
    (stages host rounds commands ⟨new options files l, [], []⟩).getLast? =
      some (drive host rounds commands ⟨new options files l, [], []⟩) ∧
    (stages host rounds commands ⟨new options files l, [], []⟩).Pairwise Later ∧
    ∀ w ∈ stages host rounds commands ⟨new options files l, [], []⟩,
      CallsFor w.course w.session.snapshot ∧ Spaced options.markers w.course := by
  have steps := @pairwise_stages host rounds commands ⟨new options files l, [], []⟩
  have current : ∀ w ∈ stages host rounds commands ⟨new options files l, [], []⟩,
      Current options.markers w := by
    intro w mem
    obtain ⟨more, begins⟩ := @exists_stages_eq host rounds commands ⟨new options files l, [], []⟩
    rw [begins] at mem steps
    have begun := Current.of_new options files l
    rcases List.mem_cons.mp mem with rfl | mem
    · exact begun
    · exact begun.of_stirs (List.rel_of_pairwise_cons steps mem)
  refine ⟨getLast?_stages commands _, ?_, fun w mem => ?_⟩
  · exact steps.imp_of_mem fun mem mem' step => .of_stirs step (current _ mem) (current _ mem')
  · have now := current w mem
    rw [now.result]
    exact ⟨callsFor_shown w.course, now.spaced⟩

/-- A pass is complete, and then another one is announced.  Its listener sees the snapshot with the
file under test, and so does whoever looks while the next output is waited for; after that both see
the empty one. -/
example : ((stages { Host.quiet with
      spawn := fun _ => .pure { pieces := [.pure "b", .pure "a"] } } 3 [.start]
    ⟨new .lettered ["a.ts"] { published? := some "end", rerun? := some "rerun" }, [], []⟩).filter
      fun w => w.log.getLast?.any Event.isCall).map (·.session.snapshot.files.length) =
        [1, 1, 0, 0] := by
  decide +kernel

end TypeVerdict.Session
