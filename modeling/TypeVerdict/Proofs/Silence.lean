import TypeVerdict.Proofs.Calls
import TypeVerdict.Proofs.Phases

/-!
# Nothing is told after a stop

Whoever listens to a session, or collects definitions for it, may stop it before they
answer.  The session then finds itself closed in the middle of something: between two
markers of a buffer, between collecting definitions and publishing a snapshot, or with
output still to come from a process that does not heed its termination.

What makes it silent is one fact: a step tells something only while the session is open.
So along a run whatever is told stands before the moment of closing, what was shown
then is shown for good, and no listener is called any more (`Silent`).  The one place
where a closed session enters another phase tells nothing, either; it is left only by
who stops a watching session while it waits for the exit of its checker, when nobody
listens and nothing is collected.

## Main definitions

* `shown`: what a course shows
* `Quiet`, `Hushed`: nothing was told after closing; a session that ran was closed
* `Silent`: the invariant of a session that runs
* `StoppedAtExit`: a watching session was stopped while it waited for the exit

## Main statements

* `Silent.of_step`: every step keeps silence
* `silent_start`: so does a whole session, up to the phase of one that was stopped at
  the exit
* `silent_after_stop`: after a session that ran was closed, nothing is told any more
-/

namespace TypeVerdict

namespace Session

variable {α : Type} {host : Host} {rounds : Nat} {l : Listeners} {u v w : World}
  {course : List Milestone}

/-! ### What a course shows -/

/-- The result that a milestone leaves. -/
def Milestone.shown : Snapshot → Milestone → Snapshot
  | snapshot, .told notice => notice.shown snapshot
  | snapshot, _ => snapshot

/-- **The result that a course shows**: the last snapshot that was published, unless a
new pass was announced since. -/
def shown (course : List Milestone) : Snapshot := course.foldl Milestone.shown .empty

@[simp] theorem shown_append_singleton (m : Milestone) :
    shown (course ++ [m]) = m.shown (shown course) := by
  simp [shown]

/-- A milestone that tells nothing. -/
def Milestone.IsMute (m : Milestone) : Prop := ∀ notice, m ≠ .told notice

theorem Milestone.IsMute.entered (phase : Phase) : (Milestone.entered phase).IsMute := by
  intro notice
  simp

theorem Milestone.IsMute.completed (output : List Char) : (Milestone.completed output).IsMute := by
  intro notice
  simp

theorem Milestone.IsMute.shown_eq {m : Milestone} (mute : m.IsMute) (snapshot : Snapshot) :
    m.shown snapshot = snapshot := by
  cases m with
  | told notice => exact absurd rfl (mute notice)
  | _ => rfl

theorem Milestone.IsMute.calls_eq {m : Milestone} (mute : m.IsMute) (l : Listeners) :
    m.calls l = [] := by
  cases m with
  | told notice => exact absurd rfl (mute notice)
  | _ => rfl

/-- Where nothing more is told, the result stays. -/
theorem shown_append_of_mute {more : List Milestone} (mute : ∀ m ∈ more, m.IsMute) :
    shown (course ++ more) = shown course := by
  induction more using List.reverseRecOn with
  | nil => rw [List.append_nil]
  | append_singleton more m ih =>
      rw [← List.append_assoc, shown_append_singleton,
        (mute m (by simp)).shown_eq, ih fun m' mem => mute m' (by simp [mem])]

/-- Where nothing is told, nobody is called. -/
theorem flatMap_calls_of_mute {more : List Milestone} (mute : ∀ m ∈ more, m.IsMute) :
    more.flatMap (Milestone.calls l) = [] := by
  rw [List.flatMap_eq_nil_iff]
  exact fun m mem => (mute m mem).calls_eq l

/-! ### Closing in a course -/

/-- **A session that ran was closed.** -/
def Hushed (course : List Milestone) : Prop :=
  ∃ before, before ++ [.entered .closed] <+: course ∧ .entered .running ∈ before

/-- **Nothing was told** after a session that ran was closed. -/
def Quiet (course : List Milestone) : Prop :=
  ∀ before notice, before ++ [.told notice] <+: course → ¬ Hushed before

theorem Hushed.running_mem (h : Hushed course) : .entered .running ∈ course := by
  obtain ⟨before, closed, running⟩ := h
  exact closed.subset (List.mem_append_left _ running)

/-- A session is hushed by nothing but closing. -/
theorem Hushed.of_append_singleton {m : Milestone} (h : Hushed (course ++ [m]))
    (other : m ≠ .entered .closed) : Hushed course := by
  obtain ⟨before, closed, running⟩ := h
  rcases List.prefix_concat_iff.mp closed with same | earlier
  · exact absurd (List.append_inj_right' same rfl) (by simpa using Ne.symm other)
  · exact ⟨before, earlier, running⟩

/-- Something may be told as long as the session is not hushed. -/
theorem Quiet.append_singleton (h : Quiet course) {m : Milestone}
    (mute : Hushed course → m.IsMute) : Quiet (course ++ [m]) := by
  intro before notice told hushed
  rcases List.prefix_concat_iff.mp told with same | earlier
  · obtain ⟨rfl, last⟩ := List.append_inj' same rfl
    exact mute hushed notice (List.singleton_inj.mp last).symm
  · exact h before notice earlier hushed

/-- Behind the closing there is nothing that was told. -/
theorem Quiet.mute_of_closed {before after : List Milestone}
    (h : Quiet (before ++ .entered .closed :: after)) (running : .entered .running ∈ before) :
    ∀ m ∈ after, m.IsMute := by
  intro m mem notice told
  obtain ⟨between, rest, rfl⟩ := List.append_of_mem mem
  refine h (before ++ .entered .closed :: between) notice ⟨rest, by simp [told]⟩ ?_
  exact ⟨before, ⟨between, by simp⟩, running⟩

/-! ### Silence -/

/-- What a session shows, and whom it called, is in accordance with its course, in which
nothing was told after a session that ran was closed. -/
structure Faithful (l : Listeners) (w : World) : Prop where
  listeners : w.session.listeners = l
  quiet : Quiet w.course
  result : w.session.snapshot = shown w.course
  called : calls w.log = w.course.flatMap (Milestone.calls l)

/-- **A session that runs is silent** once it is closed, and then it stays closed. -/
structure Silent (l : Listeners) (w : World) : Prop extends Faithful l w where
  closed : Hushed w.course → w.session.phase = .closed

/-- Reaching a milestone that tells nothing keeps faith. -/
theorem Faithful.of_mute (h : Faithful l u) {m : Milestone} (mute : m.IsMute)
    (listeners : v.session.listeners = u.session.listeners)
    (course : v.course = u.course ++ [m]) (snapshot : v.session.snapshot = u.session.snapshot)
    (log : calls v.log = calls u.log) : Faithful l v where
  listeners := listeners.trans h.listeners
  quiet := by
    rw [course]
    exact h.quiet.append_singleton fun _ => mute
  result := by rw [snapshot, course, shown_append_singleton, mute.shown_eq, h.result]
  called := by
    rw [log, course, List.flatMap_append, h.called]
    simp [mute.calls_eq]

/-- What leaves the course, the result and the calls alone keeps faith. -/
theorem Faithful.of_same (h : Faithful l u)
    (listeners : v.session.listeners = u.session.listeners) (course : v.course = u.course)
    (snapshot : v.session.snapshot = u.session.snapshot)
    (log : calls v.log = calls u.log) : Faithful l v where
  listeners := listeners.trans h.listeners
  quiet := course ▸ h.quiet
  result := by rw [snapshot, course, h.result]
  called := by rw [log, course, h.called]

/-- **Telling something** keeps faith as long as the session is not hushed. -/
theorem Faithful.telling (h : Faithful l w) (audible : ¬ Hushed w.course) (notice : Notice) :
    Faithful l (w.telling notice) where
  listeners := h.listeners
  quiet := h.quiet.append_singleton fun hushed => absurd hushed audible
  result := by
    show notice.shown w.session.snapshot = shown (w.course ++ [.told notice])
    rw [shown_append_singleton, h.result]
    rfl
  called := by
    show calls (w.log ++ w.session.listeners.heard notice) =
      (w.course ++ [Milestone.told notice]).flatMap (Milestone.calls l)
    rw [calls_append, calls_heard, h.called, h.listeners, List.flatMap_append]
    simp [Milestone.calls]

namespace Silent

theorem of_release (silent : Silent l u) (h : Release u v) : Silent l v := by
  cases h with
  | close isOpen =>
      refine ⟨silent.of_mute (.entered .closed) rfl rfl rfl ?_, fun _ => rfl⟩
      cases holds : u.session.holdsProcess <;>
        simp [World.closing, holds, calls, Event.isCall]
  | clean =>
      exact ⟨silent.of_same rfl rfl rfl (by simp [World.cleaned]), silent.closed⟩

/-- **Every step keeps silence**, because it tells something only while the session is
open. -/
theorem of_step (silent : Silent l u) (h : Step u v) : Silent l v := by
  cases h with
  | release h => exact silent.of_release h
  | ask e h =>
      exact ⟨silent.of_same rfl rfl rfl (by simp [calls_of_isQuestion h]), silent.closed⟩
  | takeUp output =>
      exact ⟨silent.of_mute (.completed output) rfl rfl rfl rfl,
        fun hushed => silent.closed (hushed.of_append_singleton (by simp))⟩
  | revise buffer rerunSeen table? => exact ⟨silent.of_same rfl rfl rfl rfl, silent.closed⟩
  | tell notice isOpen =>
      have audible : ¬ Hushed u.course := fun hushed => isOpen (silent.closed hushed)
      exact ⟨silent.telling audible notice,
        fun hushed => absurd (hushed.of_append_singleton (by simp)) audible⟩

theorem of_run (silent : Silent l u) (h : Run u v) : Silent l v :=
  Preorderly.of_steps (R := Preserves (Silent l)) (fun _ _ step silent => silent.of_step step) h
    silent

/-- The process may be waited for. -/
theorem exited (silent : Silent l w) : Silent l w.exited :=
  ⟨silent.of_same rfl rfl rfl rfl, silent.closed⟩

/-- An open session may be done. -/
theorem entering_done (silent : Silent l w) (isOpen : w.session.phase ≠ .closed) :
    Silent l (w.entering .done) := by
  refine ⟨silent.of_mute (.entered .done) rfl rfl rfl rfl, fun hushed => ?_⟩
  exact absurd (silent.closed (hushed.of_append_singleton (by simp))) isOpen

end Silent

/-- **Following a checker keeps silence**, but for the phase of a watching session that is
done. -/
theorem Follows.silent {output : Output} {r : Except Interruption Unit}
    (h : Follows host rounds output u r v) (silent : Silent l u) :
    Silent l v ∨ r = .ok () ∧ u.session.options.watch = true ∧
      ∃ m, Run u m ∧ Exits host rounds output u m.exited ∧ v = m.exited.entering .done := by
  cases h with
  | early run still => exact Or.inl (silent.of_run run)
  | unpublished run exits isOpen rest =>
      exact Or.inl ((silent.of_run run).exited.of_run rest)
  | published run exits rest isOpen told =>
      have concluded := (silent.of_run run).exited.of_run rest
      exact Or.inl ((concluded.entering_done isOpen).of_run told)
  | watched run watch exits =>
      exact Or.inr ⟨rfl, watch, _, run, exits, rfl⟩

/-! ### Whole sessions -/

/-- A session that has not run yet. -/
structure Unbegun (l : Listeners) (w : World) : Prop extends Faithful l w where
  unbegun : .entered .running ∉ w.course

namespace Unbegun

theorem of_new (options : Options) (files : List String) (l : Listeners) :
    Unbegun l ⟨new options files l, [], []⟩ where
  listeners := rfl
  quiet before notice told := by simp at told
  result := rfl
  called := rfl
  unbegun := List.not_mem_nil

/-- It cannot have been closed after it ran. -/
theorem silent (h : Unbegun l w) : Silent l w :=
  ⟨h.toFaithful, fun hushed => absurd hushed.running_mem h.unbegun⟩

/-- No step begins the run. -/
theorem of_step (h : Unbegun l u) (step : Step u v) : Unbegun l v := by
  refine ⟨(h.silent.of_step step).toFaithful, ?_⟩
  have unbegun := h.unbegun
  cases step with
  | release released => cases released <;> simpa [World.closing, World.cleaned] using unbegun
  | ask | revise => exact unbegun
  | takeUp | tell => simpa [World.telling] using unbegun

theorem launch : Guides (Preserves (Unbegun l)) (Session.launch host) :=
  guides_launch (fun _ _ released h => h.of_step (.release released))
    (fun _ _ question _ h => h.of_step (.ask _ question))
    fun _ _ _ h => ⟨h.of_same rfl rfl rfl rfl, h.unbegun⟩

theorem entering_starting (h : Unbegun l w) : Unbegun l (w.entering .starting) :=
  ⟨h.of_mute (.entered .starting) rfl rfl rfl rfl,
    by simpa [World.entering] using h.unbegun⟩

/-- **When it begins to run** it has not been closed since. -/
theorem entering_running (h : Unbegun l w) : Silent l (w.entering .running) :=
  ⟨h.of_mute (.entered .running) rfl rfl rfl rfl, fun hushed =>
    absurd (hushed.of_append_singleton (by simp)).running_mem h.unbegun⟩

end Unbegun

/-- **A whole session keeps silence**, but for the phase of a watching session that is
done. -/
theorem silent_start (idle : w.session.phase = .idle) (unbegun : Unbegun l w)
    {r : Except Interruption Unit} {w' : World} (run : exec (start host rounds) w = (r, w')) :
    Silent l w' ∨ w.session.options.watch = true ∧ ∃ output v₀ m,
      exec (launch host) (w.entering .starting) = (.ok output, v₀) ∧
      Silent l (v₀.entering .running) ∧ Run (v₀.entering .running) m ∧
      Exits host rounds output (v₀.entering .running) m.exited ∧
      w' = m.exited.entering .done := by
  have stopped {v : World} {a : Act Unit} (ends : Guides Released a) (silent : Silent l v)
      (run : exec (do stop host; a) v = (r, w')) : Silent l w' :=
    silent.of_run (.of_released (((guides_stop host).bind fun _ => ends).of_exec run))
  rw [exec_start idle] at run
  rcases launched : exec (launch host) (w.entering .starting) with ⟨e | output, v₀⟩
  all_goals
    have ready := Unbegun.launch.of_exec launched unbegun.entering_starting
    rw [launched] at run
  · left
    cases e with
    | failure cause => exact stopped (.failWith cause) ready.silent run
    | cancelled | outOfRounds =>
        cases run
        exact ready.silent
  · dsimp only at run
    rcases ran : exec (runChecker host rounds output) (v₀.entering .running) with ⟨r', v⟩
    rw [ran] at run
    have follows := follows_runChecker (by simp [World.entering]) ran
    rcases follows.silent ready.entering_running with
      silent | ⟨rfl, watch, m, run', exits, rfl⟩
    · left
      cases r' with
      | ok _ =>
          cases run
          exact silent
      | error e =>
          cases e with
          | outOfRounds =>
              cases run
              exact silent
          | failure | cancelled => exact stopped (.throw _) silent run
    · cases run
      have options : v₀.session.options = w.session.options :=
        (Closing.launch.of_exec launched).options
      have watch : v₀.session.options.watch = true := watch
      exact Or.inr ⟨options ▸ watch, output, v₀, m, rfl, ready.entering_running, run', exits, rfl⟩

/-! ### A stop at the exit -/

/-- Whoever answers, or somebody else meanwhile, stops the session before the answer. -/
def Stops (reply : Reply α) : Prop :=
  .within .stop ∈ reply.meanwhile ∨ .beside .stop ∈ reply.meanwhile

theorem guides_phase_interfere (phase : Phase) {meanwhile : List Interference}
    (calm : ¬ (.within .stop ∈ meanwhile ∨ .beside .stop ∈ meanwhile)) :
    Guides (Preserves (·.session.phase = phase)) (interfere host meanwhile) := by
  -- of the two ways to tear a session down, only one changes its phase
  have torn {what : Teardown} (other : what ≠ .stop) :
      Guides (Preserves (·.session.phase = phase)) (tearDown host what) := by
    cases what with
    | stop => exact absurd rfl other
    | clean => exact fun w => .of_forall_eq (fun _ => eq_cleaned_of_mem_trail) id
  induction meanwhile with
  | nil => exact .pause
  | cons i more ih =>
      have later := ih fun h => calm (h.imp (List.mem_cons_of_mem _) (List.mem_cons_of_mem _))
      cases i with
      | within what =>
          exact .bind .pause fun _ => .bind (torn fun stop => calm (by simp [stop])) fun _ => later
      | beside what =>
          exact .bind .pause fun _ =>
            .bind (torn fun stop => calm (by simp [stop])).attempt fun _ => later

/-- A session that nobody stops stays in its phase while it waits. -/
theorem guides_phase_await (phase : Phase) {reply : Reply α} (calm : ¬ Stops reply) :
    Guides (Preserves (·.session.phase = phase)) (await host reply) := by
  refine .bind (guides_phase_interfere phase calm) fun _ => ?_
  split
  · exact .pure _
  · exact .failWith _
  · exact .throw _

/-- **A watching session is stopped at the exit**: its output has ended, it is still open
and went through just this course, and it is stopped while it waits for the process. -/
def StoppedAtExit (host : Host) (rounds : Nat) (w : World) (course : List Milestone) : Prop :=
  w.session.options.watch = true ∧ ∃ output v₀ v₁ v₂,
    exec (launch host) (w.entering .starting) = (.ok output, v₀) ∧
    exec (notify host .started) (v₀.entering .running) = (.ok (), v₁) ∧
    exec (follow host rounds output 0 output.pieces) v₁ = (.ok (), v₂) ∧
    v₂.session.phase ≠ .closed ∧ v₂.course = course ∧ Stops (host.wait (v₂.log ++ [.wait]))

/-- A watching session that is closed when its checker has exited was stopped at the
exit. -/
theorem exists_stop_of_exits {output : Output} {before : List Milestone} {m : World}
    (silent : Silent l u) (isOpen : u.session.phase ≠ .closed)
    (watch : u.session.options.watch = true) (exits : Exits host rounds output u m.exited)
    (closed : m.session.phase = .closed) (split : before ++ [.entered .closed] <+: m.course)
    (running : .entered .running ∈ before) :
    ∃ v₁ v₂, exec (notify host .started) u = (.ok (), v₁) ∧
      exec (follow host rounds output 0 output.pieces) v₁ = (.ok (), v₂) ∧
      v₂.session.phase ≠ .closed ∧ v₂.course = before ∧ Stops (host.wait (v₂.log ++ [.wait])) := by
  obtain ⟨v₁, v₂, status, told, read, open₂, waited⟩ := exits.of_watch isOpen watch
  refine ⟨v₁, v₂, told, read, open₂, ?_⟩
  have telling : Run u v₁ := by
    simpa only [told] using @Run.tellStart host u isOpen
  have audible : ¬ Hushed v₂.course := fun hushed =>
    open₂ ((silent.of_run (telling.trans ((Run.follow _ _ _ _).of_exec read))).closed hushed)
  rw [exec_awaitExit] at waited
  rcases answered : exec (await host (host.wait (v₂.log ++ [.wait])))
    { v₂ with log := v₂.log ++ [.wait] } with ⟨e | status', m'⟩
  all_goals rw [answered] at waited
  · cases waited
  · have same : m'.exited = m.exited := congrArg Prod.snd waited
    have phase : m'.session.phase = m.session.phase := congrArg (·.session.phase) same
    have course : m'.course = m.course :=
      (congrArg World.course same : m'.exited.course = m.exited.course)
    have waiting := (guides_await host _).of_exec answered
    rcases (Disturbed.of_released waiting).closing with ⟨still, -⟩ | ⟨-, -, more⟩
    · exact absurd (still.symm.trans (phase.trans closed)) open₂
    have more : m'.course = v₂.course ++ [.entered .closed] := more
    refine ⟨?_, ?_⟩
    · -- it is this closing, for there was none before
      rw [← course, more] at split
      rcases List.prefix_concat_iff.mp split with same | earlier
      · exact (List.append_inj_left' same rfl).symm
      · exact absurd ⟨before, earlier, running⟩ audible
    · by_contra calm
      have still := (guides_phase_await v₂.session.phase calm).of_exec answered rfl
      exact open₂ (still.symm.trans (phase.trans closed))

/-! ### After a stop -/

/-- **Nothing is told after a stop.**  Let a session run, with whatever surroundings, and
let it be closed after it began to run, be it by a listener, by the collector or by
anybody else.  Then nothing is told any more; all calls of listeners go with what was
told before; and what the session showed when it was closed is what it shows in the
end.  The session is closed in the end, too, unless this was a stop that came when all
output was read and a watching session waited for the exit, where it calls no listener
and collects nothing. -/
theorem silent_after_stop (host : Host) (rounds : Nat) (options : Options) (files : List String)
    (l : Listeners) {before after : List Milestone} {r : Except Interruption Unit} {w' : World}
    (run : exec (start host rounds) ⟨new options files l, [], []⟩ = (r, w'))
    (split : w'.course = before ++ .entered .closed :: after)
    (running : .entered .running ∈ before) :
    (∀ notice, .told notice ∉ after) ∧
    calls w'.log = before.flatMap (Milestone.calls l) ∧
    w'.session.snapshot = shown before ∧
    (w'.session.phase = .closed ∨
      StoppedAtExit host rounds ⟨new options files l, [], []⟩ before) := by
  have closing : before ++ [.entered .closed] <+: w'.course := ⟨after, by simp [split]⟩
  have faithful : Faithful l w' ∧ (w'.session.phase = .closed ∨
      StoppedAtExit host rounds ⟨new options files l, [], []⟩ before) := by
    rcases silent_start rfl (.of_new options files l) run with
      silent | ⟨watch, output, v₀, m, launched, silent, reached, exits, rfl⟩
    · exact ⟨silent.toFaithful, Or.inl (silent.closed ⟨before, closing, running⟩)⟩
    · -- a watching session is done, and was closed before or at the exit
      have exited := silent.of_run reached
      have hushed : before ++ [.entered .closed] <+: m.course := by
        rcases List.prefix_concat_iff.mp closing with same | earlier
        · exact absurd (List.append_inj_right' same rfl) (by simp)
        · exact earlier
      have options : v₀.session.options = options :=
        (Closing.launch.of_exec launched).options
      obtain ⟨v₁, v₂, told, read, isOpen, course, stops⟩ :=
        exists_stop_of_exits silent (by simp [World.entering]) (options ▸ watch) exits
          (exited.closed ⟨before, hushed, running⟩) hushed running
      refine ⟨exited.of_mute (.entered .done) rfl rfl rfl rfl, Or.inr ?_⟩
      exact ⟨watch, output, v₀, v₁, v₂, launched, told, read, isOpen, course, stops⟩
  obtain ⟨faithful, phase⟩ := faithful
  have quiet := faithful.quiet
  rw [split] at quiet
  have mute := quiet.mute_of_closed running
  refine ⟨fun notice told => mute _ told notice rfl, ?_, ?_, phase⟩
  · rw [faithful.called, split, List.flatMap_append, List.flatMap_cons, flatMap_calls_of_mute mute]
    simp [Milestone.calls]
  · rw [faithful.result, split]
    refine shown_append_of_mute fun m mem => ?_
    rcases List.mem_cons.mp mem with rfl | mem
    · exact .entered .closed
    · exact mute m mem

/-- A host whose listeners stop the session when they hear of a new pass, while its
checker goes on writing. -/
def interrupting : Host where
  resolveExecutable _ := .ok "tsc"
  createConfig _ := .pure "tsconfig.json"
  removeConfig _ := none
  spawn _ := .pure { pieces := [.pure "ab", .pure "b"], heedsTermination := false }
  wait _ := .pure 0
  terminate _ := none
  collect _ _ := .pure none
  notify _ _ notice := ⟨if notice = .rerun then [.within .stop] else [], .returns ()⟩

/-- A listener stops a watching session while a complete pass is in its buffer and more
output is to come. -/
theorem silent_after_stop_interrupted :
    ∃ w', exec (start interrupting 3)
        ⟨new .lettered [] { rerun? := some "rerun", published? := some "end" }, [], []⟩ =
          (.ok (), w') ∧
      w'.course = [.entered .starting, .entered .running, .told .started, .told .rerun] ++
        [.entered .closed] ∧
      calls w'.log = [.notify "rerun" .rerun] ∧ w'.session.phase = .closed := by
  have ran : exec (start interrupting 3)
      ⟨new .lettered [] { rerun? := some "rerun", published? := some "end" }, [], []⟩ =
        (.ok (), (exec (start interrupting 3)
          ⟨new .lettered [] { rerun? := some "rerun", published? := some "end" }, [], []⟩).2) := rfl
  have split : (exec (start interrupting 3)
      ⟨new .lettered [] { rerun? := some "rerun", published? := some "end" }, [], []⟩).2.course =
        [.entered .starting, .entered .running, .told .started, .told .rerun] ++
          .entered .closed :: [] := rfl
  obtain ⟨-, called, -, phase⟩ := silent_after_stop _ _ _ _ _ ran split (by simp)
  refine ⟨_, ran, split, called, phase.resolve_right ?_⟩
  rintro ⟨-, _, _, _, _, -, -, -, -, -, stops⟩
  simp [Stops, interrupting, Reply.pure] at stops

end Session

end TypeVerdict
