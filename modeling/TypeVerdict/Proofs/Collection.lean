import TypeVerdict.Proofs.Cancellation

/-!
# Definitions are collected all or not at all

The definitions of the files under test are collected together: every file is asked once, in
order, even if one before it refused to answer.  Only if all of them answered is something kept,
and this is a table of the files that have definitions.  If one refused, the first refusal is what
collecting comes to, and nothing is kept of the answers: what the session knew before is what it
knows now.

Collecting only asks and waits.  Whoever tears the session down meanwhile changes its phase and
takes what it holds; neither the definitions nor the result can be reached in this way
(`Withheld`).  A pass, or a single run, that needs definitions and does not get them ends there,
so it publishes nothing, and the result that can be asked for is that from before.

## Main definitions

* `Asks`: every file is asked once
* `known`: the files that have definitions
* `FailsFirst`: the first refusal
* `Withheld`: the session publishes nothing and learns nothing
* `FailsToCollect`: a single run in which collecting fails

## Main statements

* `exec_collectEach_of_asks`, `gather_known`, `gather_failsFirst`: what asking and gathering come to
* `withheld_collectAll`, `withheld_launch`, `withheld_readAll`, `withheld_awaitExit`: nothing is
  published by these
* `collected_all_or_nothing`: all answers are kept, or nothing happened
-/

namespace TypeVerdict

/-- The file that is asked for, and the root that it is asked from. -/
def Event.collected? : Event → Option (String × String)
  | .collect root path => some (root, path)
  | _ => none

/-- The snapshot that a listener is told. -/
def Event.delivered? : Event → Option (String × Snapshot)
  | .notify listener (.published snapshot) => some (listener, snapshot)
  | _ => none

namespace Session

variable {α : Type} {host : Host} {rounds : Nat} {u v w : World} {e : Interruption}

/-- The snapshot that a milestone publishes. -/
def Milestone.published? : Milestone → Option Snapshot
  | .told (.published snapshot) => some snapshot
  | _ => none

/-- The files that a log shows as asked, in order. -/
def collections (log : Log) : List (String × String) := log.filterMap Event.collected?

/-- The snapshots that a log shows as told to listeners, in order. -/
def deliveries (log : Log) : List (String × Snapshot) := log.filterMap Event.delivered?

/-- The snapshots that a course shows as published, in order. -/
def publications (course : List Milestone) : List Snapshot :=
  course.filterMap Milestone.published?

@[simp] theorem deliveries_append (log more : Log) :
    deliveries (log ++ more) = deliveries log ++ deliveries more :=
  List.filterMap_append

theorem deliveries_of_isQuestion {e : Event} (h : e.isQuestion = true) : deliveries [e] = [] := by
  cases e <;> first | rfl | cases h

/-! ### Nothing is published -/

/-- **A session publishes nothing and learns nothing**: at most its phase changes, and what it
holds; so its result stays, and the definitions that it knows. -/
structure Withheld (u v : World) : Prop where
  frame : v.session = { u.session with
    phase := v.session.phase
    config? := v.session.config?
    holdsProcess := v.session.holdsProcess }
  publications : publications v.course = publications u.course
  deliveries : deliveries v.log = deliveries u.log

namespace Withheld

instance : Preorderly Withheld where
  refl _ := ⟨rfl, rfl, rfl⟩
  trans h₁ h₂ := ⟨by rw [h₂.frame, h₁.frame], h₂.publications.trans h₁.publications,
    h₂.deliveries.trans h₁.deliveries⟩

theorem snapshot_eq (h : Withheld u v) : v.session.snapshot = u.session.snapshot := by
  rw [h.frame]

theorem table?_eq (h : Withheld u v) : v.session.table? = u.session.table? := by
  rw [h.frame]

theorem of_release (h : Release u v) : Withheld u v := by
  cases h with
  | close isOpen =>
      refine ⟨rfl, by simp [World.closing, Session.publications, Milestone.published?], ?_⟩
      cases holds : u.session.holdsProcess <;>
        simp [World.closing, holds, Session.deliveries, Event.delivered?]
  | clean =>
      refine ⟨rfl, rfl, ?_⟩
      simp [World.cleaned, Session.deliveries, List.filterMap_map, Function.comp_def,
        Event.delivered?]

theorem of_released (h : Released u v) : Withheld u v :=
  Preorderly.of_steps (r := Release) (fun _ _ => of_release) h

/-- A question. -/
theorem asked (w : World) {e : Event} (question : e.isQuestion = true) :
    Withheld w { w with log := w.log ++ [e] } :=
  ⟨rfl, rfl, by simp [deliveries_of_isQuestion question]⟩

theorem entering (w : World) (phase : Phase) : Withheld w (w.entering phase) :=
  ⟨rfl, by simp [World.entering, Session.publications, Milestone.published?], rfl⟩

/-- The text of a pass is taken up. -/
theorem completed (w : World) (output : List Char) :
    Withheld w { w with course := w.course ++ [.completed output] } :=
  ⟨rfl, by simp [Session.publications, Milestone.published?], rfl⟩

end Withheld

theorem withheld_ask {e : Event} (question : e.isQuestion = true) : Guides Withheld (record e) :=
  .atOnce fun w => .asked w question

theorem withheld_await (reply : Reply α) : Guides Withheld (await host reply) :=
  (guides_await host reply).mono fun _ _ => .of_released

theorem withheld_collectFile (path : String) : Guides Withheld (collectFile host path) := by
  refine .bind .current fun s => ?_
  refine .bind (withheld_ask (e := .collect s.root path) rfl) fun _ => ?_
  refine .bind .history fun _ => ?_
  exact .bind (withheld_await _) fun _ => .pure _

theorem withheld_collectEach (paths : List String) : Guides Withheld (collectEach host paths) := by
  induction paths with
  | nil => exact .pure _
  | cons path more ih =>
      refine .bind (withheld_collectFile path).attempt fun _ => ?_
      exact .bind ih fun _ => .pure _

theorem withheld_launch : Guides Withheld (launch host) :=
  guides_launch (fun _ _ => .of_release) (fun w _ question _ => .asked w question)
    fun _ _ _ => ⟨rfl, rfl, rfl⟩

/-- That the checker was started is told, but this publishes nothing. -/
theorem withheld_tellStart (w : World) : Withheld w (exec (notify host .started) w).2 := by
  have told : Withheld w (w.telling .started) := by
    refine ⟨rfl, by simp [World.telling, Session.publications, Milestone.published?], ?_⟩
    cases listener? : w.session.listeners.for? .started <;>
      simp [World.telling, Listeners.heard, listener?, Session.deliveries, Event.delivered?]
  exact Preorderly.trans told (.of_released (released_notify host w .started))

theorem withheld_readAll (output : Output) (index : Nat) (pieces : List (Reply String)) :
    Guides Withheld (readAll host output index pieces) := by
  induction pieces generalizing index with
  | nil => exact .bind (withheld_await _) fun _ => .pure _
  | cons reply more ih =>
      refine .bind (.bind .history fun _ => .pure _) fun _ => .ite (.pure _) ?_
      refine .bind (withheld_await _) fun _ => ?_
      refine .bind (withheld_ask (e := .read index) rfl) fun _ => ?_
      exact .bind (ih _) fun _ => .pure _

theorem withheld_awaitExit : Guides Withheld (awaitExit host) := by
  refine .bind (withheld_ask (e := .wait) rfl) fun _ => ?_
  refine .bind .history fun _ => ?_
  refine .bind (withheld_await _) fun _ => ?_
  exact .bind (.atOnce fun w => ⟨rfl, rfl, rfl⟩) fun _ => .pure _

/-! ### The answers -/

/-- What asking each of several files came to. -/
abbrev Answers := List (String × Except Interruption (Option Collected))

/-- **Every file is asked once**, one after the other, whatever any of them comes to; while the
session waits for an answer, others may tear it down. -/
inductive Asks (host : Host) : World → Answers → World → Prop where
  | nil (w : World) : Asks host w [] w
  | cons {u m v : World} {path : String} {answer : Except Interruption (Option Collected)}
      {rest : Answers}
      (asked : exec (await host (host.collect (u.log ++ [.collect u.session.root path]) path))
        { u with log := u.log ++ [.collect u.session.root path] } = (answer, m))
      (others : Asks host m rest v) : Asks host u ((path, answer) :: rest) v

/-- Every file answered, if only that it has no definitions. -/
def Answered (answers : Answers) : Prop := ∀ entry ∈ answers, ∃ c?, entry.2 = .ok c?

/-- **The first refusal**: all files before it answered. -/
def FailsFirst (e : Interruption) (answers : Answers) : Prop :=
  ∃ before path after, answers = before ++ (path, .error e) :: after ∧ Answered before

/-- **The files that have definitions**, in order, each with the index map of its own text. -/
def known (answers : Answers) : DefinitionTable :=
  answers.filterMap fun
    | (path, .ok (some c)) => some (path, {
        forest := c.forest
        file := c.file
        spans := c.spans
        sourceMap? := c.sourceMap?
        index := IndexMap.ofText c.text })
    | _ => none

/-- The same answers as the session takes them up. -/
def found (answers : Answers) : List (String × Except Interruption (Option Definitions)) :=
  answers.map fun (path, answer) => (path, answer.map (·.map (·.definitions)))

theorem answered_or_failsFirst (answers : Answers) :
    Answered answers ∨ ∃ e, FailsFirst e answers := by
  induction answers with
  | nil => exact .inl (List.forall_mem_nil _)
  | cons entry rest ih =>
      obtain ⟨path, e | c?⟩ := entry
      · exact .inr ⟨e, [], path, rest, rfl, List.forall_mem_nil _⟩
      · rcases ih with all | ⟨e, before, path', after, rfl, first⟩
        · exact .inl (List.forall_mem_cons.mpr ⟨⟨c?, rfl⟩, all⟩)
        · exact .inr ⟨e, (path, .ok c?) :: before, path', after, rfl,
            List.forall_mem_cons.mpr ⟨⟨c?, rfl⟩, first⟩⟩

theorem gather_known {answers : Answers} (all : Answered answers) :
    gather (found answers) = .ok (known answers) := by
  induction answers with
  | nil => rfl
  | cons entry rest ih =>
      obtain ⟨path, e | c?⟩ := entry
      · obtain ⟨c?, bad⟩ := all _ List.mem_cons_self
        cases bad
      · have others := ih fun entry mem => all entry (List.mem_cons_of_mem _ mem)
        rw [found, List.map_cons, ← found]
        cases c? <;> (simp only [gather, Except.map, others]; rfl)

theorem gather_failsFirst {answers : Answers} (fails : FailsFirst e answers) :
    gather (found answers) = .error e := by
  obtain ⟨before, path, after, rfl, all⟩ := fails
  rw [found, List.map_append, List.map_cons]
  exact gather_append_error (gather_known all) path e _

/-- Asking for the definitions of a file is asking the file. -/
theorem exec_collectFile {path : String} {answer : Except Interruption (Option Collected)}
    (asked : exec (await host (host.collect (u.log ++ [.collect u.session.root path]) path))
      { u with log := u.log ++ [.collect u.session.root path] } = (answer, v)) :
    exec (collectFile host path) u = (answer.map (·.map (·.definitions)), v) := by
  rw [collectFile, exec_bind_ok (exec_current u), exec_bind_ok (exec_record _ _),
    exec_bind_ok (exec_history _)]
  cases answer with
  | error e => exact exec_bind_error asked _
  | ok c? => exact exec_bind_ok asked _

/-- **All files are asked**, and their answers are taken up. -/
theorem exists_asks (host : Host) (paths : List String) (u : World) :
    ∃ answers v, Asks host u answers v ∧ answers.map Prod.fst = paths ∧
      exec (collectEach host paths) u = (.ok (found answers), v) := by
  induction paths generalizing u with
  | nil => exact ⟨[], u, .nil u, rfl, rfl⟩
  | cons path more ih =>
      rcases asked : exec (await host (host.collect (u.log ++ [.collect u.session.root path]) path))
        { u with log := u.log ++ [.collect u.session.root path] } with ⟨answer, m⟩
      obtain ⟨answers, v, others, paths, run⟩ := ih m
      refine ⟨(path, answer) :: answers, v, .cons asked others, by simp [paths], ?_⟩
      rw [collectEach, exec_bind_ok (exec_attempt _ _), exec_collectFile asked, exec_bind_ok run,
        exec_pure]
      rfl

/-- Nobody who tears a session down asks for a file. -/
theorem collections_of_released (h : Released u v) : collections v.log = collections u.log := by
  induction h with
  | refl => rfl
  | @tail m _ _ step ih =>
      rw [← ih]
      cases step with
      | close isOpen =>
          cases holds : m.session.holdsProcess <;>
            simp [World.closing, holds, collections, Event.collected?]
      | clean =>
          simp [World.cleaned, collections, List.filterMap_map, Function.comp_def,
            Event.collected?]

/-- **Each file is asked exactly once**, in order. -/
theorem Asks.collections_eq {answers : Answers} (asks : Asks host u answers v) :
    collections v.log =
      collections u.log ++ (answers.map Prod.fst).map (u.session.root, ·) := by
  induction asks with
  | nil w => simp
  | @cons u m v path answer rest asked _ ih =>
      have waited : Released { u with log := u.log ++ [.collect u.session.root path] } m :=
        (guides_await host _).of_exec asked
      have root : m.session.root = u.session.root := by
        rw [(Disturbed.of_released waited).frame]
      rw [ih, collections_of_released waited, root]
      simp [collections, Event.collected?]

/-! ### All or nothing -/

/-- Collecting what all files answered is knowing it. -/
theorem exec_collectAll_of_answered {answers : Answers}
    (run : exec (collectEach host w.session.files) w = (.ok (found answers), v))
    (all : Answered answers) :
    exec (collectAll host) w = (.ok (known answers), v.knowing (known answers)) := by
  rw [collectAll, exec_bind_ok (exec_current w), exec_bind_ok run, gather_known all,
    exec_bind_ok (exec_ofExcept _ _), exec_bind_ok (exec_update _ _), exec_pure]
  rfl

/-- Collecting where a file refused is being refused. -/
theorem exec_collectAll_of_failsFirst {answers : Answers}
    (run : exec (collectEach host w.session.files) w = (.ok (found answers), v))
    (fails : FailsFirst e answers) : exec (collectAll host) w = (.error e, v) := by
  rw [collectAll, exec_bind_ok (exec_current w), exec_bind_ok run, gather_failsFirst fails]
  exact exec_bind_error (exec_ofExcept _ _) _

/-- Where collecting fails, the session has published and learned nothing. -/
theorem withheld_collectAll (failed : exec (collectAll host) w = (.error e, v)) : Withheld w v := by
  obtain ⟨answers, m, -, -, run⟩ := exists_asks host w.session.files w
  have asking : Withheld w m := (withheld_collectEach _).of_exec run
  rcases answered_or_failsFirst answers with all | ⟨e', fails⟩
  · rw [exec_collectAll_of_answered run all] at failed
    cases failed
  · rw [exec_collectAll_of_failsFirst run fails] at failed
    cases failed
    exact asking

/-- A snapshot that needs definitions is not assembled where collecting fails. -/
theorem exec_assembleFrom_of_error (diagnostics : Grouping (Option String) LocatedDiagnostic)
    (unknown : w.session.table? = none) (failed : exec (collectAll host) w = (.error e, v)) :
    exec (assembleFrom host diagnostics) w = (.error e, v) := by
  rw [assembleFrom, exec_bind_ok (exec_current w), unknown]
  exact exec_bind_error failed _

/-- **A pass ends where collecting fails.** -/
theorem exec_finishPass_of_error {output : List Char} (unknown : w.session.table? = none)
    (failed : exec (collectAll host) { w with course := w.course ++ [.completed output] } =
      (.error e, v)) : exec (finishPass host output) w = (.error e, v) := by
  rw [finishPass, exec_bind_ok (exec_reach _ _), snapshotOf, bind_assoc,
    exec_bind_ok (exec_current _)]
  exact exec_bind_error (exec_assembleFrom_of_error
    (w := { w with course := w.course ++ [.completed output] }) _ unknown failed) _

/-! ### A single run -/

/-- **A single run fails to collect**: its checker was launched, this was told, the output was read
and the exit awaited, all with success; the session is open, and the status is a usual one, or the
output reports something; and then collecting is interrupted. -/
def FailsToCollect (host : Host) (w : World) (e : Interruption) : Prop :=
  ∃ output v₀ v₁ text v₂ status v₃ v,
    exec (launch host) (w.entering .starting) = (.ok output, v₀) ∧
    exec (notify host .started) (v₀.entering .running) = (.ok (), v₁) ∧
    exec (readAll host output 0 output.pieces) v₁ = (.ok text, v₂) ∧
    exec (awaitExit host) v₂ = (.ok status, v₃) ∧ v₃.session.phase ≠ .closed ∧
    (usualStatuses.contains status = true ∨
      (Diagnostic.ofOutput v₃.session.root text).groups.isEmpty = false) ∧
    exec (collectAll host) v₃ = (.error e, v)

/-- What follows the exit of a single run ends where collecting fails. -/
theorem exec_conclude_of_error {text : List Char} {status : Int}
    (isOpen : w.session.phase ≠ .closed)
    (usable : usualStatuses.contains status = true ∨
      (Diagnostic.ofOutput w.session.root text).groups.isEmpty = false)
    (unknown : w.session.table? = none) (failed : exec (collectAll host) w = (.error e, v)) :
    exec (conclude host text status) w = (.error e, v) := by
  have usual : ¬ (!usualStatuses.contains status &&
      (Diagnostic.ofOutput w.session.root text).groups.isEmpty) = true := by
    rcases usable with usual | reports
    · rw [usual]
      simp
    · rw [reports]
      simp
  rw [conclude, exec_bind_ok (exec_current w), if_neg isOpen]
  dsimp only
  rw [if_neg usual]
  exact exec_bind_error (exec_assembleFrom_of_error _ unknown failed) _

/-- A session that is stopped on account of an interruption is interrupted, and stopping it
publishes nothing. -/
theorem Withheld.stop_throw (withheld : Withheld u v) (host : Host) (e : Interruption) :
    ∃ e' v', exec (do stop host; throw e : Act Unit) v = (.error e', v') ∧ Withheld u v' := by
  have stopping : Withheld v (exec (stop host) v).2 := .of_released (guides_stop host v).last
  rcases stop? : exec (stop host) v with ⟨e' | _, v'⟩
  all_goals
    rw [stop?] at stopping
    have withheld : Withheld u v' := Preorderly.trans withheld stopping
  · exact ⟨e', v', exec_bind_error stop? _, withheld⟩
  · exact ⟨e, v', exec_bind_ok stop? _, withheld⟩

/-- **A single run ends where collecting fails**, and the session is stopped.  Nothing was
published. -/
theorem withheld_start_of_failsToCollect (idle : w.session.phase = .idle)
    (single : w.session.options.watch = false) (unknown : w.session.table? = none)
    (fails : FailsToCollect host w e) :
    ∃ e' v, exec (start host rounds) w = (.error e', v) ∧ Withheld w v := by
  obtain ⟨output, v₀, v₁, text, v₂, status, v₃, v, launched, told, read, exited, isOpen, usable,
    failed⟩ := fails
  have launching : Withheld w (v₀.entering .running) :=
    Preorderly.trans (Withheld.entering w .starting)
      (Preorderly.trans (withheld_launch.of_exec launched) (Withheld.entering v₀ .running))
  have telling : Withheld (v₀.entering .running) v₁ := by
    simpa only [told] using @withheld_tellStart host (v₀.entering .running)
  have started : Withheld w v₁ := Preorderly.trans launching telling
  have reading : Withheld w v₂ := Preorderly.trans started ((withheld_readAll _ _ _).of_exec read)
  have waiting : Withheld w v₃ := Preorderly.trans reading (withheld_awaitExit.of_exec exited)
  have withheld : Withheld w v := Preorderly.trans waiting (withheld_collectAll failed)
  have run : exec (runChecker host rounds output) (v₀.entering .running) = (.error e, v) := by
    have once : ¬ v₁.session.options.watch = true := by
      rw [started.frame]
      simp [single]
    rw [runChecker, exec_bind_ok told, exec_bind_ok (exec_current v₁), if_neg once, checkOnce_eq,
      exec_bind_ok read, exec_bind_ok exited]
    exact exec_conclude_of_error isOpen usable (waiting.table?_eq.trans unknown) failed
  rw [exec_start idle, launched]
  dsimp only
  rw [run]
  rcases e with cause | _ | _
  · exact withheld.stop_throw host _
  · exact withheld.stop_throw host _
  · exact ⟨_, v, rfl, withheld⟩

/-- **Definitions are collected all or not at all**, whatever the session knew before and whatever
the collector answers.  Every file under test is asked exactly once, in order.  If all of them
answer, the session knows the files that have definitions, in order, each with the index map of
its own text, and nothing else.  If one does not, collecting comes to the first refusal, and the
session knows what it knew before.  A pass or a single run that has to collect and fails to is
interrupted; it publishes nothing and leaves the result as it was. -/
theorem collected_all_or_nothing (host : Host) (rounds : Nat) (w : World) :
    (∃ answers v, Asks host w answers v ∧ answers.map Prod.fst = w.session.files ∧
      collections v.log = collections w.log ++ w.session.files.map (w.session.root, ·) ∧
      Withheld w v ∧
      (Answered answers ∧
          exec (collectAll host) w = (.ok (known answers), v.knowing (known answers)) ∨
        ∃ e, FailsFirst e answers ∧ exec (collectAll host) w = (.error e, v))) ∧
    (∀ output e v, w.session.table? = none →
      exec (collectAll host) { w with course := w.course ++ [.completed output] } = (.error e, v) →
      exec (finishPass host output) w = (.error e, v) ∧ Withheld w v) ∧
    (∀ e, w.session.phase = .idle → w.session.options.watch = false → w.session.table? = none →
      FailsToCollect host w e →
      ∃ e' v, exec (start host rounds) w = (.error e', v) ∧ Withheld w v) := by
  refine ⟨?_, ?_, ?_⟩
  · obtain ⟨answers, v, asks, files, run⟩ := exists_asks host w.session.files w
    refine ⟨answers, v, asks, files, ?_, (withheld_collectEach _).of_exec run, ?_⟩
    · rw [asks.collections_eq, files]
    · rcases answered_or_failsFirst answers with all | ⟨e, fails⟩
      · exact .inl ⟨all, exec_collectAll_of_answered run all⟩
      · exact .inr ⟨e, fails, exec_collectAll_of_failsFirst run fails⟩
  · intro output e v unknown failed
    refine ⟨exec_finishPass_of_error unknown failed, ?_⟩
    exact Preorderly.trans (Withheld.completed w output) (withheld_collectAll failed)
  · intro e idle single unknown fails
    exact withheld_start_of_failsToCollect idle single unknown fails

/-- A host whose collector knows nothing of one file and refuses another. -/
def refusing : Host :=
  { Host.quiet with
    collect := fun _ path =>
      if path = "/b.ts" then ⟨[.beside .clean], .fails (.refused "b")⟩ else .pure none }

/-- A session over three files, the second of which is refused, with a result from before: all three
are asked, a pass ends with the refusal, and so does a single run. -/
theorem collected_all_or_nothing_refused :
    ∃ w : World, w.session = { new {} ["/a.ts", "/b.ts", "/c.ts"] with
        snapshot := ⟨[], [⟨"old", []⟩]⟩ } ∧
      (∃ v, exec (collectAll refusing) w = (.error (.failure (.refused "b")), v) ∧
        (collections v.log).map Prod.snd = ["/a.ts", "/b.ts", "/c.ts"] ∧ Withheld w v) ∧
      (∃ v, exec (finishPass refusing []) w = (.error (.failure (.refused "b")), v) ∧
        v.session.snapshot = ⟨[], [⟨"old", []⟩]⟩ ∧ v.session.table? = none) ∧
      ∃ e v, exec (start refusing 1) w = (.error e, v) ∧
        v.session.snapshot = ⟨[], [⟨"old", []⟩]⟩ ∧ publications v.course = [] := by
  refine ⟨⟨{ new {} ["/a.ts", "/b.ts", "/c.ts"] with snapshot := ⟨[], [⟨"old", []⟩]⟩ }, [], []⟩,
    rfl, ?_, ?_, ?_⟩
  all_goals
    obtain ⟨⟨answers, v, asks, files, asked, withheld, outcome⟩, pass, single⟩ :=
      collected_all_or_nothing refusing 1
        ⟨{ new {} ["/a.ts", "/b.ts", "/c.ts"] with snapshot := ⟨[], [⟨"old", []⟩]⟩ }, [], []⟩
  · rcases outcome with ⟨-, run⟩ | ⟨e, -, run⟩
    · cases run
    · cases run
      exact ⟨_, rfl, by decide, withheld⟩
  · obtain ⟨run, withheld⟩ := pass [] _ _ rfl rfl
    exact ⟨_, run, withheld.snapshot_eq, withheld.table?_eq⟩
  · obtain ⟨e, v, run, withheld⟩ := single _ rfl rfl rfl
      ⟨_, _, _, _, _, _, _, _, rfl, rfl, rfl, rfl, by decide, .inl rfl, rfl⟩
    exact ⟨e, v, run, withheld.snapshot_eq, withheld.publications⟩

end Session

end TypeVerdict
