import Mathlib.Data.List.Chain
import TypeVerdict.Proofs.Obliging
import TypeVerdict.Proofs.Steps

/-!
# The phases of a session

A session goes from idle through starting and running to done, and it may be closed
from any phase, once and for all.  Others can close it whenever it waits, and a
session that enters a phase after it waited has to ask whether it is still open.

Most of what a session does enters no phase at all; whatever others do meanwhile, its
phase stays or it is closed (`Closing`).  What is left are the few places where a
phase is entered.  Two of them do not ask: a session that was closed while its checker
was launched goes on to run, and a watching session that was closed while it waited
for the checker's exit goes on to be done.  Everywhere else the phases are as they
should be, so these two are exactly what can go wrong.

## Main definitions

* `Phase.Leads`: which phase may follow which
* `World.Lawful`: the phases that a session went through follow one another
* `Closing`: an action enters no phase but may let others close the session
* `ClosedInLaunch`, `ClosedInWait`: the two ways to leave the closed phase

## Main statements

* `Closing.of_run`, `Closing.launch`: runs and launches enter no phase
* `Follows.adds`, `World.Underway.lawful_of_follows`: following a checker only adds
  phases, and when they are lawful
* `lawful_start_iff`: when the phases of a run are lawful
-/

namespace TypeVerdict

/-- Which phase may follow which. -/
inductive Phase.Leads : Phase → Phase → Prop where
  | start : Leads .idle .starting
  | run : Leads .starting .running
  | finish : Leads .running .done
  | close (phase : Phase) : Leads phase .closed

/-- Nothing but closing again follows closing. -/
theorem Phase.Leads.eq_closed {p : Phase} (h : Phase.Leads .closed p) : p = .closed := by
  cases h
  rfl

namespace Session

variable {α : Type}

/-- The phase that a milestone enters. -/
def Milestone.phase? : Milestone → Option Phase
  | entered phase => some phase
  | completed _ | told _ => none

/-- The phases that a session entered so far, in order. -/
def World.phases (w : World) : List Phase := w.course.filterMap Milestone.phase?

@[simp] theorem World.phases_entering (w : World) (phase : Phase) :
    (w.entering phase).phases = w.phases ++ [phase] := by
  simp [World.phases, World.entering, Milestone.phase?]

/-- **The phases of a session are lawful**: each follows the one before, beginning
with a session that is idle, and the last one is its phase now. -/
structure World.Lawful (w : World) : Prop where
  chain : (Phase.idle :: w.phases).IsChain Phase.Leads
  last : (Phase.idle :: w.phases).getLast? = some w.session.phase

/-- Once closed, a session enters no other phase. -/
def World.StaysClosed (w : World) : Prop :=
  ∀ before after, w.phases = before ++ .closed :: after → ∀ p ∈ after, p = .closed

/-- Nothing but closed phases are behind a closed one. -/
theorem eq_closed_of_isChain {phases : List Phase}
    (chain : (Phase.closed :: phases).IsChain Phase.Leads) : ∀ p ∈ phases, p = .closed := by
  induction phases with
  | nil => simp
  | cons p phases ih =>
      obtain ⟨leads, chain⟩ := List.isChain_cons_cons.mp chain
      cases leads.eq_closed
      intro q mem
      rcases List.mem_cons.mp mem with rfl | mem
      · rfl
      · exact ih chain q mem

theorem World.Lawful.staysClosed {w : World} (h : w.Lawful) : w.StaysClosed := by
  intro before after split
  have chain := h.chain
  rw [split, ← List.cons_append] at chain
  exact eq_closed_of_isChain chain.right_of_append

/-! ### Actions that enter no phase -/

/-- An action that enters no phase, though others may close the session meanwhile. -/
structure Closing (u v : World) : Prop where
  options : v.session.options = u.session.options
  closing : (v.session.phase = u.session.phase ∧ v.phases = u.phases) ∨
    (u.session.phase ≠ .closed ∧ v.session.phase = .closed ∧ v.phases = u.phases ++ [.closed])

instance : Preorderly Closing where
  refl _ := ⟨rfl, Or.inl ⟨rfl, rfl⟩⟩
  trans h₁ h₂ := by
    refine ⟨h₂.options.trans h₁.options, ?_⟩
    rcases h₁.closing with ⟨p₁, e₁⟩ | ⟨o₁, p₁, e₁⟩
    · rw [← p₁, ← e₁]
      exact h₂.closing
    · rcases h₂.closing with ⟨p₂, e₂⟩ | ⟨o₂, -, -⟩
      · exact Or.inr ⟨o₁, p₂.trans p₁, e₂.trans e₁⟩
      · exact absurd p₁ o₂

namespace Closing

variable {host : Host}

/-- What others do while a session waits. -/
theorem of_disturbed {u v : World} (h : Disturbed u v) : Closing u v where
  options := by rw [h.frame]
  closing := by
    rcases h.closing with ⟨p, c⟩ | ⟨o, p, c⟩
    · exact Or.inl ⟨p, by rw [World.phases, c, World.phases]⟩
    · refine Or.inr ⟨o, p, ?_⟩
      rw [World.phases, c, List.filterMap_append, World.phases]
      rfl

theorem stop : Guides Closing (Session.stop host) :=
  (guides_stop host).mono fun _ _ h => of_disturbed (.of_released h)

/-- None of the steps of a session that runs enters a phase. -/
theorem of_step {u v : World} (h : Step u v) : Closing u v := by
  cases h with
  | release h => exact of_disturbed h.disturbed
  | ask e h => exact ⟨rfl, Or.inl ⟨rfl, rfl⟩⟩
  | takeUp output => exact ⟨rfl, Or.inl ⟨rfl, by simp [World.phases, Milestone.phase?]⟩⟩
  | revise buffer rerunSeen table? => exact ⟨rfl, Or.inl ⟨rfl, rfl⟩⟩
  | tell notice isOpen =>
      exact ⟨rfl, Or.inl ⟨rfl, by simp [World.phases, World.telling, Milestone.phase?]⟩⟩

theorem of_run {u v : World} (h : Run u v) : Closing u v :=
  Preorderly.of_steps (r := Step) (fun _ _ => of_step) h

/-- The process may be waited for. -/
theorem exited (w : World) : Closing w w.exited := ⟨rfl, Or.inl ⟨rfl, rfl⟩⟩

theorem awaitExit {u v : World} {status : Int}
    (run : exec (Session.awaitExit host) u = (.ok status, v)) : Closing u v := by
  rcases Run.awaitExit run with ⟨_, bad, _⟩ | ⟨_, m, _, waiting, rfl⟩
  · cases bad
  · exact Preorderly.trans (of_run waiting) (exited m)

theorem launch : Guides Closing (Session.launch host) :=
  guides_launch (fun _ _ h => of_step (.release h)) (fun _ _ h _ => of_step (.ask _ h))
    fun _ _ _ => ⟨rfl, Or.inl ⟨rfl, rfl⟩⟩

end Closing

/-! ### Lawful phases -/

/-- Phases are only ever added. -/
def Adds (u v : World) : Prop := u.phases <+: v.phases

instance : Preorderly Adds where
  refl _ := List.prefix_refl _
  trans := List.IsPrefix.trans

theorem Closing.adds {u v : World} (h : Closing u v) : Adds u v := by
  rcases h.closing with ⟨-, same⟩ | ⟨-, -, more⟩
  · exact ⟨[], by rw [same, List.append_nil]⟩
  · rw [Adds, more]
    exact List.prefix_append _ _

theorem adds_entering (w : World) (phase : Phase) : Adds w (w.entering phase) := by
  rw [Adds, World.phases_entering]
  exact List.prefix_append _ _

namespace World.Lawful

variable {u v w : World}

theorem entering (h : w.Lawful) {phase : Phase} (leads : w.session.phase.Leads phase) :
    (w.entering phase).Lawful where
  chain := by
    rw [World.phases_entering, ← List.cons_append, List.isChain_append]
    refine ⟨h.chain, List.isChain_singleton _, ?_⟩
    intro x hx y hy
    rw [h.last, Option.mem_some_iff] at hx
    rw [List.head?_cons, Option.mem_some_iff] at hy
    rwa [← hx, ← hy]
  last := by rw [World.phases_entering, ← List.cons_append, List.getLast?_concat]; rfl

theorem of_closing (h : u.Lawful) (closing : Closing u v) : v.Lawful := by
  rcases closing.closing with ⟨phase, same⟩ | ⟨-, closed, more⟩
  · exact ⟨same ▸ h.chain, by rw [same, phase]; exact h.last⟩
  · have entered := h.entering (.close u.session.phase)
    refine ⟨?_, ?_⟩
    · rw [more, ← World.phases_entering]
      exact entered.chain
    · rw [more, ← World.phases_entering, closed]
      exact entered.last

/-- After a phase that must not follow, the phases are never lawful again. -/
theorem not_isChain (h : u.Lawful) {phase : Phase} (bad : ¬ u.session.phase.Leads phase)
    (later : Adds (u.entering phase) v) : ¬ (Phase.idle :: v.phases).IsChain Phase.Leads := by
  obtain ⟨more, later⟩ := later
  rw [← later, World.phases_entering, List.append_assoc, ← List.cons_append,
    List.isChain_append]
  rintro ⟨-, -, seam⟩
  exact bad (seam _ h.last phase (by simp))

end World.Lawful

/-- A run that has entered nothing but running, and may have been closed since. -/
structure World.Underway (w : World) : Prop where
  lawful : w.Lawful
  phase : w.session.phase = .running ∨ w.session.phase = .closed

theorem World.Underway.of_closing {u v : World} (h : u.Underway) (closing : Closing u v) :
    v.Underway where
  lawful := h.lawful.of_closing closing
  phase := by
    rcases closing.closing with ⟨same, -⟩ | ⟨-, closed, -⟩
    · rw [same]
      exact h.phase
    · exact Or.inr closed

/-- The process may be waited for. -/
theorem World.Underway.exited {w : World} (h : w.Underway) : w.exited.Underway :=
  h.of_closing (.exited w)

/-- A run that is not closed may be done. -/
theorem World.Underway.entering_done {w : World} (h : w.Underway)
    (isOpen : w.session.phase ≠ .closed) : (w.entering .done).Lawful := by
  refine h.lawful.entering ?_
  rw [h.phase.resolve_right isOpen]
  exact .finish

variable {host : Host} {rounds : Nat} {output : Output} {u v : World}
  {r : Except Interruption Unit}

/-- Following a checker only adds phases. -/
theorem Follows.adds (h : Follows host rounds output u r v) : Adds u v := by
  cases h with
  | early run _ => exact (Closing.of_run run).adds
  | unpublished run _ _ rest =>
      exact Preorderly.trans (Closing.of_run run).adds (Closing.of_run rest).adds
  | published run _ rest _ told =>
      have before := Preorderly.trans (Closing.of_run run).adds (Closing.of_run rest).adds
      exact Preorderly.trans before
        (Preorderly.trans (adds_entering _ .done) (Closing.of_run told).adds)
  | watched run _ _ =>
      exact Preorderly.trans (Closing.of_run run).adds (adds_entering _ .done)

/-- **A single run asks** whether it is open before it is done, so its phases are lawful.
**A watching run does not ask** after it waited for the exit, so its phases are lawful if
nobody closed it by then. -/
theorem World.Underway.lawful_of_follows (underway : u.Underway)
    (follows : Follows host rounds output u r v)
    (calm : u.session.options.watch = true → ∀ m, Exits host rounds output u m →
      m.session.phase ≠ .closed) : v.Lawful := by
  cases follows with
  | early run _ => exact (underway.of_closing (.of_run run)).lawful
  | unpublished run _ _ rest =>
      have exited := (underway.of_closing (.of_run run)).exited
      exact (exited.of_closing (.of_run rest)).lawful
  | published run _ rest isOpen told =>
      have exited := (underway.of_closing (.of_run run)).exited
      exact ((exited.of_closing (.of_run rest)).entering_done isOpen).of_closing (.of_run told)
  | watched run watch exits =>
      have exited := (underway.of_closing (.of_run run)).exited
      exact exited.entering_done (calm watch _ exits)

/-! ### A whole run -/

/-- The checker is launched, but the session was closed meanwhile. -/
def ClosedInLaunch (host : Host) (w : World) : Prop :=
  ∃ output v, exec (launch host) (w.entering .starting) = (.ok output, v) ∧
    v.session.phase = .closed

/-- The output of a watching checker ends in an open session, and the checker exits,
but the session was closed while it waited for that. -/
def ClosedInWait (host : Host) (rounds : Nat) (w : World) : Prop :=
  w.session.options.watch = true ∧ ∃ output v₀ v₁ v₂ status v₃,
    exec (launch host) (w.entering .starting) = (.ok output, v₀) ∧
    exec (notify host .started) (v₀.entering .running) = (.ok (), v₁) ∧
    exec (follow host rounds output 0 output.pieces) v₁ = (.ok (), v₂) ∧
    v₂.session.phase ≠ .closed ∧
    exec (awaitExit host) v₂ = (.ok status, v₃) ∧ v₃.session.phase = .closed

/-- A watching session exits when it was told of its start and has read the whole output. -/
theorem Exits.of_watch (exits : Exits host rounds output u v) (isOpen : u.session.phase ≠ .closed)
    (watch : u.session.options.watch = true) :
    ∃ v₁ v₂ status, exec (notify host .started) u = (.ok (), v₁) ∧
      exec (follow host rounds output 0 output.pieces) v₁ = (.ok (), v₂) ∧
      v₂.session.phase ≠ .closed ∧ exec (awaitExit host) v₂ = (.ok status, v) := by
  obtain ⟨v₁, v₂, status, told, through, waited⟩ := exits
  have options : v₁.session.options = u.session.options := by
    simpa only [told] using (@Run.tellStart host u isOpen).options_eq
  rw [ReadThrough, if_pos (options ▸ watch)] at through
  exact ⟨v₁, v₂, status, told, through.1, through.2, waited⟩

section Start

variable {w : World}

/-- After a launch that fails, no phase is entered any more. -/
theorem closing_start_of_error (idle : w.session.phase = .idle) {e : Interruption}
    (failed : exec (launch host) (w.entering .starting) = (.error e, v)) :
    Closing v (exec (start host rounds) w).2 := by
  rw [exec_start idle, failed]
  cases e with
  | failure cause => exact (Closing.stop.bind (fun _ => .failWith cause) v).last
  | cancelled => exact Preorderly.refl v
  | outOfRounds => exact Preorderly.refl v

/-- After a launch that succeeds, the session runs, and when that is over no phase is
entered any more. -/
theorem closing_start_of_ok (idle : w.session.phase = .idle) {output : Output}
    (launched : exec (launch host) (w.entering .starting) = (.ok output, v)) :
    Closing (exec (runChecker host rounds output) (v.entering .running)).2
      (exec (start host rounds) w).2 := by
  rw [exec_start idle, launched]
  dsimp only
  rcases run : exec (runChecker host rounds output) (v.entering .running) with ⟨r, v'⟩
  have ending : ∀ e : Interruption, Closing v' (exec (do stop host; throw e : Act Unit) v').2 :=
    fun e => (Closing.stop.bind (fun _ => .throw e) v').last
  rcases r with (cause | _ | _) | _
  · exact ending _
  · exact ending _
  · exact Preorderly.refl v'
  · exact Preorderly.refl v'

/-- A session that runs although it was closed is not lawful. -/
theorem not_isChain_of_closedInLaunch (idle : w.session.phase = .idle)
    (starting : (w.entering .starting).Lawful) (closed : ClosedInLaunch host w) :
    ¬ (Phase.idle :: (exec (start host rounds) w).2.phases).IsChain Phase.Leads := by
  obtain ⟨output, v, launched, closed⟩ := closed
  have lawful := starting.of_closing (Closing.launch.of_exec launched)
  have ended : Closing (exec (runChecker host rounds output) (v.entering .running)).2
      (exec (start host rounds) w).2 := closing_start_of_ok idle launched
  have follows : Follows host rounds output (v.entering .running) _ _ :=
    follows_runChecker (by simp [World.entering]) rfl
  refine lawful.not_isChain ?_ (Preorderly.trans follows.adds ended.adds)
  rw [closed]
  intro leads
  cases leads.eq_closed

/-- A launch in an open session leaves it starting. -/
theorem underway_of_launch (starting : (w.entering .starting).Lawful) {output : Output}
    (launched : exec (launch host) (w.entering .starting) = (.ok output, v))
    (isOpen : v.session.phase ≠ .closed) : (v.entering .running).Underway := by
  have closing := Closing.launch.of_exec launched
  have phase : v.session.phase = .starting := by
    rcases closing.closing with ⟨same, -⟩ | ⟨-, closed, -⟩
    · exact same
    · exact absurd closed isOpen
  exact ⟨(starting.of_closing closing).entering (phase ▸ .run), Or.inl rfl⟩

/-- A session that is done although it was closed is not lawful. -/
theorem not_isChain_of_closedInWait (idle : w.session.phase = .idle)
    (starting : (w.entering .starting).Lawful) (inLaunch : ¬ ClosedInLaunch host w)
    (inWait : ClosedInWait host rounds w) :
    ¬ (Phase.idle :: (exec (start host rounds) w).2.phases).IsChain Phase.Leads := by
  obtain ⟨watch, output, v₀, v₁, v₂, status, v₃, launched, run₁, run₂, isOpen, run₃, closed⟩ :=
    inWait
  have isOpen₀ : v₀.session.phase ≠ .closed := fun closed₀ =>
    inLaunch ⟨output, v₀, launched, closed₀⟩
  have closing₀ := Closing.launch.of_exec launched
  have closing₁ : Closing (v₀.entering .running) v₁ := by
    have opened : (v₀.entering .running).session.phase ≠ .closed := by simp [World.entering]
    simpa only [run₁] using Closing.of_run (@Run.tellStart host _ opened)
  have closing₂ : Closing v₁ v₂ := .of_run ((Run.follow _ _ _ _).of_exec run₂)
  have closing₃ := Closing.awaitExit run₃
  have underway := ((underway_of_launch starting launched isOpen₀).of_closing closing₁).of_closing
    (Preorderly.trans closing₂ closing₃)
  have watch₁ : v₁.session.options.watch = true := by
    rw [closing₁.options]
    exact (congrArg Options.watch closing₀.options).trans watch
  have run : exec (runChecker host rounds output) (v₀.entering .running) =
      (.ok (), v₃.entering .done) := by
    rw [runChecker, exec_bind_ok run₁, exec_bind_ok (exec_current _), if_pos watch₁,
      checkOnChange, exec_bind_ok run₂, exec_bind_ok (exec_current _), if_neg isOpen,
      exec_bind_ok run₃, exec_enter]
  have ended : Closing (exec (runChecker host rounds output) (v₀.entering .running)).2
      (exec (start host rounds) w).2 := closing_start_of_ok idle launched
  rw [run] at ended
  refine underway.lawful.not_isChain ?_ ended.adds
  rw [closed]
  intro leads
  cases leads.eq_closed

/-- Apart from these two ways, a run is lawful. -/
theorem lawful_start (idle : w.session.phase = .idle)
    (starting : (w.entering .starting).Lawful) (inLaunch : ¬ ClosedInLaunch host w)
    (inWait : ¬ ClosedInWait host rounds w) : (exec (start host rounds) w).2.Lawful := by
  rcases launched : exec (launch host) (w.entering .starting) with ⟨e | output, v₀⟩
  · exact (starting.of_closing (Closing.launch.of_exec launched)).of_closing
      (closing_start_of_error idle launched)
  · have isOpen : v₀.session.phase ≠ .closed := fun closed =>
      inLaunch ⟨output, v₀, launched, closed⟩
    have options := (Closing.launch.of_exec launched).options
    have opened : (v₀.entering .running).session.phase ≠ .closed := by simp [World.entering]
    have underway := underway_of_launch starting launched isOpen
    refine World.Lawful.of_closing (underway.lawful_of_follows (follows_runChecker opened rfl) ?_)
      (closing_start_of_ok idle launched)
    intro watch v₃ exits closed
    obtain ⟨v₁, v₂, status, run₁, run₂, isOpen₂, run₃⟩ := exits.of_watch opened watch
    exact inWait ⟨(congrArg Options.watch options).symm.trans watch,
      output, v₀, v₁, v₂, status, v₃, launched, run₁, run₂, isOpen₂, run₃, closed⟩

end Start

/-- **When the phases of a run are lawful**, whatever the surroundings answer and
whenever others tear the session down: exactly if the session was not closed while a
launch went on that succeeded, nor while a watching session waited for the exit of a
checker whose output had ended.  Then, once closed, it also stays closed. -/
theorem lawful_start_iff (host : Host) (rounds : Nat) {w : World}
    (idle : w.session.phase = .idle) (fresh : w.phases = []) :
    ((exec (start host rounds) w).2.Lawful ∧ (exec (start host rounds) w).2.StaysClosed) ↔
      ¬ ClosedInLaunch host w ∧ ¬ ClosedInWait host rounds w := by
  have initial : w.Lawful := ⟨by rw [fresh]; exact List.isChain_singleton _, by
    rw [fresh, idle]
    rfl⟩
  have starting : (w.entering .starting).Lawful := initial.entering (idle ▸ .start)
  constructor
  · rintro ⟨lawful, -⟩
    have inLaunch : ¬ ClosedInLaunch host w := fun closed =>
      not_isChain_of_closedInLaunch idle starting closed lawful.chain
    exact ⟨inLaunch, fun closed =>
      not_isChain_of_closedInWait idle starting inLaunch closed lawful.chain⟩
  · rintro ⟨inLaunch, inWait⟩
    have lawful := lawful_start idle starting inLaunch inWait
    exact ⟨lawful, lawful.staysClosed⟩

/-- A host whose listeners have the session stopped before they return. -/
def stoppingListeners : Host :=
  { Host.quiet with notify := fun _ _ _ => ⟨[.beside .stop], .returns ()⟩ }

/-- A watching session that is stopped by the listener that hears of its start. -/
theorem lawful_start_stopped :
    (exec (start stoppingListeners 1)
      ⟨new { watch := true } [] { started? := some "started" }, [], []⟩).2.Lawful ∧
    (exec (start stoppingListeners 1)
      ⟨new { watch := true } [] { started? := some "started" }, [], []⟩).2.StaysClosed := by
  refine (lawful_start_iff stoppingListeners 1 rfl rfl).mpr ⟨?_, ?_⟩
  · rintro ⟨output, v, launched, closed⟩
    cases launched
    cases closed
  · rintro ⟨-, output, v₀, v₁, v₂, status, v₃, launched, run₁, run₂, isOpen, -⟩
    cases launched
    cases run₁
    cases run₂
    exact isOpen rfl

/-- **A closed session need not stay closed.**  A session that is stopped while its
configuration is created goes on to run and is done; a watching session that is
stopped while it waits for the checker's exit is done. -/
theorem not_staysClosed_start :
    (∃ w', (exec (start
        { Host.quiet with createConfig := fun _ => ⟨[.beside .stop], .returns ""⟩ } 1)
        ⟨new {} [], [], []⟩).2 = w' ∧
      w'.phases = [.starting, .closed, .running, .done] ∧ ¬ w'.Lawful ∧ ¬ w'.StaysClosed) ∧
    (∃ w', (exec (start { Host.quiet with wait := fun _ => ⟨[.beside .stop], .returns 0⟩ } 1)
        ⟨new { watch := true } [], [], []⟩).2 = w' ∧
      w'.phases = [.starting, .running, .closed, .done] ∧ ¬ w'.Lawful ∧ ¬ w'.StaysClosed) := by
  have left : ∀ (w' : World) (before after : List Phase) (p : Phase), p ≠ .closed →
      w'.phases = before ++ .closed :: p :: after → ¬ w'.Lawful ∧ ¬ w'.StaysClosed := by
    intro w' before after p other split
    have leaves : ¬ w'.StaysClosed := fun stays =>
      other (stays before (p :: after) split p List.mem_cons_self)
    exact ⟨fun lawful => leaves lawful.staysClosed, leaves⟩
  exact ⟨⟨_, rfl, rfl, left _ [.starting] [.done] .running (by decide) rfl⟩,
    ⟨_, rfl, rfl, left _ [.starting, .running] [] .done (by decide) rfl⟩⟩

end Session

end TypeVerdict
