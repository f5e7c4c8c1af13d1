import Mathlib.Logic.Relation
import TypeVerdict.Proofs.Waiting

/-!
# What others can do while a session waits

While a session waits for an answer, others may tear it down, any number of times
and in either way.  Whatever they do comes to two steps (`Release`): an open session is
closed, and the configuration is given up.  Each of them tells the surroundings what is
due and takes it off what the session holds.

For most purposes less is enough.  `Disturbed` says what stays the same: the
configuration may be given up, and an open session may be closed, once and for all;
whatever the session knows about its passes stays as it is.

## Main definitions

* `Session.Release`: one step of a teardown
* `Session.Disturbed`: what tearing a session down may change

## Main statements

* `snd_exec_stop`: what stopping a session comes to
* `guides_await`: waiting, whatever happens meanwhile, comes to such steps
* `disturbed_await`: waiting only disturbs
* `Disturbed.calm`: a session that is still open was not touched
-/

namespace TypeVerdict

/-- The path of a configuration that is still to be removed.  A path that is the empty
text stands for none. -/
def Session.owedRemovals (s : Session) : List String := s.config?.toList.filter (· ≠ "")

namespace Session

variable {α : Type}

/-! ### The steps of a teardown -/

/-- The world after an open session was closed: the process that it holds is told to
terminate. -/
def World.closing (w : World) : World where
  session := { w.session with phase := .closed, holdsProcess := false }
  log := w.log ++ if w.session.holdsProcess then [.terminate] else []
  course := w.course ++ [.entered .closed]

/-- The world after the configuration was given up. -/
def World.cleaned (w : World) : World where
  session := { w.session with config? := none }
  log := w.log ++ w.session.owedRemovals.map .removeConfig
  course := w.course

/-- **One step of a teardown.** -/
inductive Release : World → World → Prop where
  /-- An open session is closed. -/
  | close {w : World} (isOpen : w.session.phase ≠ .closed) : Release w w.closing
  /-- The configuration is given up. -/
  | clean (w : World) : Release w w.cleaned

/-- Any number of steps of a teardown. -/
abbrev Released : World → World → Prop := Relation.ReflTransGen Release

instance {r : World → World → Prop} : Preorderly (Relation.ReflTransGen r) where
  refl _ := .refl
  trans := .trans

/-- What holds of every step holds of any number of them. -/
theorem Preorderly.of_steps {r R : World → World → Prop} [hR : Preorderly R]
    (step : ∀ u v, r u v → R u v) {u v : World} (h : Relation.ReflTransGen r u v) : R u v := by
  induction h with
  | refl => exact hR.refl u
  | tail _ last ih => exact hR.trans ih (step _ _ last)

/-- Cleaning gives the configuration up, even if it cannot be removed. -/
theorem snd_exec_clean (host : Host) (w : World) : (exec (clean host) w).2 = w.cleaned := by
  rw [clean, exec_bind_ok (exec_current w), exec_bind_ok (exec_update _ w)]
  cases config? : w.session.config? with
  | none => simp [World.cleaned, owedRemovals, config?]
  | some path =>
      by_cases empty : path = ""
      · simp [World.cleaned, owedRemovals, config?, empty]
      · -- the log is extended whether or not the removal fails
        have owed : w.session.owedRemovals = [path] := by simp [owedRemovals, config?, empty]
        simp only [World.cleaned, owed, List.map_singleton]
        rw [exec_bind_ok (exec_record _ _), exec_bind_ok (exec_pause _),
          exec_bind_ok (exec_history _)]
        split <;> rfl

theorem snd_exec_terminate (host : Host) (w : World) :
    (exec (terminate host) w).2 = { w with log := w.log ++ [.terminate] } := by
  rw [terminate, exec_bind_ok (exec_record _ _), exec_bind_ok (exec_pause _),
    exec_bind_ok (exec_history _)]
  split <;> rfl

/-- **What stopping a session comes to**: an open session is closed, and then, even if
the process cannot be terminated, the configuration is given up. -/
theorem snd_exec_stop (host : Host) (w : World) :
    (exec (stop host) w).2 =
      if w.session.phase = .closed then w.cleaned else w.closing.cleaned := by
  rw [stop, exec_bind_ok (exec_current w)]
  split
  · exact snd_exec_clean host w
  · rw [exec_bind_ok (exec_current w), exec_bind_ok (exec_enter _ _),
      exec_bind_ok (exec_update _ _)]
    by_cases holds : w.session.holdsProcess = true
    · rw [if_pos holds, snd_exec_thenAlways, snd_exec_terminate, snd_exec_clean]
      simp [World.closing, World.entering, holds]
    · rw [if_neg holds, snd_exec_clean]
      simp [World.closing, World.entering, holds]

/-! ### Waiting -/

section Waiting

variable {v w : World}

/-- The configuration is given up before its removal is waited for. -/
theorem eq_cleaned_of_mem_trail {host : Host} (mem : v ∈ trail (clean host) w) :
    v = w.cleaned := by
  rcases List.mem_append.mp mem with waits | last
  · rw [clean, waits_bind_ok (exec_current w), waits_bind_ok (exec_update _ w)] at waits
    split at waits
    · cases waits
    · cases waits
    · next path named config? =>
        rw [waits_bind_ok (exec_record _ _), waits_bind_ok (exec_pause _),
          waits_bind_ok (exec_history _)] at waits
        have owed : w.session.owedRemovals = [path] := by simpa [owedRemovals, config?] using named
        rw [World.cleaned, owed]
        split at waits <;> exact List.mem_singleton.mp waits
  · rw [← snd_exec_clean host w]
    exact List.mem_singleton.mp last

/-- The session is closed before the process is waited for. -/
theorem eq_of_mem_trail_terminate {host : Host} (mem : v ∈ trail (terminate host) w) :
    v = { w with log := w.log ++ [.terminate] } := by
  rw [terminate, trail_bind_ok (exec_record _ _), trail_bind_ok (exec_pause _),
    trail_bind_ok (exec_history _)] at mem
  split at mem <;> simpa [trail] using mem

theorem guides_clean (host : Host) : Guides Released (clean host) :=
  fun w => .of_forall_eq (fun _ => eq_cleaned_of_mem_trail) (.single (.clean w))

theorem guides_stop (host : Host) : Guides Released (stop host) := by
  intro w
  rw [stop]
  refine .skip (exec_current w) rfl ?_
  split
  · exact guides_clean host w
  next isOpen =>
    refine .skip (exec_current w) rfl (.skip (exec_enter _ w) rfl (.skip (exec_update _ _) rfl ?_))
    have closing : Released w w.closing := .single (.close isOpen)
    by_cases holds : w.session.holdsProcess = true
    · rw [if_pos holds]
      refine .bind (.of_forall_eq (v := w.closing) (fun m mem => ?_) closing) fun _ =>
        .bind (guides_clean host) fun _ => .ofExcept _
      rw [trail_attempt] at mem
      rw [eq_of_mem_trail_terminate mem]
      simp [World.closing, World.entering, holds]
    · rw [if_neg holds]
      have same : w.closing = { w.entering .closed with session :=
          { (w.entering .closed).session with holdsProcess := false } } := by
        simp [World.closing, World.entering, holds]
      exact .head closing (same ▸ guides_clean host _)

theorem guides_tearDown (host : Host) (what : Teardown) : Guides Released (tearDown host what) := by
  cases what with
  | stop => exact guides_stop host
  | clean => exact guides_clean host

theorem guides_interfere (host : Host) (meanwhile : List Interference) :
    Guides Released (interfere host meanwhile) := by
  induction meanwhile with
  | nil => exact .pause
  | cons i more ih =>
      cases i with
      | within what => exact .bind .pause fun _ => .bind (guides_tearDown host what) fun _ => ih
      | beside what =>
          exact .bind .pause fun _ => .bind (guides_tearDown host what).attempt fun _ => ih

/-- **Waiting comes to steps of a teardown**, however long it takes and however it ends, and
others can look at the session between them. -/
theorem guides_await (host : Host) (reply : Reply α) : Guides Released (await host reply) := by
  refine .bind (guides_interfere host _) fun _ => ?_
  split
  · exact .pure _
  · exact .failWith _
  · exact .throw _

end Waiting

/-! ### What stays the same -/

/-- What any number of teardowns may change.

`frame` says which parts of the session they reach at all.  `closing` says what
they do to its phase: nothing, or an open session is closed and the course records
it. -/
structure Disturbed (u v : World) : Prop where
  /-- Nothing but the phase and the two things to be given up may change. -/
  frame : v.session = { u.session with
    phase := v.session.phase
    config? := v.session.config?
    holdsProcess := v.session.holdsProcess }
  /-- The phase stays, or an open session is closed. -/
  closing : (v.session.phase = u.session.phase ∧ v.course = u.course) ∨
    (u.session.phase ≠ .closed ∧ v.session.phase = .closed ∧
      v.course = u.course ++ [.entered .closed])

namespace Disturbed

variable {u v w : World}

theorem refl (w : World) : Disturbed w w := ⟨rfl, Or.inl ⟨rfl, rfl⟩⟩

theorem trans (h₁ : Disturbed u v) (h₂ : Disturbed v w) : Disturbed u w where
  frame := by rw [h₂.frame, h₁.frame]
  closing := by
    rcases h₁.closing with ⟨p₁, c₁⟩ | ⟨o₁, p₁, c₁⟩
    · rw [← p₁, ← c₁]
      exact h₂.closing
    · rcases h₂.closing with ⟨p₂, c₂⟩ | ⟨o₂, -, -⟩
      · exact Or.inr ⟨o₁, p₂.trans p₁, c₂.trans c₁⟩
      · exact absurd p₁ o₂

/-- Nobody closed a session that is open in the end, and nobody entered anything in
its course. -/
theorem calm (h : Disturbed u v) (isOpen : v.session.phase ≠ .closed) :
    v.session.phase = u.session.phase ∧ v.course = u.course := by
  rcases h.closing with calm | ⟨-, closed, -⟩
  · exact calm
  · exact absurd closed isOpen

end Disturbed

instance : Preorderly Disturbed := ⟨Disturbed.refl, Disturbed.trans⟩

/-- One step of a teardown only disturbs. -/
theorem Release.disturbed {u v : World} (h : Release u v) : Disturbed u v := by
  cases h with
  | close isOpen => exact ⟨rfl, Or.inr ⟨isOpen, rfl, rfl⟩⟩
  | clean => exact ⟨rfl, Or.inl ⟨rfl, rfl⟩⟩

theorem Disturbed.of_released {u v : World} (h : Released u v) : Disturbed u v :=
  Preorderly.of_steps (r := Release) (fun _ _ => Release.disturbed) h

/-- **Waiting only disturbs**, however long it takes and however it ends. -/
theorem disturbed_await (host : Host) (reply : Reply α) : Guides Disturbed (await host reply) :=
  (guides_await host reply).mono fun _ _ => .of_released

end Session

end TypeVerdict
