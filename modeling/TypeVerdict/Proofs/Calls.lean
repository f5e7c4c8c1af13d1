import TypeVerdict.Proofs.Steps

/-!
# The calls of listeners

The course of a session says which notices were due, and its log whom the session called.
While a session runs, the two go together: whoever listens for a notice is called when it is
due, in the same order, and nobody is called otherwise (`Voiced`).  Every step keeps to
that, so every run does, whatever the surroundings do and however it ends.

## Main definitions

* `calls`: the calls of listeners in a log
* `Milestone.calls`: the calls that go with a milestone
* `Voiced`: what was called since is what the course calls for

## Main statements

* `Voiced.of_step`, `Voiced.of_run`: a session that runs calls what its course calls for
-/

namespace TypeVerdict

/-- Whether an event is the call of a listener. -/
def Event.isCall : Event → Bool
  | .notify _ _ => true
  | _ => false

namespace Session

/-- The calls of listeners in a log. -/
def calls (log : Log) : Log := log.filter Event.isCall

/-- The calls that go with a milestone. -/
def Milestone.calls (l : Listeners) : Milestone → Log
  | .told notice => l.heard notice
  | _ => []

@[simp] theorem calls_append (log more : Log) : calls (log ++ more) = calls log ++ calls more :=
  List.filter_append ..

theorem calls_of_isQuestion {e : Event} (h : e.isQuestion = true) : calls [e] = [] := by
  cases e <;> first | rfl | cases h

@[simp] theorem calls_heard (l : Listeners) (notice : Notice) :
    calls (l.heard notice) = l.heard notice := by
  cases h : l.for? notice <;> simp [Listeners.heard, h, calls, Event.isCall]

@[simp] theorem calls_map_removeConfig (paths : List String) :
    calls (paths.map .removeConfig) = [] := by
  simp [calls, Event.isCall]

variable {u v w : World}

/-- **Since some world, those were called whom the course calls for since**, and the
listeners are the same. -/
structure Voiced (u v : World) : Prop where
  listeners : v.session.listeners = u.session.listeners
  called : ∃ more, v.course = u.course ++ more ∧
    calls v.log = calls u.log ++ more.flatMap (Milestone.calls u.session.listeners)

namespace Voiced

theorem refl (w : World) : Voiced w w := ⟨rfl, [], by simp, by simp⟩

theorem trans (h₁ : Voiced u v) (h₂ : Voiced v w) : Voiced u w where
  listeners := h₂.listeners.trans h₁.listeners
  called := by
    obtain ⟨more₁, course₁, called₁⟩ := h₁.called
    obtain ⟨more₂, course₂, called₂⟩ := h₂.called
    refine ⟨more₁ ++ more₂, ?_, ?_⟩
    · rw [course₂, course₁, List.append_assoc]
    · rw [called₂, called₁, h₁.listeners, List.flatMap_append, List.append_assoc]

instance : Preorderly Voiced := ⟨refl, trans⟩

/-- The calls are those of the milestones that were added. -/
theorem calls_eq (h : Voiced u v) {more : List Milestone} (course : v.course = u.course ++ more) :
    calls v.log = calls u.log ++ more.flatMap (Milestone.calls u.session.listeners) := by
  obtain ⟨more', course', called⟩ := h.called
  obtain rfl : more' = more := List.append_cancel_left (course'.symm.trans course)
  exact called

/-- Tearing down calls nobody. -/
theorem of_release (h : Release u v) : Voiced u v := by
  cases h with
  | close isOpen =>
      refine ⟨rfl, [.entered .closed], rfl, ?_⟩
      cases holds : u.session.holdsProcess <;>
        simp [World.closing, holds, calls, Event.isCall, Milestone.calls]
  | clean => exact ⟨rfl, [], by simp [World.cleaned], by simp [World.cleaned]⟩

/-- **A step calls what it adds to the course.** -/
theorem of_step (h : Step u v) : Voiced u v := by
  cases h with
  | release h => exact of_release h
  | ask e h => exact ⟨rfl, [], by simp, by simp [calls_of_isQuestion h]⟩
  | takeUp output => exact ⟨rfl, [.completed output], rfl, by simp [Milestone.calls]⟩
  | revise buffer rerunSeen table? => exact ⟨rfl, [], by simp, by simp⟩
  | tell notice isOpen =>
      exact ⟨rfl, [.told notice], rfl, by simp [World.telling, Milestone.calls]⟩

theorem of_run (h : Run u v) : Voiced u v :=
  Preorderly.of_steps (r := Step) (fun _ _ => of_step) h

end Voiced

end Session

end TypeVerdict
