import Mathlib.Data.List.Basic
import TypeVerdict.Proofs.Action

/-!
# Where an action waits

While an action waits, others can look at the session, and they can do so again when it has ended.
The worlds that they may find, in order, are the trail of a run (`trail`).

A relation that holds between the beginning and the end of a run mostly holds along its trail, too,
and for the same reason: the elementary actions do not wait, and what follows an action is on the
trail behind it.  So `Guides R a` says that `R` leads from a world to every world that a run of `a`
passes through, and from each of these to the later ones, with whatever outcome.  It is composed
along the text of an action, so a fact about whole runs is one fact about each elementary action.

## Main definitions

* `Session.trail`: the worlds in which an action waits, and the one in which it ends
* `Session.GuidesFrom`, `Session.Guides`: a relation leads along the trail of an action

## Main statements

* `GuidesFrom.bind`, `Guides.bind`: the trail of one action after another
* `Guides.of_exec`: the end of a run
-/

namespace TypeVerdict.Session

variable {α β : Type} {R S : World → World → Prop} {a : Act α} {f : α → Act β} {u v w : World}
  {x : α} {e : Interruption}

/-- **The trail of an action**: the worlds in which it waits, and the one in which it ends. -/
def trail (a : Act α) (w : World) : List World := a.waits w ++ [(exec a w).2]

theorem trail_bind_ok (first : exec a w = (.ok x, v)) (f : α → Act β) :
    trail (a >>= f) w = a.waits w ++ trail (f x) v := by
  rw [trail, trail, waits_bind_ok first, exec_bind_ok first, List.append_assoc]

theorem trail_bind_error (first : exec a w = (.error e, v)) (f : α → Act β) :
    trail (a >>= f) w = trail a w := by
  rw [trail, trail, waits_bind_error first, exec_bind_error first, first]

theorem trail_attempt (a : Act α) (w : World) : trail (attempt a) w = trail a w := by
  rw [trail, trail, waits_attempt, exec_attempt]

/-- **From an earlier world on, a relation leads along the trail of an action.** -/
def GuidesFrom (R : World → World → Prop) (u : World) (a : Act α) (w : World) : Prop :=
  (u :: trail a w).Pairwise R

/-- **A relation leads along every trail of an action.** -/
def Guides (R : World → World → Prop) (a : Act α) : Prop := ∀ w, GuidesFrom R w a w

namespace GuidesFrom

/-- It leads to every world of the trail. -/
theorem rel (h : GuidesFrom R u a w) (mem : v ∈ trail a w) : R u v :=
  List.rel_of_pairwise_cons h mem

/-- It leads to the end. -/
theorem last (h : GuidesFrom R u a w) : R u (exec a w).2 :=
  h.rel (List.mem_append_right _ List.mem_cons_self)

theorem mono (hRS : ∀ u v, R u v → S u v) (h : GuidesFrom R u a w) : GuidesFrom S u a w :=
  List.Pairwise.imp (fun {u v} => hRS u v) h

/-- An action that does not wait. -/
theorem of_end (silent : a.waits w = []) (h : R u (exec a w).2) : GuidesFrom R u a w := by
  rw [GuidesFrom, trail, silent]
  exact List.pairwise_pair.mpr h

/-- A trail on which there is one world only. -/
theorem of_forall_eq [hR : Preorderly R] (same : ∀ m ∈ trail a w, m = v) (h : R u v) :
    GuidesFrom R u a w := by
  rw [GuidesFrom, List.eq_replicate_of_mem same]
  exact List.Pairwise.cons (fun m mem => List.eq_of_mem_replicate mem ▸ h)
    (List.pairwise_replicate.mpr (Or.inr (hR.refl v)))

/-- What does not wait and is not interrupted leaves no world on the trail. -/
theorem skip (first : exec a w = (.ok x, v)) (silent : a.waits w = [])
    (rest : GuidesFrom R u (f x) v) : GuidesFrom R u (a >>= f) w := by
  rwa [GuidesFrom, trail_bind_ok first, silent]

theorem attempt (h : GuidesFrom R u a w) : GuidesFrom R u (Session.attempt a) w := by
  rwa [GuidesFrom, trail_attempt]

/-- A trail may be looked at from before. -/
theorem head [hR : Preorderly R] (before : R u v) (h : GuidesFrom R v a w) :
    GuidesFrom R u a w :=
  List.Pairwise.cons (fun _ mem => hR.trans before (h.rel mem)) (List.Pairwise.of_cons h)

/-- **One action after another**, from an earlier world on: both trails, up to the world in which
the first ends and the second begins. -/
theorem bind [hR : Preorderly R] (ha : GuidesFrom R u a w) (hf : ∀ x, Guides R (f x)) :
    GuidesFrom R u (a >>= f) w := by
  rcases first : exec a w with ⟨e | x, v⟩
  · rwa [GuidesFrom, trail_bind_error first]
  · rw [GuidesFrom, trail, first, ← List.cons_append, List.pairwise_append] at ha
    obtain ⟨waits, -, toMiddle⟩ := ha
    have rest : GuidesFrom R v (f x) v := hf x v
    rw [GuidesFrom, trail_bind_ok first, ← List.cons_append, List.pairwise_append]
    refine ⟨waits, List.Pairwise.of_cons rest, fun m mem m' mem' => ?_⟩
    exact hR.trans (toMiddle m mem v List.mem_cons_self) (rest.rel mem')

end GuidesFrom

namespace Guides

/-- A run whose outcome is known leads to a related world. -/
theorem of_exec {r : Except Interruption α} (h : Guides R a) (run : exec a w = (r, v)) :
    R w v := by
  have ended := (h w).last
  rwa [run] at ended

theorem mono (hRS : ∀ u v, R u v → S u v) (h : Guides R a) : Guides S a :=
  fun w => (h w).mono hRS

/-- An action that does not wait. -/
theorem atOnce {run : World → Except Interruption α × World} (h : ∀ w, R w (run w).2) :
    Guides R (.atOnce run) :=
  fun w => .of_end rfl (h w)

theorem attempt (ha : Guides R a) : Guides R (Session.attempt a) := fun w => (ha w).attempt

theorem ite {c : Prop} [Decidable c] {b : Act α} (ha : Guides R a) (hb : Guides R b) :
    Guides R (if c then a else b) := by
  split
  · exact ha
  · exact hb

section Preorder

variable [hR : Preorderly R]

theorem pure (x : α) : Guides R (Pure.pure x : Act α) := atOnce hR.refl

theorem throw (e : Interruption) : Guides R (MonadExcept.throw e : Act α) := atOnce hR.refl

theorem failWith (cause : Failure) : Guides R (Session.failWith cause : Act α) := atOnce hR.refl

theorem current : Guides R Session.current := atOnce hR.refl

theorem history : Guides R Session.history := atOnce hR.refl

theorem ofExcept (r : Except Interruption α) : Guides R (MonadExcept.ofExcept r : Act α) := by
  cases r with
  | error e => exact throw e
  | ok x => exact pure x

theorem pause : Guides R Session.pause :=
  fun w => .of_forall_eq (fun _ mem => by simpa [trail] using mem) (hR.refl w)

/-- **One action after another.** -/
theorem bind (ha : Guides R a) (hf : ∀ x, Guides R (f x)) : Guides R (a >>= f) :=
  fun w => (ha w).bind hf

end Preorder

end Guides

end TypeVerdict.Session
