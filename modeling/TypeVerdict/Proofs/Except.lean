import Mathlib.Data.List.Forall2

/-!
# Actions that may fail

What succeeds as a whole succeeds step by step, and what succeeds on every element of a list
succeeds on the list.

## Main statements

* `Except.exists_of_bind_eq_ok`: two steps, one after the other
* `Except.forall₂_of_mapM`, `Except.exists_mapM`: one step for each element of a list
-/

namespace Except

variable {α β ε : Type}

/-- What succeeds in two steps succeeds in each. -/
theorem exists_of_bind_eq_ok {x : Except ε α} {f : α → Except ε β} {b : β}
    (h : x >>= f = .ok b) : ∃ a, x = .ok a ∧ f a = .ok b := by
  cases x with
  | error e => cases h
  | ok a => exact ⟨a, rfl, h⟩

variable {action : α → Except ε β} {xs : List α}

/-- Where an action has succeeded on a list, each result is that of the element at its place. -/
theorem forall₂_of_mapM {ys : List β} (h : xs.mapM action = .ok ys) :
    List.Forall₂ (fun x y => action x = .ok y) xs ys := by
  induction xs generalizing ys with
  | nil =>
      cases h
      exact .nil
  | cons x xs ih =>
      rw [List.mapM_cons] at h
      obtain ⟨y, first, h⟩ := exists_of_bind_eq_ok h
      obtain ⟨ys, others, h⟩ := exists_of_bind_eq_ok h
      cases h
      exact .cons first (ih others)

/-- Where an action succeeds on every element of a list, with a result of its own kind, it
succeeds on the list. -/
theorem exists_mapM {P : α → β → Prop} (each : ∀ x ∈ xs, ∃ y, action x = .ok y ∧ P x y) :
    ∃ ys, xs.mapM action = .ok ys ∧ List.Forall₂ P xs ys := by
  induction xs with
  | nil => exact ⟨[], rfl, .nil⟩
  | cons x xs ih =>
      obtain ⟨y, first, hy⟩ := each x List.mem_cons_self
      obtain ⟨ys, others, hys⟩ := ih fun x' mem => each x' (List.mem_cons_of_mem x mem)
      refine ⟨y :: ys, ?_, .cons hy hys⟩
      rw [List.mapM_cons, first, others]
      rfl

end Except
