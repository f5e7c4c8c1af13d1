import TypeVerdict.Session.Lifecycle

/-!
# Running an action

An action of a session is run from a world to a result and another world, and on the way it
waits in some worlds.  `exec a w` is the outcome of running `a` from `w`, and there is one
equation for every way to build an action.  With them a run is computed as far as the
surroundings' answers are known.  Where it waits has equations of the same kind.

What does not depend on the answers is a relation between worlds.  One that is reflexive and
transitive holds along a run if it holds of each elementary action.

## Main definitions

* `Session.exec`: the outcome of an action
* `Session.Preorderly`: relations that hold along a run if they hold at each step

## Main statements

* `exec_bind_ok`, `exec_bind_error`: one action after another
* `waits_bind_ok`, `waits_bind_error`: where they wait
-/

namespace TypeVerdict.Session

variable {α β : Type}

/-- The outcome of an action: its result or interruption, and the world it leaves
behind. -/
def exec (a : Act α) (w : World) : Except Interruption α × World := a.run w

/-! ### Equations -/

@[simp] theorem exec_pure (x : α) (w : World) : exec (pure x) w = (.ok x, w) := rfl

theorem exec_andThen (a : Act α) (next : Except Interruption α → Act β) (w : World) :
    exec (a.andThen next) w = exec (next (exec a w).1) (exec a w).2 := rfl

theorem waits_andThen (a : Act α) (next : Except Interruption α → Act β) (w : World) :
    (a.andThen next).waits w = a.waits w ++ (next (exec a w).1).waits (exec a w).2 := rfl

/-- What follows an action runs from where the action ended, unless it was
interrupted. -/
theorem exec_bind (a : Act α) (f : α → Act β) (w : World) :
    exec (a >>= f) w = match exec a w with
      | (.ok x, w') => exec (f x) w'
      | (.error e, w') => (.error e, w') := by
  show exec (a.andThen _) w = _
  rw [exec_andThen]
  rcases exec a w with ⟨r, w'⟩
  cases r <;> rfl

theorem exec_bind_ok {a : Act α} {w w' : World} {x : α} (h : exec a w = (.ok x, w'))
    (f : α → Act β) : exec (a >>= f) w = exec (f x) w' := by
  rw [exec_bind, h]

theorem exec_bind_error {a : Act α} {w w' : World} {e : Interruption}
    (h : exec a w = (.error e, w')) (f : α → Act β) :
    exec (a >>= f) w = (.error e, w') := by
  rw [exec_bind, h]

/-- A composed action waits where its first half does and then, unless it was interrupted, where
its second half does. -/
theorem waits_bind_ok {a : Act α} {w w' : World} {x : α} (h : exec a w = (.ok x, w'))
    (f : α → Act β) : (a >>= f).waits w = a.waits w ++ (f x).waits w' := by
  show (a.andThen _).waits w = _
  rw [waits_andThen, h]

theorem waits_bind_error {a : Act α} {w w' : World} {e : Interruption}
    (h : exec a w = (.error e, w')) (f : α → Act β) : (a >>= f).waits w = a.waits w := by
  show (a.andThen _).waits w = _
  rw [waits_andThen, h]
  exact List.append_nil _

instance : LawfulMonad Act := LawfulMonad.mk' _
  (fun a => by
    show (a >>= fun x => pure (id x)) = a
    ext1 <;> funext w <;> rcases run : exec a w with ⟨e | x, v⟩
    · exact (exec_bind_error run _).trans run.symm
    · exact (exec_bind_ok run _).trans run.symm
    · exact waits_bind_error run _
    · exact (waits_bind_ok run _).trans (List.append_nil _))
  (fun x f => rfl)
  fun a f g => by
    ext1 <;> funext w <;> rcases run : exec a w with ⟨e | x, v⟩
    · show exec _ w = exec _ w
      rw [exec_bind_error run, exec_bind_error (exec_bind_error run f)]
    · show exec _ w = exec _ w
      rw [exec_bind_ok run, exec_bind, exec_bind_ok run, ← exec_bind]
    · rw [waits_bind_error run, waits_bind_error (exec_bind_error run f), waits_bind_error run]
    · rcases more : exec (f x) v with ⟨e | y, v'⟩
      · rw [waits_bind_ok run, waits_bind_error more,
          waits_bind_error ((exec_bind_ok run f).trans more), waits_bind_ok run]
      · rw [waits_bind_ok run, waits_bind_ok more,
          waits_bind_ok ((exec_bind_ok run f).trans more), waits_bind_ok run, List.append_assoc]

/-- A composed action succeeds only if both of its halves do. -/
theorem exec_bind_eq_ok {a : Act α} {f : α → Act β} {w w'' : World} {y : β}
    (h : exec (a >>= f) w = (.ok y, w'')) :
    ∃ x w', exec a w = (.ok x, w') ∧ exec (f x) w' = (.ok y, w'') := by
  rcases run : exec a w with ⟨e | x, w'⟩
  · rw [exec_bind_error run] at h
    cases h
  · rw [exec_bind_ok run] at h
    exact ⟨x, w', rfl, h⟩

@[simp] theorem exec_current (w : World) : exec current w = (.ok w.session, w) := rfl

@[simp] theorem exec_history (w : World) : exec history w = (.ok w.log, w) := rfl

@[simp] theorem exec_update (change : Session → Session) (w : World) :
    exec (update change) w = (.ok (), { w with session := change w.session }) := rfl

@[simp] theorem exec_record (e : Event) (w : World) :
    exec (record e) w = (.ok (), { w with log := w.log ++ [e] }) := rfl

@[simp] theorem exec_pause (w : World) : exec pause w = (.ok (), w) := rfl

@[simp] theorem exec_reach (m : Milestone) (w : World) :
    exec (reach m) w = (.ok (), { w with course := w.course ++ [m] }) := rfl

/-- The world after a session entered a phase. -/
def World.entering (w : World) (phase : Phase) : World where
  session := { w.session with phase }
  log := w.log
  course := w.course ++ [.entered phase]

/-- The world in which a session has collected a table. -/
def World.knowing (w : World) (table : DefinitionTable) : World :=
  { w with session := { w.session with table? := some table } }

@[simp] theorem exec_enter (phase : Phase) (w : World) :
    exec (enter phase) w = (.ok (), w.entering phase) := rfl

@[simp] theorem exec_throw (e : Interruption) (w : World) :
    exec (throw e : Act α) w = (.error e, w) := rfl

@[simp] theorem exec_failWith (cause : Failure) (w : World) :
    exec (failWith cause : Act α) w = (.error (.failure cause), w) := rfl

@[simp] theorem exec_ofExcept (r : Except Interruption α) (w : World) :
    exec (MonadExcept.ofExcept r : Act α) w = (r, w) := by
  cases r <;> rfl

@[simp] theorem exec_attempt (a : Act α) (w : World) :
    exec (attempt a) w = (.ok (exec a w).1, (exec a w).2) := rfl

/-- An action that is followed by another whatever it does leaves the world where the
other leaves it. -/
theorem snd_exec_thenAlways (a b : Act Unit) (w : World) :
    (exec (thenAlways a b) w).2 = (exec b (exec a w).2).2 := by
  rw [thenAlways, exec_bind_ok (exec_attempt a w)]
  rcases run : exec b (exec a w).2 with ⟨e | _, v⟩
  · rw [exec_bind_error run]
  · rw [exec_bind_ok run, exec_ofExcept]

/-! ### Waits -/

@[simp] theorem waits_pure (x : α) (w : World) : (pure x : Act α).waits w = [] := rfl

@[simp] theorem waits_current (w : World) : current.waits w = [] := rfl

@[simp] theorem waits_history (w : World) : history.waits w = [] := rfl

@[simp] theorem waits_update (change : Session → Session) (w : World) :
    (update change).waits w = [] := rfl

@[simp] theorem waits_record (e : Event) (w : World) : (record e).waits w = [] := rfl

@[simp] theorem waits_reach (m : Milestone) (w : World) : (reach m).waits w = [] := rfl

@[simp] theorem waits_pause (w : World) : pause.waits w = [w] := rfl

@[simp] theorem waits_enter (phase : Phase) (w : World) : (enter phase).waits w = [] := rfl

@[simp] theorem waits_failWith (cause : Failure) (w : World) :
    (failWith cause : Act α).waits w = [] := rfl

@[simp] theorem waits_attempt (a : Act α) (w : World) : (attempt a).waits w = a.waits w :=
  List.append_nil _

/-! ### Relations -/

/-- Relations between worlds that hold along a run if they hold at each step of
it. -/
class Preorderly (R : World → World → Prop) : Prop where
  refl : ∀ w, R w w
  trans : ∀ {u v w}, R u v → R v w → R u w

/-- What holds of a world goes on to hold. -/
def Preserves (P : World → Prop) (u v : World) : Prop := P u → P v

instance {P : World → Prop} : Preorderly (Preserves P) where
  refl _ := id
  trans h₁ h₂ := h₂ ∘ h₁

end TypeVerdict.Session
