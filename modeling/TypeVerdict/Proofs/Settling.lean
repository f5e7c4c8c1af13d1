import TypeVerdict.Proofs.Calls
import TypeVerdict.Proofs.Obliging

/-!
# The marker loop comes to rest

A piece of output is appended to the buffer, and then the buffer is asked again and
again what it calls for until it calls for nothing.  `Settles` is this loop without
the session around it: a flag and a buffer, what happens, and the flag and buffer at
rest.  It is inductive, so a derivation is a loop that ends.

The session's own loop is bounded by a number of rounds.  It does exactly what
`Settles` says as soon as that number exceeds the number of happenings, provided
that listeners and collector are obliging.

## Main definitions

* `Happening`: what acting on a marker comes to
* `Settles`: a buffer comes to rest
* `Session.Recounts`: how happenings show in the course of a session
* `Session.feedEach`: pieces of output one after the other
* `SettlesEach`: the same without the session around it

## Main statements

* `Session.exec_drain`, `Session.exec_feed`, `Session.exec_feedEach`: the session
  does what `Settles` says, and calls its listeners
-/

namespace TypeVerdict

/-- What acting on a marker comes to: a pass is announced, or the text of one is
complete. -/
inductive Happening where
  | rerun
  | pass (output : List Char)
deriving DecidableEq, Repr

/-- The text that a happening takes off the buffer. -/
def Happening.text : Happening → List Char
  | rerun => []
  | pass output => output

/-- **A buffer comes to rest.**  `Settles markers flag buffer happenings flag'
buffer'`: acting on the markers of `buffer`, with `flag` saying whether an
announcement has been acted on already, comes to `happenings` and leaves `flag'` and
`buffer'`, which call for nothing more. -/
inductive Settles (markers : Markers) :
    Bool → List Char → List Happening → Bool → List Char → Prop where
  /-- No marker is left to act on. -/
  | wait {flag : Bool} {buffer : List Char} (h : Segment.next markers flag buffer = .wait) :
      Settles markers flag buffer [] flag buffer
  /-- An announcement is acted on, and the buffer is asked again. -/
  | rerun {flag flag' : Bool} {buffer buffer' : List Char} {more : List Happening}
      (h : Segment.next markers flag buffer = .rerun)
      (rest : Settles markers true buffer more flag' buffer') :
      Settles markers flag buffer (.rerun :: more) flag' buffer'
  /-- The text of a pass is taken off, and the rest of the buffer is asked. -/
  | pass {flag flag' : Bool} {buffer output left buffer' : List Char} {more : List Happening}
      (h : Segment.next markers flag buffer = .pass output left)
      (rest : Settles markers false left more flag' buffer') :
      Settles markers flag buffer (.pass output :: more) flag' buffer'

namespace Settles

variable {markers : Markers} {flag flag' : Bool} {buffer buffer' : List Char}
  {happenings : List Happening}

/-- What is at rest calls for nothing. -/
theorem next_eq_wait (h : Settles markers flag buffer happenings flag' buffer') :
    Segment.next markers flag' buffer' = .wait := by
  induction h with
  | wait h => exact h
  | rerun _ _ ih => exact ih
  | pass _ _ ih => exact ih

end Settles

/-- Pieces of output one after the other: each is appended to what the piece before
left in the buffer. -/
inductive SettlesEach (markers : Markers) :
    Bool → List Char → List (List Char) → List Happening → Bool → List Char → Prop where
  | nil {flag : Bool} {buffer : List Char} :
      SettlesEach markers flag buffer [] [] flag buffer
  | cons {flag flag₁ flag' : Bool} {buffer buffer₁ buffer' piece : List Char}
      {pieces : List (List Char)} {happenings more : List Happening}
      (here : Settles markers flag (buffer ++ piece) happenings flag₁ buffer₁)
      (rest : SettlesEach markers flag₁ buffer₁ pieces more flag' buffer') :
      SettlesEach markers flag buffer (piece :: pieces) (happenings ++ more) flag' buffer'

namespace Session

/-! ### Happenings in a session -/

/-- How happenings show in the course of a session.  An announcement is one notice.
A pass is its text, taken up as a whole, and then one notice with the snapshot made
of it. -/
inductive Recounts : List Happening → List Milestone → Prop where
  | nil : Recounts [] []
  | rerun {happenings : List Happening} {course : List Milestone}
      (rest : Recounts happenings course) :
      Recounts (.rerun :: happenings) (.told .rerun :: course)
  | pass {happenings : List Happening} {course : List Milestone} (output : List Char)
      (snapshot : Snapshot) (rest : Recounts happenings course) :
      Recounts (.pass output :: happenings)
        (.completed output :: .told (.published snapshot) :: course)

theorem Recounts.append {happenings happenings' : List Happening}
    {course course' : List Milestone} (h : Recounts happenings course)
    (h' : Recounts happenings' course') :
    Recounts (happenings ++ happenings') (course ++ course') := by
  induction h with
  | nil => exact h'
  | rerun _ ih => exact .rerun ih
  | pass output snapshot _ ih => exact .pass output snapshot ih

/-- Where the marker loop leads a session: the happenings are added to its course, and
whoever listens for their notices is called; the flag and the buffer are the given ones,
and the session goes on as before. -/
structure Settled (w : World) (happenings : List Happening) (flag : Bool)
    (buffer : List Char) (w' : World) : Prop where
  course : ∃ added, w'.course = w.course ++ added ∧ Recounts happenings added ∧
    calls w'.log = calls w.log ++ added.flatMap (Milestone.calls w.session.listeners)
  listeners : w'.session.listeners = w.session.listeners
  rerunSeen : w'.session.rerunSeen = flag
  buffer : w'.session.buffer = buffer
  options : w'.session.options = w.session.options
  ready : w'.session.Ready

theorem Settled.trans {u v w : World} {happenings more : List Happening} {flag flag' : Bool}
    {buffer buffer' : List Char} (h₁ : Settled u happenings flag buffer v)
    (h₂ : Settled v more flag' buffer' w) :
    Settled u (happenings ++ more) flag' buffer' w where
  course := by
    obtain ⟨added₁, course₁, recounts₁, called₁⟩ := h₁.course
    obtain ⟨added₂, course₂, recounts₂, called₂⟩ := h₂.course
    refine ⟨added₁ ++ added₂, ?_, recounts₁.append recounts₂, ?_⟩
    · rw [course₂, course₁, List.append_assoc]
    · rw [called₂, called₁, h₁.listeners, List.flatMap_append, List.append_assoc]
  listeners := h₂.listeners.trans h₁.listeners
  rerunSeen := h₂.rerunSeen
  buffer := h₂.buffer
  options := h₂.options.trans h₁.options
  ready := h₂.ready

variable {host : Host} {w : World}

/-- An announcement that is acted on. -/
theorem exec_beginRerun (obliging : host.Obliging) (ready : w.session.Ready) :
    ∃ w', exec (beginRerun host) w = (.ok (), w') ∧
      Settled w [.rerun] true w.session.buffer w' := by
  obtain ⟨w', run, disturbed, isOpen⟩ := reaches_beginRerun obliging ready.isOpen
  have ready' : w.announced.session.Ready := ⟨ready.isOpen, ready.named, by
    intro table known
    cases known⟩
  have course : w'.course = w.course ++ [.told .rerun] := (disturbed.calm isOpen).2
  have begun : Run w (exec (beginRerun host) w).2 := .beginRerun ready.isOpen
  rw [run] at begun
  have voiced := Voiced.of_run begun
  refine ⟨w', run, ⟨[.told .rerun], course, .rerun .nil, voiced.calls_eq course⟩,
    voiced.listeners, ?_, ?_, ?_, ready'.of_disturbed disturbed isOpen⟩
  all_goals
    rw [disturbed.frame]
    rfl

/-- A pass that is completed. -/
theorem exec_finishPass (obliging : host.Obliging) (ready : w.session.Ready)
    (output : List Char) :
    ∃ w', exec (finishPass host output) w = (.ok (), w') ∧
      Settled w [.pass output] w.session.rerunSeen w.session.buffer w' := by
  obtain ⟨table, snapshot, ⟨w', run, disturbed, isOpen⟩, proper⟩ :=
    reaches_finishPass obliging ready output
  have ready' : (w.published output table snapshot).session.Ready :=
    ⟨ready.isOpen, ready.named, by
      intro known hknown
      cases hknown
      exact proper⟩
  have course : w'.course = w.course ++ [.completed output, .told (.published snapshot)] :=
    (disturbed.calm isOpen).2
  have voiced : Voiced w w' := .of_run ((Run.finishPass output).of_exec run)
  refine ⟨w', run, ⟨[.completed output, .told (.published snapshot)], course,
    .pass output snapshot .nil, voiced.calls_eq course⟩, voiced.listeners, ?_, ?_, ?_,
    ready'.of_disturbed disturbed isOpen⟩
  all_goals
    rw [disturbed.frame]
    rfl

/-- A round of the loop that acts on an announcement. -/
theorem exec_drain_rerun (obliging : host.Obliging) (ready : w.session.Ready)
    (next : Segment.next w.session.options.markers w.session.rerunSeen w.session.buffer =
      .rerun) (rounds : Nat) :
    ∃ w', exec (drain host (rounds + 1)) w = exec (drain host rounds) w' ∧
      Settled w [.rerun] true w.session.buffer w' := by
  obtain ⟨w', run, settled⟩ := exec_beginRerun obliging ready
  refine ⟨w', ?_, settled⟩
  rw [drain, exec_bind_ok (exec_current w), if_neg ready.isOpen, next]
  exact exec_bind_ok run _

/-- A round of the loop that completes a pass. -/
theorem exec_drain_pass (obliging : host.Obliging) (ready : w.session.Ready)
    {output left : List Char}
    (next : Segment.next w.session.options.markers w.session.rerunSeen w.session.buffer =
      .pass output left) (rounds : Nat) :
    ∃ w', exec (drain host (rounds + 1)) w = exec (drain host rounds) w' ∧
      Settled w [.pass output] false left w' := by
  obtain ⟨w', run, settled⟩ := exec_finishPass obliging
    (w := { w with session := { w.session with buffer := left, rerunSeen := false } })
    ⟨ready.isOpen, ready.named, ready.proper⟩ output
  refine ⟨w', ?_, ⟨settled.course, settled.listeners, settled.rerunSeen, settled.buffer,
    settled.options, settled.ready⟩⟩
  rw [drain, exec_bind_ok (exec_current w), if_neg ready.isOpen, next]
  exact (exec_bind_ok (exec_update _ w) _).trans (exec_bind_ok run _)

/-- **The session's loop does what `Settles` says**, if it has one round more than
there are happenings. -/
theorem exec_drain (obliging : host.Obliging) {markers : Markers} {flag flag' : Bool}
    {buffer buffer' : List Char} {happenings : List Happening}
    (h : Settles markers flag buffer happenings flag' buffer') {rounds : Nat}
    (enough : happenings.length < rounds) (ready : w.session.Ready)
    (hmarkers : w.session.options.markers = markers) (hflag : w.session.rerunSeen = flag)
    (hbuffer : w.session.buffer = buffer) :
    ∃ w', exec (drain host rounds) w = (.ok (), w') ∧
      Settled w happenings flag' buffer' w' := by
  -- one case for each way a round can go; the rounds left go down with the happenings
  induction h generalizing w rounds with
  | wait next =>
      obtain ⟨rounds, rfl⟩ : ∃ n, rounds = n + 1 := ⟨rounds - 1, by omega⟩
      refine ⟨w, ?_, ⟨[], by simp, .nil, by simp⟩, rfl, hflag, hbuffer, rfl, ready⟩
      rw [drain, exec_bind_ok (exec_current w), if_neg ready.isOpen, hmarkers, hflag, hbuffer,
        next]
      rfl
  | rerun next _ ih =>
      obtain ⟨rounds, rfl⟩ : ∃ n, rounds = n + 1 := ⟨rounds - 1, by omega⟩
      subst hmarkers hflag hbuffer
      obtain ⟨w₁, round, settled₁⟩ := exec_drain_rerun obliging ready next rounds
      obtain ⟨w₂, run₂, settled₂⟩ := ih (by simpa using enough) settled₁.ready
        (by rw [settled₁.options]) settled₁.rerunSeen settled₁.buffer
      exact ⟨w₂, round.trans run₂, settled₁.trans settled₂⟩
  | pass next _ ih =>
      obtain ⟨rounds, rfl⟩ : ∃ n, rounds = n + 1 := ⟨rounds - 1, by omega⟩
      subst hmarkers hflag hbuffer
      obtain ⟨w₁, round, settled₁⟩ := exec_drain_pass obliging ready next rounds
      obtain ⟨w₂, run₂, settled₂⟩ := ih (by simpa using enough) settled₁.ready
        (by rw [settled₁.options]) settled₁.rerunSeen settled₁.buffer
      exact ⟨w₂, round.trans run₂, settled₁.trans settled₂⟩

/-- A piece of output is appended to the buffer, which then comes to rest. -/
theorem exec_feed (obliging : host.Obliging) {flag' : Bool} {buffer' piece : List Char}
    {happenings : List Happening}
    (h : Settles w.session.options.markers w.session.rerunSeen (w.session.buffer ++ piece)
      happenings flag' buffer') {rounds : Nat}
    (enough : happenings.length < rounds) (ready : w.session.Ready) :
    ∃ w', exec (feed host rounds piece) w = (.ok (), w') ∧
      Settled w happenings flag' buffer' w' := by
  obtain ⟨w', run, settled⟩ := exec_drain obliging
    (w := { w with session := { w.session with buffer := w.session.buffer ++ piece } })
    h enough ⟨ready.isOpen, ready.named, ready.proper⟩ rfl rfl rfl
  refine ⟨w', ?_, ⟨settled.course, settled.listeners, settled.rerunSeen, settled.buffer,
    settled.options, settled.ready⟩⟩
  rw [feed, exec_bind_ok (exec_update _ w)]
  exact run

/-- Pieces of output, one after the other. -/
def feedEach (host : Host) (rounds : Nat) : List (List Char) → Act Unit
  | [] => return
  | piece :: pieces => do
    feed host rounds piece
    feedEach host rounds pieces

theorem exec_feedEach_singleton (rounds : Nat) (piece : List Char) :
    exec (feedEach host rounds [piece]) w = exec (feed host rounds piece) w := by
  rw [feedEach, exec_bind]
  rcases exec (feed host rounds piece) w with ⟨r, w'⟩
  cases r <;> rfl

theorem exec_feedEach (obliging : host.Obliging) {flag' : Bool} {buffer' : List Char}
    {pieces : List (List Char)} {happenings : List Happening}
    (h : SettlesEach w.session.options.markers w.session.rerunSeen w.session.buffer pieces
      happenings flag' buffer') {rounds : Nat}
    (enough : happenings.length < rounds) (ready : w.session.Ready) :
    ∃ w', exec (feedEach host rounds pieces) w = (.ok (), w') ∧
      Settled w happenings flag' buffer' w' := by
  generalize hmarkers : w.session.options.markers = markers at h
  generalize hflag : w.session.rerunSeen = flag at h
  generalize hbuffer : w.session.buffer = buffer at h
  induction h generalizing w with
  | nil => exact ⟨w, rfl, ⟨[], by simp, .nil, by simp⟩, rfl, hflag, hbuffer, rfl, ready⟩
  | @cons _ _ _ _ _ _ _ _ happenings more here _ ih =>
      rw [List.length_append] at enough
      -- every piece is given all the rounds anew
      have enough₁ : happenings.length < rounds := by omega
      have enough₂ : more.length < rounds := by omega
      subst hmarkers hflag hbuffer
      obtain ⟨w₁, run₁, settled₁⟩ := exec_feed obliging here enough₁ ready
      obtain ⟨w₂, run₂, settled₂⟩ := ih enough₂ settled₁.ready
        (by rw [settled₁.options]) settled₁.rerunSeen settled₁.buffer
      exact ⟨w₂, (exec_bind_ok run₁ _).trans run₂, settled₁.trans settled₂⟩

end Session

end TypeVerdict
