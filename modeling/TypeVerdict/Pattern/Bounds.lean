import TypeVerdict.Pattern.Match

/-!
# Where a match lies

A matcher only ever moves to the right and never past the end of its text.  Both
facts are about every pattern, so they are proved by induction on patterns: a
continuation that moves so still does behind a pattern.

## Main definitions

* `Pattern.Cursor.extent`: the length of the whole text, as a place in it shows it
* `Pattern.Cursor.Leads`: from one place of a text to another that is not before it
* `Pattern.Confined`: a continuation that only leads on in the text

## Main statements

* `Pattern.find_bounds`: a match lies behind the offset and inside the text
-/

namespace TypeVerdict.Pattern

/-- The length of the whole text, as a place in it shows it: what is before it and
what is behind it. -/
def Cursor.extent (c : Cursor) : Nat := c.offset + c.rest.length

/-- Another place of the same text, which is not before the first. -/
structure Cursor.Leads (c d : Cursor) : Prop where
  extent : d.extent = c.extent
  offset_le : c.offset ≤ d.offset

theorem Cursor.Leads.refl (c : Cursor) : c.Leads c := ⟨rfl, Nat.le_refl _⟩

theorem Cursor.Leads.trans {c d e : Cursor} (h₁ : c.Leads d) (h₂ : d.Leads e) : c.Leads e :=
  ⟨h₂.extent.trans h₁.extent, Nat.le_trans h₁.offset_le h₂.offset_le⟩

/-- Taking a character leads on by one. -/
theorem Cursor.leads_next {c : Cursor} {x : Char} {r : List Char} (h : c.rest = x :: r)
    (before? : Option Char) : c.Leads ⟨c.offset + 1, before?, r⟩ where
  extent := by
    simp only [extent, h, List.length_cons]
    omega
  offset_le := Nat.le_succ _

/-- A continuation that only leads on in the text. -/
def Confined (k : Next) : Prop := ∀ {c d : Cursor}, k c = some d → c.Leads d

theorem confined_some : Confined some := by
  intro c d h
  cases h
  exact .refl c

variable {k : Next}

/-! ### Repetitions -/

section Repetitions

variable {body : Next → Next} (hbody : ∀ {k}, Confined k → Confined (body k))
include hbody

theorem confined_rounds (hk : Confined k) (n : Nat) : Confined (rounds body n k) := by
  induction n with
  | zero => exact hk
  | succ n ih => exact hbody ih

theorem confined_mostRounds (hk : Confined k) (n : Nat) (left? last? : Option Nat) :
    Confined (mostRounds body k n left? last?) := by
  induction n generalizing left? last? with
  | zero => exact hk
  | succ n ih =>
      intro c d h
      rw [mostRounds, Option.orElse_eq_orElse, Option.orElse_eq_or, Option.or_eq_some_iff] at h
      rcases h with h | ⟨-, h⟩
      · split at h
        · exact hbody (ih _ _) h
        · cases h
      · exact hk h

theorem confined_leastRounds (hk : Confined k) (n : Nat) (left? last? : Option Nat) :
    Confined (leastRounds body k n left? last?) := by
  induction n generalizing left? last? with
  | zero => exact hk
  | succ n ih =>
      intro c d h
      rw [leastRounds, Option.orElse_eq_orElse, Option.orElse_eq_or, Option.or_eq_some_iff] at h
      rcases h with h | ⟨-, h⟩
      · exact hk h
      · split at h
        · exact hbody (ih _ _) h
        · cases h

end Repetitions

section Possessive

variable {round : Next} (hround : Confined round)
include hround

theorem confined_fixedRounds (n : Nat) : Confined (fixedRounds round n) := by
  induction n with
  | zero => exact confined_some
  | succ n ih =>
      intro c d h
      obtain ⟨e, he, h⟩ := Option.bind_eq_some_iff.mp h
      exact (hround he).trans (ih h)

theorem leads_furthest (n : Nat) (left? last? : Option Nat) (c : Cursor) :
    c.Leads (furthest round n left? last? c) := by
  induction n generalizing left? last? c with
  | zero => exact .refl c
  | succ n ih =>
      rw [furthest]
      split
      · split
        · next d hd => exact (hround hd).trans (ih _ _ d)
        · exact .refl c
      · exact .refl c

end Possessive

/-! ### Patterns -/

/-- **A pattern only leads on in the text** whenever what follows it does. -/
theorem confined_run (p : Pattern) (hk : Confined k) : Confined (run p k) := by
  induction p generalizing k with
  | empty => exact hk
  | one cls =>
      intro c d h
      rw [run] at h
      split at h
      · cases h
      · next x r hrest =>
          split at h
          · exact (Cursor.leads_next hrest _).trans (hk h)
          · cases h
  | anchor a =>
      intro c d h
      rw [run] at h
      split at h
      · exact hk h
      · cases h
  | seq p q ihp ihq => exact ihp (ihq hk)
  | alt p q ihp ihq =>
      intro c d h
      rw [run, Option.orElse_eq_orElse, Option.orElse_eq_or, Option.or_eq_some_iff] at h
      rcases h with h | ⟨-, h⟩
      · exact ihp hk h
      · exact ihq hk h
  | group p ih => exact ih hk
  | atomic p ih =>
      intro c d h
      obtain ⟨e, he, h⟩ := Option.bind_eq_some_iff.mp h
      exact (ih confined_some he).trans (hk h)
  | look negated p ih =>
      intro c d h
      rw [run] at h
      split at h
      · exact hk h
      · cases h
  | repeated greed min max? p ih =>
      intro c d h
      cases greed with
      | greedy =>
          exact confined_rounds (fun hk => ih hk)
            (fun {c d} h => confined_mostRounds (fun hk => ih hk) hk _ _ _ h) min h
      | lazy =>
          exact confined_rounds (fun hk => ih hk)
            (fun {c d} h => confined_leastRounds (fun hk => ih hk) hk _ _ _ h) min h
      | possessive =>
          obtain ⟨e, he, h⟩ := Option.bind_eq_some_iff.mp h
          have round : Confined (run p some) := ih confined_some
          have fixed := confined_fixedRounds round min he
          exact (fixed.trans (leads_furthest round _ _ _ e)).trans (hk h)

/-! ### Searching -/

/-- The leftmost match begins at or behind the place where the search began, does not end
before it begins, and ends inside the text. -/
theorem search_bounds (p : Pattern) {offset : Nat} {before? : Option Char} {s : List Char}
    {start stop : Nat} (h : search p offset before? s = some (start, stop)) :
    offset ≤ start ∧ start ≤ stop ∧ stop ≤ offset + s.length := by
  induction s generalizing offset before? with
  | nil =>
      obtain ⟨c, hc, he⟩ := Option.map_eq_some_iff.mp h
      cases he
      have leads := confined_run p confined_some hc
      have extent := leads.extent
      simp only [Cursor.extent, List.length_nil] at extent
      exact ⟨Nat.le_refl _, leads.offset_le, by simp; omega⟩
  | cons x r ih =>
      rw [search] at h
      split at h
      · next c hc =>
          cases h
          have leads := confined_run p confined_some hc
          have extent := leads.extent
          simp only [Cursor.extent] at extent
          exact ⟨Nat.le_refl _, leads.offset_le, by omega⟩
      · obtain ⟨h₁, h₂, h₃⟩ := ih h
        rw [List.length_cons]
        exact ⟨by omega, h₂, by omega⟩

/-- **A match lies behind the offset and inside the text**, and it does not end before it
begins. -/
theorem find_bounds (p : Pattern) {s : List Char} {offset start stop : Nat}
    (h : p.find s offset = some (start, stop)) :
    min offset s.length ≤ start ∧ start ≤ stop ∧ stop ≤ s.length := by
  obtain ⟨h₁, h₂, h₃⟩ := search_bounds p h
  rw [List.length_drop] at h₃
  exact ⟨h₁, h₂, by omega⟩

end TypeVerdict.Pattern
