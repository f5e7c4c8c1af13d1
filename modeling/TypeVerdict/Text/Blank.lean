import TypeVerdict.Text.Ranges

/-!
# Blank characters

The whitespace of the checker's output: the characters with the Unicode property `White_Space`
and the four information separators U+001C to U+001F.  Zero-width characters (U+200B, U+FEFF) are
not blank.

## Main definitions

* `isBlank`: whether a character is whitespace
* `strip`: a text without the blanks at its two ends
* `isBlankText`: whether nothing is left after stripping

## Main statements

* `strip_eq_self_iff`: which texts stripping leaves as they are
-/

namespace TypeVerdict.Text

/-- The blank characters above U+007F. -/
def blankRanges : Ranges where
  bounds := [(133, 133), (160, 160), (5760, 5760), (8192, 8202), (8232, 8233), (8239, 8239),
    (8287, 8287), (12288, 12288)]

/-- Whether a character is whitespace. -/
def isBlank (c : Char) : Bool :=
  let n := c.toNat
  if n < 128 then (9 ≤ n && n ≤ 13) || (28 ≤ n && n ≤ 32) else blankRanges.contains n

/-- A text without the blanks at its start. -/
def stripStart (s : List Char) : List Char := s.dropWhile isBlank

/-- A text without the blanks at its end. -/
def stripEnd (s : List Char) : List Char := (s.reverse.dropWhile isBlank).reverse

/-- A text without the blanks at its two ends. -/
def strip (s : List Char) : List Char := stripEnd (stripStart s)

/-- Whether a text holds blanks only. -/
def isBlankText (s : List Char) : Bool := s.all isBlank

/-- A text without the blanks at its start begins with none. -/
theorem isBlank_of_head?_stripStart {s : List Char} {c : Char} (h : (stripStart s).head? = some c) :
    isBlank c = false := by
  have first := List.head?_dropWhile_not isBlank s
  rw [← stripStart, h] at first
  exact first

theorem stripStart_eq_self {s : List Char} (h : ∀ c ∈ s.head?, isBlank c = false) :
    stripStart s = s := by
  cases s with
  | nil => rfl
  | cons c r => simp [stripStart, h c rfl]

theorem stripEnd_eq_reverse (s : List Char) : stripEnd s = (stripStart s.reverse).reverse := rfl

/-- What is left begins as what is left after stripping the start. -/
theorem isBlank_of_head?_strip {s : List Char} {c : Char} (h : (strip s).head? = some c) :
    isBlank c = false := by
  have prefixed : strip s <+: stripStart s := by
    rw [strip, stripEnd_eq_reverse, ← List.reverse_suffix, List.reverse_reverse]
    exact List.dropWhile_suffix isBlank
  obtain ⟨r, hr⟩ := prefixed
  apply isBlank_of_head?_stripStart (s := s)
  rw [← hr, List.head?_append, h]
  rfl

theorem isBlank_of_getLast?_strip {s : List Char} {c : Char} (h : (strip s).getLast? = some c) :
    isBlank c = false := by
  rw [strip, stripEnd_eq_reverse, List.getLast?_reverse] at h
  exact isBlank_of_head?_stripStart h

/-- **Stripping leaves a text as it is** if it neither begins nor ends with a blank. -/
theorem strip_eq_self_iff {s : List Char} :
    strip s = s ↔ (∀ c ∈ s.head?, isBlank c = false) ∧ ∀ c ∈ s.getLast?, isBlank c = false := by
  constructor
  · intro h
    rw [← h]
    exact ⟨fun _ => isBlank_of_head?_strip, fun _ => isBlank_of_getLast?_strip⟩
  · rintro ⟨first, last⟩
    rw [strip, stripStart_eq_self first, stripEnd_eq_reverse, stripStart_eq_self,
      List.reverse_reverse]
    rwa [List.head?_reverse]

/-- A stripped text has nothing to strip. -/
theorem strip_strip (s : List Char) : strip (strip s) = strip s :=
  strip_eq_self_iff.mpr ⟨fun _ => isBlank_of_head?_strip, fun _ => isBlank_of_getLast?_strip⟩

end TypeVerdict.Text
