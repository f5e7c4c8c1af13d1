/-!
# Splitting text

Cutting a text at a separator, and the line breaks of a checker's output and of source files.

## Main definitions

* `splitAt`: the pieces between the occurrences of a character
* `splitLines`: the lines of a text that may end in `\n` or `\r\n`
* `joinWith`: pieces put together with a separator
* `normalizeBreaks`: every line break written as `\n`
* `stripPrefix?`: the rest of a text after a given beginning

## Main statements

* `joinWith_splitAt`: cutting loses nothing
* `splitAt_joinWith`: pieces without a separator are what they are cut into again
* `splitAt_append_cons`: a piece comes before the separator that ends it
* `splitLines_append_cons`: a line comes before the line feed that ends it
-/

namespace TypeVerdict.Text

/-- The pieces of a text between the occurrences of a separator; one more than there are of them. -/
def splitAt (sep : Char) : List Char → List (List Char)
  | [] => [[]]
  | c :: r =>
    if c = sep then [] :: splitAt sep r
    else match splitAt sep r with
      | [] => [[c]]
      | piece :: more => (c :: piece) :: more

/-- Pieces put together with a separator between neighbours. -/
def joinWith (sep : List Char) : List (List Char) → List Char
  | [] => []
  | [piece] => piece
  | piece :: next :: more => piece ++ sep ++ joinWith sep (next :: more)

theorem splitAt_ne_nil (sep : Char) (s : List Char) : splitAt sep s ≠ [] := by
  cases s with
  | nil => simp [splitAt]
  | cons c r => grind [splitAt]

/-- Cutting a text at a separator loses nothing. -/
theorem joinWith_splitAt (sep : Char) (s : List Char) : joinWith [sep] (splitAt sep s) = s := by
  induction s with
  | nil => rfl
  | cons c r ih =>
    by_cases h : c = sep
    · obtain ⟨p, ps, hp⟩ := List.exists_cons_of_ne_nil (splitAt_ne_nil sep r)
      simp [splitAt, h, hp, joinWith] at ih ⊢
      exact ih
    · obtain ⟨p, ps, hp⟩ := List.exists_cons_of_ne_nil (splitAt_ne_nil sep r)
      cases ps with
      | nil => simp [splitAt, h, hp, joinWith] at ih ⊢; exact ih
      | cons q qs => simp [splitAt, h, hp, joinWith] at ih ⊢; exact ih

/-- A text without a separator is one piece. -/
theorem splitAt_of_not_mem {sep : Char} {s : List Char} (h : sep ∉ s) : splitAt sep s = [s] := by
  induction s with
  | nil => rfl
  | cons c r ih =>
      obtain ⟨other, rest⟩ := not_or.mp (mt List.mem_cons.mpr h)
      rw [splitAt, if_neg (Ne.symm other), ih rest]

/-- A piece comes before the separator that ends it. -/
theorem splitAt_append_cons {sep : Char} {piece : List Char} (h : sep ∉ piece) (s : List Char) :
    splitAt sep (piece ++ sep :: s) = piece :: splitAt sep s := by
  induction piece with
  | nil => rw [List.nil_append, splitAt, if_pos rfl]
  | cons c r ih =>
      obtain ⟨other, rest⟩ := not_or.mp (mt List.mem_cons.mpr h)
      rw [List.cons_append, splitAt, if_neg (Ne.symm other), ih rest]

/-- The pieces of two texts with a separator between them. -/
theorem splitAt_append (sep : Char) (s t : List Char) :
    splitAt sep (s ++ sep :: t) = splitAt sep s ++ splitAt sep t := by
  induction s with
  | nil => simp [splitAt]
  | cons c s ih =>
      rw [List.cons_append, splitAt, splitAt, ih]
      split
      · rfl
      · obtain ⟨piece, more, cut⟩ := List.exists_cons_of_ne_nil (splitAt_ne_nil sep s)
        rw [cut]
        rfl

/-- Pieces without a separator are what they are cut into again. -/
theorem splitAt_joinWith {sep : Char} {pieces : List (List Char)} (nonempty : pieces ≠ [])
    (clear : ∀ piece ∈ pieces, sep ∉ piece) : splitAt sep (joinWith [sep] pieces) = pieces := by
  induction pieces with
  | nil => exact absurd rfl nonempty
  | cons piece more ih =>
      obtain ⟨first, others⟩ := List.forall_mem_cons.mp clear
      cases more with
      | nil => exact splitAt_of_not_mem first
      | cons next more =>
          show splitAt sep (piece ++ [sep] ++ joinWith [sep] (next :: more)) = _
          rw [List.append_assoc, List.singleton_append, splitAt_append_cons first,
            ih (List.cons_ne_nil next more) others]

/-- No piece has a separator. -/
theorem not_mem_of_mem_splitAt {sep : Char} {s piece : List Char} (h : piece ∈ splitAt sep s) :
    sep ∉ piece := by
  induction s generalizing piece with
  | nil =>
      cases List.mem_singleton.mp h
      exact List.not_mem_nil
  | cons c r ih =>
      rw [splitAt] at h
      split at h
      · rcases List.mem_cons.mp h with rfl | later
        · exact List.not_mem_nil
        · exact ih later
      · next other =>
          obtain ⟨first, more, cut⟩ := List.exists_cons_of_ne_nil (splitAt_ne_nil sep r)
          rw [cut] at h ih
          rcases List.mem_cons.mp h with rfl | later
          · intro mem
            rcases List.mem_cons.mp mem with same | mem
            · exact other same.symm
            · exact ih List.mem_cons_self mem
          · exact ih (List.mem_cons_of_mem _ later)

/-- A line without the carriage return that ends it. -/
def dropReturn (line : List Char) : List Char :=
  if line.getLast? = some '\r' then line.dropLast else line

/-- The carriage return before a line feed belongs to the break; that of the last line, which no
line feed follows, does not. -/
def dropReturns : List (List Char) → List (List Char)
  | [] => []
  | [line] => [line]
  | line :: next :: more => dropReturn line :: dropReturns (next :: more)

/-- The lines of a text; a line ends with `\n` or `\r\n`, and a lone `\r` belongs to its line. -/
def splitLines (s : List Char) : List (List Char) := dropReturns (splitAt '\n' s)

theorem dropReturn_append_return (line : List Char) : dropReturn (line ++ ['\r']) = line := by
  simp [dropReturn]

theorem dropReturn_eq_self {line : List Char} (h : line.getLast? ≠ some '\r') :
    dropReturn line = line := if_neg h

/-- A text without line feeds is one line. -/
theorem splitLines_of_not_mem {s : List Char} (h : '\n' ∉ s) : splitLines s = [s] := by
  rw [splitLines, splitAt_of_not_mem h, dropReturns]

/-- A line comes before the line feed that ends it, without the carriage return before that. -/
theorem splitLines_append_cons {line : List Char} (h : '\n' ∉ line) (s : List Char) :
    splitLines (line ++ '\n' :: s) = dropReturn line :: splitLines s := by
  obtain ⟨next, more, cut⟩ := List.exists_cons_of_ne_nil (splitAt_ne_nil '\n' s)
  rw [splitLines, splitAt_append_cons h, splitLines, cut, dropReturns]

/-- Every line break (`\n`, `\r\n`, lone `\r`) written as `\n`. -/
def normalizeBreaks : List Char → List Char
  | [] => []
  | '\r' :: '\n' :: r => '\n' :: normalizeBreaks r
  | c :: r => (if c = '\r' then '\n' else c) :: normalizeBreaks r

/-- What follows a given beginning in a text, `none` if the text begins otherwise. -/
def stripPrefix? : List Char → List Char → Option (List Char)
  | [], s => some s
  | _ :: _, [] => none
  | p :: ps, c :: cs => if p = c then stripPrefix? ps cs else none

theorem stripPrefix?_eq_some_iff {p s r : List Char} : stripPrefix? p s = some r ↔ s = p ++ r := by
  induction p generalizing s with
  | nil => simp [stripPrefix?, eq_comm]
  | cons a p ih =>
    cases s with
    | nil => simp [stripPrefix?]
    | cons c s => by_cases h : a = c <;> simp [stripPrefix?, h, ih, eq_comm]

/-- The literal texts of the library are written as strings. -/
abbrev lit (s : String) : List Char := s.toList

end TypeVerdict.Text
