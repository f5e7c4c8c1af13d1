import TypeVerdict.Proofs.Joining

/-!
# Line ends

A line of an output ends in a line feed or in a carriage return and a line feed, and both can come
in one output.  Which it is does not matter to its reports.  This is not because the carriage return
before a line feed is dropped: a line can end in carriage returns of its own, and then it is the
last of them that is dropped, whichever was there before.  It is because what is left of them are
blanks at the end of a line, and the reports of an output depend on its lines only up to those
(`Diagnostic.readLines_map_stripEnd`).

## Main definitions

* `Text.withReturns`: an output with carriage returns before some of its line feeds

## Main statements

* `Text.map_stripEnd_splitAt_withReturns`: its lines up to the blanks at their ends
* `Diagnostic.parse_withReturns`: its reports
-/

namespace TypeVerdict

namespace Text

/-- An output with a carriage return put before some of its line feeds, which are chosen by their
offsets. -/
def withReturns : (Nat → Bool) → List Char → List Char
  | _, [] => []
  | chosen, c :: output =>
    (if c = '\n' ∧ chosen 0 then ['\r', '\n'] else [c]) ++
      withReturns (fun i => chosen (i + 1)) output

/-- Blanks at the end are the same behind one character more. -/
theorem stripEnd_cons_congr {s t : List Char} (same : stripEnd s = stripEnd t) (c : Char) :
    stripEnd (c :: s) = stripEnd (c :: t) := by
  have upTo (s : List Char) : stripEnd (c :: s) = stripEnd (c :: stripEnd s) := by
    obtain ⟨white, blank, whole⟩ := exists_eq_stripEnd_append s
    conv_lhs => rw [whole, ← List.cons_append, stripEnd_append blank]
  rw [upTo s, upTo t, same]

/-- **A carriage return before a line feed is a blank at the end of a line**, whatever else the line
ends in. -/
theorem map_stripEnd_splitAt_withReturns (chosen : Nat → Bool) (output : List Char) :
    (splitAt '\n' (withReturns chosen output)).map stripEnd =
      (splitAt '\n' output).map stripEnd := by
  induction output generalizing chosen with
  | nil => rfl
  | cons c output ih =>
      have rest := ih fun i => chosen (i + 1)
      by_cases feed : c = '\n'
      · subst feed
        rw [withReturns]
        split
        · show stripEnd ['\r'] :: (splitAt '\n' (withReturns _ output)).map stripEnd = _
          rw [rest]
          rfl
        · show stripEnd [] :: (splitAt '\n' (withReturns _ output)).map stripEnd = _
          rw [rest]
          rfl
      · obtain ⟨line, lines, cut⟩ := List.exists_cons_of_ne_nil (splitAt_ne_nil '\n' output)
        obtain ⟨line', lines', cut'⟩ := List.exists_cons_of_ne_nil
          (splitAt_ne_nil '\n' (withReturns (fun i => chosen (i + 1)) output))
        rw [cut, cut'] at rest
        obtain ⟨first, others⟩ := List.cons.inj rest
        rw [withReturns, if_neg (fun both => feed both.1), List.singleton_append, splitAt,
          if_neg feed, cut', splitAt, if_neg feed, cut]
        exact congrArg₂ List.cons (stripEnd_cons_congr first c) others

end Text

namespace Diagnostic

open Text

/-- **Line ends do not matter.**  Whichever line feeds of an output get a carriage return before
them, it is read as the same reports, in the same groups; carriage returns that were there
already, before line feeds or anywhere else, change nothing about this. -/
theorem parse_withReturns (chosen : Nat → Bool) (output : List Char) :
    parseAll (withReturns chosen output) = parseAll output ∧
    parse (withReturns chosen output) = parse output := by
  have reports : parseAll (withReturns chosen output) = parseAll output := by
    rw [parseAll_eq_readLines, ← readLines_map_stripEnd, map_stripEnd_splitAt_withReturns,
      readLines_map_stripEnd, ← parseAll_eq_readLines]
  refine ⟨reports, ?_⟩
  rw [parse, reports, parse]

end Diagnostic

end TypeVerdict
