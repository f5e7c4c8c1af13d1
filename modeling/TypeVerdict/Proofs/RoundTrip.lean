import TypeVerdict.Proofs.Format
import TypeVerdict.Proofs.Groups

/-!
# Reading an output undoes printing it

An output has its reports on lines of their own, each with the further lines of its message
indented below, and among them lines that are blank or belong to no report.  Lines end in a
line feed, or in a carriage return and a line feed, and the last one need not end at all.
Whatever the layout is, the reports that are read are those that were printed, in their order.

A report is followed by its further lines up to the next line that is neither blank nor
indented, so what is needed of the rest of an output is that it begins with such a line; the
induction over an output carries that along with the reports.

## Main definitions

* `Line`: a line with its end
* `Printed`: the lines of an output with given reports

## Main statements

* `filter_splitLines_printLines`: the lines that are read
* `Diagnostic.Printed.filterMap_gather`: the entries that are read
* `Diagnostic.parse_printLines`: the reports that are read
-/

namespace TypeVerdict

open Text

/-- A line of an output, with a carriage return before its line feed or without. -/
structure Line where
  text : List Char
  carriage : Bool := false

/-- A line with its end. -/
def Line.print (line : Line) : List Char :=
  line.text ++ if line.carriage then ['\r', '\n'] else ['\n']

/-- Lines with their ends, and a last one without. -/
def printLines (lines : List Line) (last : List Char) : List Char :=
  lines.flatMap Line.print ++ last

/-- A line that is the same line after it was printed, or blank before and after. -/
structure PlainLine (line : List Char) : Prop where
  oneLine : '\n' ∉ line
  noReturn : isBlankText line = true ∨ line.getLast? ≠ some '\r'

namespace Diagnostic

/-- **The further lines of a message**, each indented, with blank lines among them. -/
inductive Continues : List (List Char) → List (List Char) → Prop
  | nil : Continues [] []
  | line {indent text : List Char} {texts lines : List (List Char)} (nonempty : indent ≠ [])
      (white : ∀ c ∈ indent, c = ' ' ∨ c = '\t') (rest : Continues texts lines) :
      Continues (text :: texts) ((indent ++ text) :: lines)
  | blank {line : List Char} {texts lines : List (List Char)} (white : isBlankText line = true)
      (oneLine : '\n' ∉ line) (rest : Continues texts lines) : Continues texts (line :: lines)

/-- **Lines that belong to no report**: one that is neither blank nor indented, with the
indented and blank lines below it. -/
structure Noise (first : List Char) (more : List (List Char)) : Prop where
  visible : isBlankText first = false
  unindented : isContinuation first = false
  indented : ∀ line ∈ more, isBlankText line = true ∨ isContinuation line = true
  plain : ∀ line ∈ first :: more, PlainLine line
  noReport : ofLines? (first, more.filter fun line => !isBlankText line) = none

/-- **The lines of an output with given reports.** -/
inductive Printed : List Diagnostic → List (List Char) → Prop
  | nil : Printed [] []
  | blank {line : List Char} {reports : List Diagnostic} {lines : List (List Char)}
      (white : isBlankText line = true) (oneLine : '\n' ∉ line) (rest : Printed reports lines) :
      Printed reports (line :: lines)
  | noise {first : List Char} {more : List (List Char)} {reports : List Diagnostic}
      {lines : List (List Char)} (noise : Noise first more) (rest : Printed reports lines) :
      Printed reports (first :: (more ++ lines))
  | report {d : Diagnostic} {more : List (List Char)} {reports : List Diagnostic}
      {lines : List (List Char)} (normal : d.Normal)
      (continued : Continues (messageLines d.message).tail more) (rest : Printed reports lines) :
      Printed (d :: reports) (d.headLine :: (more ++ lines))

end Diagnostic

/-! ### Lines -/

theorem isBlankText_append {s t : List Char} :
    isBlankText (s ++ t) = true ↔ isBlankText s = true ∧ isBlankText t = true := by
  simp [isBlankText]

/-- What is left of a plain line. -/
theorem PlainLine.dropReturn_print {line : List Char} (h : PlainLine line) (carriage : Bool) :
    dropReturn (line ++ if carriage then ['\r'] else []) = line ∨
      isBlankText line = true ∧
        isBlankText (dropReturn (line ++ if carriage then ['\r'] else [])) = true := by
  cases carriage with
  | true => exact Or.inl (dropReturn_append_return line)
  | false =>
      rw [if_neg Bool.false_ne_true, List.append_nil]
      rcases h.noReturn with white | noReturn
      · refine Or.inr ⟨white, ?_⟩
        unfold dropReturn
        split
        · exact List.all_eq_true.mpr fun c mem =>
            List.all_eq_true.mp white c (List.mem_of_mem_dropLast mem)
        · exact white
      · exact Or.inl (dropReturn_eq_self noReturn)

/-- **The lines that are read are the printed ones**, blank ones apart. -/
theorem filter_splitLines_printLines {lines : List Line} {last : List Char}
    (plain : ∀ line ∈ lines.map (·.text) ++ [last], PlainLine line) :
    (splitLines (printLines lines last)).filter (fun line => !isBlankText line) =
      (lines.map (·.text) ++ [last]).filter fun line => !isBlankText line := by
  induction lines with
  | nil =>
      have here := plain last List.mem_cons_self
      show (splitLines last).filter _ = _
      rw [splitLines_of_not_mem here.oneLine]
      rfl
  | cons line lines ih =>
      obtain ⟨text, carriage⟩ := line
      have here := plain text List.mem_cons_self
      have rest := ih fun other mem => plain other (List.mem_cons_of_mem _ mem)
      have ended : printLines (⟨text, carriage⟩ :: lines) last =
          (text ++ if carriage then ['\r'] else []) ++ '\n' :: printLines lines last := by
        unfold printLines
        cases carriage <;> simp [Line.print]
      have oneLine : '\n' ∉ text ++ if carriage then ['\r'] else [] := by
        intro mem
        rcases List.mem_append.mp mem with mem | mem
        · exact here.oneLine mem
        · cases carriage <;> exact absurd mem (by decide)
      rw [ended, splitLines_append_cons oneLine, List.filter_cons, rest, List.map_cons,
        List.cons_append, List.filter_cons]
      rcases here.dropReturn_print carriage with same | ⟨white, white'⟩
      · rw [same]
      · rw [white, white']
        rfl

namespace Diagnostic

/-! ### Entries -/

/-- An entry ends where the rest begins with a line that is not indented. -/
theorem gather_append {first : List Char} {more rest : List (List Char)}
    (indented : ∀ line ∈ more, isContinuation line = true)
    (begins : ∀ line ∈ rest.head?, isContinuation line = false) :
    gather (first :: (more ++ rest)) = (first, more) :: gather rest := by
  have here : rest.takeWhile isContinuation = [] ∧ rest.dropWhile isContinuation = rest := by
    cases rest with
    | nil => exact ⟨rfl, rfl⟩
    | cons line rest =>
        have unindented := begins line rfl
        simp [unindented]
  rw [gather, List.takeWhile_append_of_pos indented, List.dropWhile_append_of_pos indented,
    here.1, here.2, List.append_nil]

theorem Visible.isBlankText {s : List Char} (h : Visible s) : isBlankText s = false := by
  obtain ⟨c, rest, rfl, visible⟩ := h
  simp [Text.isBlankText, visible]

theorem Visible.isContinuation {s : List Char} (h : Visible s) : isContinuation s = false := by
  obtain ⟨c, rest, rfl, visible⟩ := h
  have blank : c ≠ ' ' ∧ c ≠ '\t' := by
    constructor <;> rintro rfl <;> exact absurd visible (by decide)
  simp [Diagnostic.isContinuation, blank]

/-- A line that is printed visibly and ends with a stripped text is plain. -/
theorem plainLine_append {s t : List Char} (oneLine : '\n' ∉ s ++ t) (nonempty : t ≠ [])
    (stripped : strip t = t) : PlainLine (s ++ t) := by
  refine ⟨oneLine, Or.inr ?_⟩
  intro last
  rw [List.getLast?_append, List.getLast?_eq_some_getLast nonempty] at last
  have visible := (strip_eq_self_iff.mp stripped).2 '\r'
    (by rw [List.getLast?_eq_some_getLast nonempty]; exact last)
  exact absurd visible (by decide)

namespace Continues

variable {texts lines : List (List Char)}

/-- The further lines are plain if those of the message are. -/
theorem plain (h : Continues texts lines)
    (plain : ∀ text ∈ texts, '\n' ∉ text ∧ text ≠ [] ∧ strip text = text) :
    ∀ line ∈ lines, PlainLine line := by
  induction h with
  | nil => simp
  | @line indent text texts lines nonempty white rest ih =>
      obtain ⟨oneLine, some_text, stripped⟩ := plain text List.mem_cons_self
      intro line mem
      rcases List.mem_cons.mp mem with rfl | mem
      · refine plainLine_append ?_ some_text stripped
        intro mem
        rcases List.mem_append.mp mem with mem | mem
        · exact absurd (white _ mem) (by decide)
        · exact oneLine mem
      · exact ih (fun text mem => plain text (List.mem_cons_of_mem _ mem)) line mem
  | blank white oneLine rest ih =>
      intro line mem
      rcases List.mem_cons.mp mem with rfl | mem
      · exact ⟨oneLine, Or.inl white⟩
      · exact ih plain line mem

/-- Those that are not blank continue an entry, and stripped they are those of the message. -/
theorem filter (h : Continues texts lines)
    (plain : ∀ text ∈ texts, text ≠ [] ∧ strip text = text) :
    (∀ line ∈ lines.filter fun line => !isBlankText line, isContinuation line = true) ∧
      (lines.filter fun line => !isBlankText line).map strip = texts := by
  induction h with
  | nil => simp
  | @line indent text texts lines nonempty white rest ih =>
      obtain ⟨some_text, stripped⟩ := plain text List.mem_cons_self
      obtain ⟨indented, same⟩ := ih fun text mem => plain text (List.mem_cons_of_mem _ mem)
      have visible : isBlankText (indent ++ text) = false := by
        have last := (visible_of_strip some_text stripped).isBlankText
        rw [← Bool.not_eq_true, isBlankText_append, last]
        simp
      have blank : ∀ c ∈ indent, isBlank c = true := by
        intro c mem
        rcases white c mem with rfl | rfl <;> decide
      have inner : strip (indent ++ text) = text := by
        rw [strip, stripStart, List.dropWhile_append_of_pos blank]
        exact stripped
      have begins : isContinuation (indent ++ text) = true := by
        obtain ⟨c, rest, rfl⟩ := List.exists_cons_of_ne_nil nonempty
        rcases white c List.mem_cons_self with rfl | rfl <;> rfl
      rw [List.filter_cons, if_pos (by simp [visible]), List.map_cons, inner, same]
      refine ⟨?_, rfl⟩
      intro line mem
      rcases List.mem_cons.mp mem with rfl | mem
      · exact begins
      · exact indented line mem
  | blank white oneLine rest ih =>
      rw [List.filter_cons, if_neg (by simp [white])]
      exact ih plain

end Continues

/-- The further lines of a message. -/
theorem PlainMessage.further {message : String} (h : PlainMessage message) :
    ∀ text ∈ (messageLines message).tail, '\n' ∉ text ∧ text ≠ [] ∧ strip text = text := by
  intro text mem
  have mem := List.mem_of_mem_tail mem
  exact ⟨not_mem_of_mem_splitAt mem, h text mem⟩

theorem firstLine_oneLine (message : String) : '\n' ∉ firstLine message := by
  obtain ⟨first, more, lines⟩ := List.exists_cons_of_ne_nil (messageLines_ne_nil message)
  apply not_mem_of_mem_splitAt (s := message.toList)
  rw [← messageLines, firstLine, lines]
  exact List.mem_cons_self

/-- The first line of a report is one line. -/
theorem Normal.oneLine {d : Diagnostic} (h : d.Normal) : '\n' ∉ d.headLine := by
  intro mem
  rcases List.mem_append.mp mem with mem | mem
  · exact h.oneLine_lead mem
  · exact firstLine_oneLine d.message mem

theorem Normal.plainLine {d : Diagnostic} (h : d.Normal) : PlainLine d.headLine :=
  plainLine_append h.oneLine h.plain.first.1 h.plain.first.2

namespace Printed

variable {reports : List Diagnostic} {lines : List (List Char)}

/-- Every line of an output is plain. -/
theorem plain (h : Printed reports lines) : ∀ line ∈ lines, PlainLine line := by
  induction h with
  | nil => simp
  | blank white oneLine rest ih =>
      intro line mem
      rcases List.mem_cons.mp mem with rfl | mem
      · exact ⟨oneLine, Or.inl white⟩
      · exact ih line mem
  | noise noise rest ih =>
      intro line mem
      rcases List.mem_append.mp (List.cons_append ▸ mem) with mem | mem
      · exact noise.plain line mem
      · exact ih line mem
  | report normal continued rest ih =>
      intro line mem
      rcases List.mem_cons.mp mem with rfl | mem
      · exact normal.plainLine
      rcases List.mem_append.mp mem with mem | mem
      · exact continued.plain normal.plain.further line mem
      · exact ih line mem

/-- **The entries of an output make its reports.**  None of them takes lines from the next, as
each begins with a line that is not indented. -/
theorem filterMap_gather (h : Printed reports lines) :
    (∀ line ∈ (lines.filter fun line => !isBlankText line).head?, isContinuation line = false) ∧
      (gather (lines.filter fun line => !isBlankText line)).filterMap ofLines? = reports := by
  induction h with
  | nil => exact ⟨by simp, by rw [List.filter_nil, gather]; rfl⟩
  | blank white oneLine rest ih =>
      rw [List.filter_cons, if_neg (by simp [white])]
      exact ih
  | @noise first more reports lines noise rest ih =>
      obtain ⟨begins, same⟩ := ih
      have indented : ∀ line ∈ more.filter fun line => !isBlankText line,
          isContinuation line = true := by
        intro line mem
        obtain ⟨mem, visible⟩ := List.mem_filter.mp mem
        exact (noise.indented line mem).resolve_left (by simpa using visible)
      rw [List.filter_cons, if_pos (by simp [noise.visible]), List.filter_append,
        gather_append indented begins, List.filterMap_cons, noise.noReport]
      refine ⟨?_, same⟩
      rintro line ⟨⟩
      exact noise.unindented
  | @report d more reports lines normal continued rest ih =>
      obtain ⟨begins, same⟩ := ih
      have further := normal.plain.further
      obtain ⟨indented, stripped⟩ := continued.filter fun text mem => (further text mem).2
      have visible := normal.visible_lead.append (firstLine d.message)
      rw [List.filter_cons, if_pos (by simp [headLine, visible.isBlankText]), List.filter_append,
        gather_append indented begins, List.filterMap_cons, normal.ofLines?_headLine stripped, same]
      refine ⟨?_, rfl⟩
      rintro line ⟨⟩
      exact visible.isContinuation

end Printed

/-- **Reading an output undoes printing it.**  Take any reports in normal form, and print them
in any layout: the further lines of their messages indented by any blanks and tabs, each line
ended either way or the last one not at all, with blank lines wherever they may be and other
lines between the reports.  What is read are these reports in their order, grouped by their
paths in the order of their first reports. -/
theorem parse_printLines {reports : List Diagnostic} {lines : List Line} {last : List Char}
    (printed : Printed reports (lines.map (·.text) ++ [last])) :
    parseAll (printLines lines last) = reports ∧
      (parse (printLines lines last)).groups = (reports.map (·.path?)).eraseDups.map
        fun path? => (path?, reports.filter fun d => d.path? = path?) := by
  have all : parseAll (printLines lines last) = reports := by
    unfold parseAll entries
    rw [filter_splitLines_printLines printed.plain]
    exact printed.filterMap_gather.2
  refine ⟨all, ?_⟩
  rw [groups_parse, all]

/-- Lines of an output with reports of all three shapes, in which a line is noise, one is blank,
and the last has no end. -/
def mixedLines : List Line := [
  ⟨"12:00:00 - Starting".toList, true⟩,
  ⟨"a (1).ts(3,7): error TS2322: first".toList, true⟩,
  ⟨" ".toList, false⟩,
  ⟨"\t second".toList, false⟩,
  ⟨"C:/b.ts: warning TS5: m".toList, true⟩]

/-- Their reports. -/
def mixedReports : List Diagnostic := [
  ⟨some "a (1).ts", some ⟨3, 7⟩, .error, some 2322, "first\nsecond"⟩,
  ⟨some "C:/b.ts", none, .warning, some 5, "m"⟩,
  ⟨none, none, .message, some 18003, "n"⟩]

theorem printed_mixedReports :
    Printed mixedReports (mixedLines.map (·.text) ++ ["message TS18003: n".toList]) := by
  have noise : Noise "12:00:00 - Starting".toList [] :=
    ⟨by decide, by decide, by simp, by
      intro line mem
      cases List.mem_singleton.mp mem
      exact ⟨by decide, by decide⟩, by decide +kernel⟩
  have placed : Normal ⟨some "a (1).ts", some ⟨3, 7⟩, .error, some 2322, "first\nsecond"⟩ :=
    .placed ⟨by decide, by decide, by decide, by decide⟩ (by decide) (by decide)
      (by decide) (by decide)
  have unplaced : Normal ⟨some "C:/b.ts", none, .warning, some 5, "m"⟩ :=
    .unplaced (show "C:/b.ts".toList = "C:".toList ++ "/b.ts".toList by decide)
      ⟨Or.inr ⟨'C', by decide, rfl⟩, ⟨'/', _, rfl, by decide⟩, by decide, by decide, by decide⟩
      (by decide) (by decide) (by decide)
  have project : Normal ⟨none, none, .message, some 18003, "n"⟩ :=
    .project (by decide) (by decide) (by decide) (by rintro ⟨⟩ <;> decide)
  have second : Continues ["second".toList] [" ".toList, "\t second".toList] :=
    .blank (by decide) (by decide)
      (@Continues.line ['\t', ' '] "second".toList [] [] (by simp) (by simp) .nil)
  have reports := Printed.report placed second (.report unplaced .nil (.report project .nil .nil))
  exact @Printed.noise _ [] _ _ noise reports

theorem parse_printLines_mixedReports :
    parseAll (printLines mixedLines "message TS18003: n".toList) = mixedReports ∧
      (parse (printLines mixedLines "message TS18003: n".toList)).groups =
        (mixedReports.map (·.path?)).eraseDups.map fun path? =>
          (path?, mixedReports.filter fun d => d.path? = path?) :=
  parse_printLines printed_mixedReports

end Diagnostic

end TypeVerdict
