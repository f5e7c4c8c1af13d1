import TypeVerdict.Proofs.Emission
import TypeVerdict.Proofs.RoundTrip

/-!
# Outputs put together

An output is read by its lines, and two things join neighbouring ones: an indented line goes on
with the entry before it, also with one that is no report, and a line feed takes the carriage
return before it along.  When one output is put behind another the carriage return at the end
of the first is therefore read differently; but it is a blank at the end of a line, and no
report depends on those (`Diagnostic.readLines_map_stripEnd`).  What is left is the first line
of the second output that is not blank: unless it is indented (`Diagnostic.Opens`), the entries of
both are gathered on their own, and so the reports of the one stand behind those of the other.

Grouping the reports by path keeps this: the groups of the first output come first, each with what
the second has for it, and then those that only the second has (`Grouping.merge`).

## Main definitions

* `Diagnostic.visibleLines`: the lines of an output that are not blank
* `Diagnostic.Opens`: outputs that do not begin with an indented line
* `Grouping.merge`: one grouping behind another

## Main statements

* `Text.map_stripEnd_splitLines`: lines up to the blanks at their ends
* `Diagnostic.gather_append_of_begins`: entries gathered on their own
* `Diagnostic.parseAll_eq_readLines`: carriage returns do not matter
* `Diagnostic.parseAll_append`: the reports of two outputs
* `Grouping.collect_append`: arrivals behind others
* `Diagnostic.parse_joined`: two outputs put together
-/

namespace TypeVerdict

namespace Text

/-! ### Lines up to the blanks at their ends -/

/-- Blanks at the end are stripped. -/
theorem stripEnd_append {s t : List Char} (white : isBlankText t = true) :
    stripEnd (s ++ t) = stripEnd s := by
  have white' : ∀ c ∈ t.reverse, isBlank c = true := fun c mem =>
    List.all_eq_true.mp white c (List.mem_reverse.mp mem)
  rw [stripEnd, stripEnd, List.reverse_append, List.dropWhile_append_of_pos white']

theorem strip_append {s t : List Char} (white : isBlankText t = true) :
    strip (s ++ t) = strip s := by
  have gone : stripStart t = [] := by
    rw [stripStart, List.dropWhile_eq_nil_iff]
    exact List.all_eq_true.mp white
  rw [strip, stripStart, List.dropWhile_append]
  split
  · next empty =>
      have empty : stripStart s = [] := List.isEmpty_iff.mp empty
      rw [← stripStart, gone, strip, empty]
  · exact stripEnd_append white

/-- What is stripped at the end are blanks. -/
theorem exists_eq_stripEnd_append (s : List Char) :
    ∃ t, isBlankText t = true ∧ s = stripEnd s ++ t := by
  refine ⟨(s.reverse.takeWhile isBlank).reverse, ?_, ?_⟩
  · refine List.all_eq_true.mpr fun c mem => ?_
    exact List.mem_takeWhile_imp (List.mem_reverse.mp mem)
  · rw [stripEnd, ← List.reverse_append, List.takeWhile_append_dropWhile, List.reverse_reverse]

theorem strip_stripEnd (s : List Char) : strip (stripEnd s) = strip s := by
  obtain ⟨t, white, split⟩ := exists_eq_stripEnd_append s
  conv_rhs => rw [split, strip_append white]

theorem isBlankText_stripEnd (s : List Char) : isBlankText (stripEnd s) = isBlankText s := by
  obtain ⟨t, white, split⟩ := exists_eq_stripEnd_append s
  conv_rhs => rw [split]
  rw [Bool.eq_iff_iff, isBlankText_append]
  exact (and_iff_left white).symm

/-- The carriage return before a line feed is a blank at the end of its line. -/
theorem stripEnd_dropReturn (line : List Char) : stripEnd (dropReturn line) = stripEnd line := by
  rw [dropReturn]
  split
  · next last =>
      obtain ⟨s, rfl⟩ := List.getLast?_eq_some_iff.mp last
      rw [List.dropLast_concat, stripEnd_append (by decide)]
  · rfl

theorem map_stripEnd_dropReturns (lines : List (List Char)) :
    (dropReturns lines).map stripEnd = lines.map stripEnd := by
  induction lines with
  | nil => rfl
  | cons line lines ih =>
      cases lines with
      | nil => rfl
      | cons next more => rw [dropReturns, List.map_cons, ih, stripEnd_dropReturn]; rfl

/-- **Up to the blanks at their ends the lines of a text are the pieces between its line feeds.** -/
theorem map_stripEnd_splitLines (s : List Char) :
    (splitLines s).map stripEnd = (splitAt '\n' s).map stripEnd :=
  map_stripEnd_dropReturns _

end Text

namespace Diagnostic

open Text

/-! ### Reading lines -/

/-- The reports of the lines of an output. -/
def readLines (lines : List (List Char)) : List Diagnostic :=
  (gather (lines.filter fun line => !isBlankText line)).filterMap ofLines?

/-- The lines of an output that are not blank. -/
def visibleLines (output : List Char) : List (List Char) :=
  (splitLines output).filter fun line => !isBlankText line

/-- **An output opens with an entry of its own**: its first line that is not blank, if there is
one, is not indented. -/
def Opens (output : List Char) : Prop :=
  ∀ line ∈ (visibleLines output).head?, isContinuation line = false

instance (output : List Char) : Decidable (Opens output) :=
  inferInstanceAs (Decidable (∀ line ∈ (visibleLines output).head?, isContinuation line = false))

/-- Blanks at the end of a line that is not blank do not change whether it is indented. -/
theorem isContinuation_stripEnd {line : List Char} (visible : isBlankText line = false) :
    isContinuation (stripEnd line) = isContinuation line := by
  obtain ⟨t, white, split⟩ := exists_eq_stripEnd_append line
  cases left : stripEnd line with
  | nil =>
      rw [left, List.nil_append] at split
      rw [split, white] at visible
      cases visible
  | cons c s =>
      rw [left] at split
      rw [split]
      rfl

theorem isContinuation_of_head?_dropWhile (lines : List (List Char)) :
    ∀ line ∈ (lines.dropWhile isContinuation).head?, isContinuation line = false := by
  intro line first
  have stopped := List.head?_dropWhile_not isContinuation lines
  rwa [Option.mem_def.mp first] at stopped

/-- An entry is what follows its first line up to the next line that is not indented. -/
theorem gather_cons (first : List Char) (rest : List (List Char)) :
    gather (first :: rest) =
      (first, rest.takeWhile isContinuation) :: gather (rest.dropWhile isContinuation) := by
  rw [gather]

/-- Only the starts of lines count for how they are gathered. -/
theorem gather_map {f : List Char → List Char} {lines : List (List Char)}
    (same : ∀ line ∈ lines, isContinuation (f line) = isContinuation line) :
    gather (lines.map f) = (gather lines).map fun entry => (f entry.1, entry.2.map f) := by
  induction lines using gather.induct with
  | case1 => simp [gather]
  | case2 first rest ih =>
      have part : rest = rest.takeWhile isContinuation ++ rest.dropWhile isContinuation :=
        List.takeWhile_append_dropWhile.symm
      have same_rest {line : List Char} (mem : line ∈ rest) :
          isContinuation (f line) = isContinuation line := same line (List.mem_cons_of_mem _ mem)
      have later := ih fun line mem => same_rest ((List.dropWhile_sublist _).subset mem)
      rw [gather_cons, List.map_cons, List.map_cons, ← later]
      conv_lhs => rw [part, List.map_append]
      refine gather_append ?_ ?_
      · intro line mem
        obtain ⟨line', mem', rfl⟩ := List.mem_map.mp mem
        rw [same_rest ((List.takeWhile_sublist _).subset mem')]
        exact List.mem_takeWhile_imp mem'
      · intro line first
        rw [List.head?_map, Option.mem_def, Option.map_eq_some_iff] at first
        obtain ⟨line, first, rfl⟩ := first
        rw [same_rest ((List.dropWhile_sublist _).subset (List.mem_of_head? first))]
        exact isContinuation_of_head?_dropWhile rest line first

/-- **Lines that begin with an entry of their own are gathered on their own.** -/
theorem gather_append_of_begins {xs ys : List (List Char)}
    (begins : xs = [] ∨ ∀ line ∈ ys.head?, isContinuation line = false) :
    gather (xs ++ ys) = gather xs ++ gather ys := by
  rcases begins with rfl | begins
  · simp [gather]
  induction xs using gather.induct with
  | case1 => simp [gather]
  | case2 first rest ih =>
      have part : rest = rest.takeWhile isContinuation ++ rest.dropWhile isContinuation :=
        List.takeWhile_append_dropWhile.symm
      rw [gather_cons, List.cons_append, List.cons_append, ← ih]
      conv_lhs => rw [part, List.append_assoc]
      refine gather_append (fun line mem => List.mem_takeWhile_imp mem) fun line first => ?_
      rw [List.head?_append, Option.mem_def, Option.or_eq_some_iff] at first
      rcases first with first | ⟨-, first⟩
      · exact isContinuation_of_head?_dropWhile rest line first
      · exact begins line first

/-- A report does not depend on the blanks at the ends of its lines. -/
theorem ofLines?_stripEnd (first : List Char) (more : List (List Char)) :
    ofLines? (stripEnd first, more.map stripEnd) = ofLines? (first, more) := by
  have head : Head.of? (stripEnd first) = Head.of? first := by
    rw [Head.of?, strip_stripEnd, Head.of?]
  have message (start : List Char) :
      joinMessage start (more.map stripEnd) = joinMessage start more := by
    rw [joinMessage, joinMessage, List.map_map]
    simp [Function.comp_def, strip_stripEnd]
  simp only [ofLines?, ofLines, head, message]

theorem readLines_map_stripEnd (lines : List (List Char)) :
    readLines (lines.map stripEnd) = readLines lines := by
  have blank : (fun line => !isBlankText line) ∘ stripEnd = fun line => !isBlankText line := by
    funext line
    rw [Function.comp_apply, isBlankText_stripEnd]
  rw [readLines, List.filter_map, blank, gather_map, List.filterMap_map, readLines]
  · congr 1
    funext entry
    exact ofLines?_stripEnd entry.1 entry.2
  · intro line mem
    exact isContinuation_stripEnd (by simpa using (List.mem_filter.mp mem).2)

/-- **An output is read by its lines**, for which the carriage returns at their ends do not
matter. -/
theorem parseAll_eq_readLines (output : List Char) :
    parseAll output = readLines (splitAt '\n' output) := by
  show readLines (splitLines output) = _
  rw [← readLines_map_stripEnd, map_stripEnd_splitLines, readLines_map_stripEnd]

/-- The pieces between line feeds that are not blank are, up to the blanks at their ends, the lines
that are not. -/
theorem map_stripEnd_visibleLines (output : List Char) :
    (visibleLines output).map stripEnd =
      ((splitAt '\n' output).filter fun line => !isBlankText line).map stripEnd := by
  have blank : (fun line => !isBlankText line) = (fun line => !isBlankText line) ∘ stripEnd := by
    funext line
    rw [Function.comp_apply, isBlankText_stripEnd]
  rw [visibleLines, blank, ← List.filter_map, ← List.filter_map, map_stripEnd_splitLines]

/-- Blanks at the ends of lines do not change whether the first one is indented. -/
theorem begins_map_stripEnd_iff {lines : List (List Char)}
    (visible : ∀ line ∈ lines, isBlankText line = false) :
    (∀ line ∈ (lines.map stripEnd).head?, isContinuation line = false) ↔
      ∀ line ∈ lines.head?, isContinuation line = false := by
  cases lines with
  | nil => simp
  | cons line more => simp [isContinuation_stripEnd (visible line List.mem_cons_self)]

/-- **The reports of two outputs put together** are those of the one and then those of the other. -/
theorem parseAll_append {a b : List Char} (apart : visibleLines a = [] ∨ Opens b) :
    parseAll (a ++ '\n' :: b) = parseAll a ++ parseAll b := by
  rw [parseAll_eq_readLines, splitAt_append, parseAll_eq_readLines a, parseAll_eq_readLines b,
    readLines, List.filter_append, gather_append_of_begins, List.filterMap_append]
  · rfl
  · rcases apart with none | opens
    · left
      have none' := map_stripEnd_visibleLines a
      rw [none, List.map_nil, eq_comm, List.map_eq_nil_iff] at none'
      exact none'
    · right
      rw [← begins_map_stripEnd_iff (by simp), ← map_stripEnd_visibleLines]
      exact (begins_map_stripEnd_iff (by simp [visibleLines])).mpr opens

end Diagnostic

/-! ### Groupings put together -/

namespace Grouping

variable {κ α β : Type} [DecidableEq κ]

/-- **One grouping behind another**: the keys of the first with the values of both, and then the
keys that are in the second one only. -/
def merge (g h : Grouping κ α) : Grouping κ α where
  groups := (g.groups.map fun group => (group.1, group.2 ++ (h.get? group.1).getD [])) ++
    h.groups.filter fun group => group.1 ∉ g.keys

variable [BEq κ] [LawfulBEq κ]

/-- **Arrivals behind others are grouped on their own.** -/
theorem collect_append (key : β → κ) (values : β → List α) (xs ys : List β) :
    collect key values (xs ++ ys) = (collect key values xs).merge (collect key values ys) := by
  have keys : (collect key values xs).keys = (xs.map key).eraseDups := by
    rw [Grouping.keys, collect, List.map_map]
    exact List.map_id _
  have new : (ys.map key).removeAll (xs.map key) =
      (ys.map key).filter fun k => k ∉ (xs.map key).eraseDups := by
    simp [List.removeAll, ← decide_not]
  have both (k : κ) : ((xs ++ ys).filter fun x => key x = k).flatMap values =
      (xs.filter fun x => key x = k).flatMap values ++
        ((collect key values ys).get? k).getD [] := by
    rw [getD_get?_collect, List.filter_append, List.flatMap_append]
  have split : (collect key values (xs ++ ys)).groups =
      ((xs.map key).eraseDups ++ ((ys.map key).eraseDups.filter fun k =>
        k ∉ (xs.map key).eraseDups)).map fun k =>
          (k, ((xs ++ ys).filter fun x => key x = k).flatMap values) := by
    rw [collect, List.map_append, List.eraseDups_append, new, ← filter_eraseDups]
  refine congrArg mk (split.trans ?_)
  rw [List.map_append, keys]
  congr 1
  · show _ = ((xs.map key).eraseDups.map _).map _
    rw [List.map_map]
    exact List.map_congr_left fun k _ => Prod.ext rfl (both k)
  · show _ = ((ys.map key).eraseDups.map _).filter _
    rw [List.filter_map]
    refine (List.map_congr_left fun k mem => ?_).trans
      (congrArg _ (List.filter_congr fun k _ => decide_eq_decide.mpr Iff.rfl))
    have new : k ∉ xs.map key := by
      simpa using of_decide_eq_true (List.mem_filter.mp mem).2
    rw [List.filter_append, filter_eq_nil_of_not_mem new, List.nil_append]

end Grouping

namespace Diagnostic

/-- **Outputs can be read one by one.**  Unless the second one goes on with an indented line what
the first one began, both together are read as the reports of the first and then those of the
second: their groups are those of the first, each with what the second has for it, and then
those that only the second has. -/
theorem parse_joined {a b : List Char} (apart : visibleLines a = [] ∨ Opens b) :
    parseAll (a ++ '\n' :: b) = parseAll a ++ parseAll b ∧
    parse (a ++ '\n' :: b) = (parse a).merge (parse b) := by
  have reports := parseAll_append apart
  refine ⟨reports, ?_⟩
  rw [parse_eq_collect, reports, Grouping.collect_append, parse_eq_collect a, parse_eq_collect b]

/-- An output that ends within an entry, behind a carriage return. -/
def brokenOutput : List Char :=
  "a.ts(1,1): error TS1: m\r\n  more\r\nb.ts(1,\r".toList

/-- An output with two reports and a line that is none. -/
def laterOutput : List Char :=
  "b.ts: error TS2: n\nstray\n  text\na.ts(2,1): error TS3: o".toList

/-- The file of the first output comes first with its reports from both, then that of the second. -/
theorem parse_joined_broken :
    Opens laterOutput ∧
    parseAll (brokenOutput ++ '\n' :: laterOutput) =
      parseAll brokenOutput ++ parseAll laterOutput ∧
    ((parse brokenOutput).merge (parse laterOutput)).groups = [(some "a.ts",
      [⟨some "a.ts", some ⟨1, 1⟩, .error, some 1, "m\nmore"⟩,
        ⟨some "a.ts", some ⟨2, 1⟩, .error, some 3, "o"⟩]),
      (some "b.ts", [⟨some "b.ts", none, .error, some 2, "n"⟩])] ∧
    parse (brokenOutput ++ '\n' :: laterOutput) =
      (parse brokenOutput).merge (parse laterOutput) := by
  have opens : Opens laterOutput := by decide +kernel
  obtain ⟨reports, groups⟩ := parse_joined (a := brokenOutput) (Or.inr opens)
  exact ⟨opens, reports, by decide +kernel, groups⟩

end Diagnostic

end TypeVerdict
