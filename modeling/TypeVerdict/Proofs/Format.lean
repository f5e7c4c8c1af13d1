import Mathlib.Data.List.Infix
import Mathlib.Data.List.TakeWhile
import TypeVerdict.Diagnostic.Parser

/-!
# Reports as they are printed

A report is printed on a line of one of three shapes, with the further lines of its message
indented below.  The recognisers of the three shapes are tried one after the other, each of
them can match more than it should, and the first one tries all opening parentheses.  So
printing can be undone only for reports in a normal form (`Normal`), and what its conditions
are for is this: a place ends in a closing parenthesis, a colon and a blank (`ClosesPlace`),
and where no such mark is the first recogniser cannot match; a path without a place ends at
the first colon; and a report without a path is not taken for one with a path unless its
message looks like a report itself.

## Main definitions

* `Diagnostic.headLine`: the first line of a printed report
* `Diagnostic.Normal`: reports that can be read as they are printed

## Main statements

* `closesPlace_of_positioned?`: the mark that every place ends in
* `Normal.head_of?`: the parts of a printed line
* `Normal.ofLines?_headLine`: reading a report undoes printing it
-/

namespace TypeVerdict

namespace Diagnostic

open Text

/-! ### Printing -/

/-- Digits that write a code, with the tag of codes before them. -/
def tag : Option (List Char) → List Char
  | some code => lit " TS" ++ code
  | none => []

/-- A code with its tag. -/
def printCode : Option Nat → List Char
  | some code => lit " TS" ++ Nat.toDigits 10 code
  | none => []

/-- What comes before a message: the category and the code. -/
def describe (category : Category) (code? : Option Nat) : List Char :=
  lit category.word ++ (printCode code? ++ [':', ' '])

/-- A place behind a path. -/
def printPlace (p : Position) : List Char :=
  '(' :: (Nat.toDigits 10 p.line.toNat ++
    ',' :: (Nat.toDigits 10 p.column.toNat ++ [')', ':', ' ']))

/-- What comes before the message of a report. -/
def lead (d : Diagnostic) : List Char :=
  match d.path?, d.position? with
  | some path, some p => path.toList ++ (printPlace p ++ describe d.category d.code?)
  | some path, none => path.toList ++ (':' :: ' ' :: describe d.category d.code?)
  | none, _ => describe d.category d.code?

/-- The lines of a message. -/
def messageLines (message : String) : List (List Char) := splitAt '\n' message.toList

/-- The first line of a message. -/
def firstLine (message : String) : List Char := (messageLines message).headD []

/-- **The first line of a printed report.** -/
def headLine (d : Diagnostic) : List Char := d.lead ++ firstLine d.message

/-! ### The normal form -/

/-- A number that is not too long to be read. -/
def Short (n : Nat) : Prop := (Nat.toDigits 10 n).length ≤ maxDigits

/-- The mark in which a place ends. -/
def ClosesPlace (s : List Char) : Prop := [')', ':', ' '] <:+: s

/-- A text that begins with a character to be seen. -/
def Visible (s : List Char) : Prop := ∃ c rest, s = c :: rest ∧ isBlank c = false

/-- A path that can be printed with a place. -/
structure PlacedPath (path : List Char) : Prop where
  nonempty : path ≠ []
  stripped : strip path = path
  oneLine : '\n' ∉ path
  noMark : ¬ ClosesPlace path

/-- A path that can be printed without a place: it has no colon but that of a drive. -/
structure UnplacedPath (drive name : List Char) : Prop where
  drive : drive = [] ∨ ∃ letter : Char, letter.isAlpha = true ∧ drive = [letter, ':']
  visible : Visible name
  noColon : ':' ∉ name
  oneLine : '\n' ∉ name
  last : name.getLast? ≠ some ')'

/-- A message whose lines are neither empty nor begin or end with blanks. -/
def PlainMessage (message : String) : Prop :=
  ∀ line ∈ messageLines message, line ≠ [] ∧ strip line = line

instance (s : List Char) : Decidable (ClosesPlace s) := inferInstanceAs (Decidable (_ <:+: _))

instance (n : Nat) : Decidable (Short n) := inferInstanceAs (Decidable (_ ≤ _))

instance (message : String) : Decidable (PlainMessage message) :=
  inferInstanceAs (Decidable (∀ line ∈ messageLines message, line ≠ [] ∧ strip line = line))

/-- **Reports that can be read as they are printed.** -/
inductive Normal : Diagnostic → Prop
  /-- A report about a place in a file. -/
  | placed {path : String} {line column : Nat} {category : Category} {code? : Option Nat}
      {message : String} (readable : PlacedPath path.toList) (line_short : Short line)
      (column_short : Short column) (code_short : ∀ code ∈ code?, Short code)
      (plain : PlainMessage message) :
      Normal ⟨some path, some ⟨line, column⟩, category, code?, message⟩
  /-- A report about a file. -/
  | unplaced {path : String} {drive name : List Char} {category : Category} {code : Nat}
      {message : String} (spelled : path.toList = drive ++ name)
      (readable : UnplacedPath drive name) (code_short : Short code)
      (plain : PlainMessage message) (noMark : ¬ ClosesPlace (firstLine message)) :
      Normal ⟨some path, none, category, some code, message⟩
  /-- A report about the project as a whole. -/
  | project {category : Category} {code : Nat} {message : String} (code_short : Short code)
      (plain : PlainMessage message) (noMark : ¬ ClosesPlace (firstLine message))
      (noReport : ∀ other : Category, ¬ lit other.word ++ lit " TS" <+: firstLine message) :
      Normal ⟨none, none, category, some code, message⟩

/-! ### What can be seen -/

theorem Visible.append {s : List Char} (h : Visible s) (t : List Char) : Visible (s ++ t) := by
  obtain ⟨c, rest, rfl, visible⟩ := h
  exact ⟨c, rest ++ t, rfl, visible⟩

theorem visible_of_strip {s : List Char} (nonempty : s ≠ []) (stripped : strip s = s) :
    Visible s := by
  obtain ⟨c, rest, rfl⟩ := List.exists_cons_of_ne_nil nonempty
  exact ⟨c, rest, rfl, (strip_eq_self_iff.mp stripped).1 c rfl⟩

theorem visible_word (category : Category) : Visible (lit category.word) := by
  cases category <;> exact ⟨_, _, rfl, by decide⟩

theorem isBlank_of_isAlpha {c : Char} (h : c.isAlpha = true) : isBlank c = false := by
  have letter : 65 ≤ c.toNat ∧ c.toNat ≤ 122 := by
    rcases Bool.or_eq_true_iff.mp h with upper | lower
    · obtain ⟨low, high⟩ := of_decide_eq_true upper
      exact ⟨low, Nat.le_trans (m := 90) high (by decide)⟩
    · obtain ⟨low, high⟩ := Bool.and_eq_true_iff.mp lower
      exact ⟨Nat.le_trans (m := 97) (by decide) (of_decide_eq_true low), of_decide_eq_true high⟩
  unfold isBlank
  rw [if_pos (by omega)]
  simp only [Bool.or_eq_false_iff, Bool.and_eq_false_iff, decide_eq_false_iff_not]
  omega

/-- A drive is a letter and a colon. -/
theorem UnplacedPath.not_mem_drive {drive name : List Char} (h : UnplacedPath drive name) {c : Char}
    (noLetter : c.isAlpha = false) (noColon : c ≠ ':') : c ∉ drive := by
  rcases h.drive with rfl | ⟨letter, isLetter, rfl⟩
  · exact List.not_mem_nil
  · have other : c ≠ letter := by
      rintro rfl
      rw [isLetter] at noLetter
      cases noLetter
    simp [other, noColon]

theorem UnplacedPath.visible_append {drive name : List Char} (h : UnplacedPath drive name) :
    Visible (drive ++ name) := by
  rcases h.drive with rfl | ⟨letter, isLetter, rfl⟩
  · exact h.visible
  · exact ⟨letter, _, rfl, isBlank_of_isAlpha isLetter⟩

/-- A text that begins visibly and ends with a stripped one has nothing to strip. -/
theorem Visible.strip_append {s t : List Char} (h : Visible s) (nonempty : t ≠ [])
    (stripped : strip t = t) : strip (s ++ t) = s ++ t := by
  obtain ⟨c, rest, rfl, visible⟩ := h
  rw [strip_eq_self_iff]
  constructor
  · intro d first
    cases first
    exact visible
  · intro d last
    apply (strip_eq_self_iff.mp stripped).2
    rw [List.getLast?_append, List.getLast?_eq_some_getLast nonempty] at last
    rw [List.getLast?_eq_some_getLast nonempty]
    exact last

/-! ### Scanning what was printed -/

/-- **What a number is written with**: digits of any script, at least one. -/
def Digits (s : List Char) : Prop := s ≠ [] ∧ ∀ c ∈ s, isDigit c = true

instance (s : List Char) : Decidable (Digits s) :=
  decidable_of_iff (s ≠ [] ∧ s.all isDigit = true) (and_congr_right fun _ => List.all_eq_true)

theorem Digits.not_mem {s : List Char} (h : Digits s) {c : Char} (other : isDigit c = false) :
    c ∉ s := by
  intro mem
  rw [h.2 c mem] at other
  cases other

theorem digits_toDigits (n : Nat) : Digits (Nat.toDigits 10 n) :=
  ⟨Nat.toDigits_ne_nil, fun _ => isDigit_of_mem_toDigits⟩

/-- A number is scanned up to the first character that is no digit. -/
theorem scanDigits_append {digits : List Char} (written : Digits digits) {c : Char}
    (other : isDigit c = false) (s : List Char) :
    scanDigits (digits ++ c :: s) = some (digits, c :: s) := by
  obtain ⟨nonempty, all⟩ := written
  obtain ⟨first, rest, rfl⟩ := List.exists_cons_of_ne_nil nonempty
  rw [scanDigits, List.takeWhile_append_of_pos all, List.dropWhile_append_of_pos all,
    List.takeWhile_cons_of_neg (by simp [other]), List.dropWhile_cons_of_neg (by simp [other]),
    List.append_nil]

/-- Digits that were scanned write a number, and they came first. -/
theorem scanDigits_eq_some {s digits rest : List Char} (h : scanDigits s = some (digits, rest)) :
    s = digits ++ rest ∧ Digits digits := by
  unfold scanDigits at h
  split at h
  · cases h
  · next nonempty =>
      cases h
      exact ⟨List.takeWhile_append_dropWhile.symm, nonempty,
        fun c mem => List.mem_takeWhile_imp mem⟩

theorem scanCategory_word (category : Category) (s : List Char) :
    scanCategory (lit category.word ++ s) = some (category, s) := by
  cases category <;> rfl

theorem scanCategory_eq_some {s rest : List Char} {category : Category}
    (h : scanCategory s = some (category, rest)) : s = lit category.word ++ rest := by
  obtain ⟨c, -, found⟩ := List.exists_of_findSome?_eq_some h
  obtain ⟨r, stripped, same⟩ := Option.map_eq_some_iff.mp found
  cases same
  exact stripPrefix?_eq_some_iff.mp stripped

theorem scanCode_tag {code : List Char} (written : Digits code) (s : List Char) :
    scanCode (tag (some code) ++ ':' :: s) = some (code, ':' :: s) := by
  have tagged : stripPrefix? (lit " TS") (tag (some code) ++ ':' :: s) =
      some (code ++ ':' :: s) := by
    rw [stripPrefix?_eq_some_iff, tag, List.append_assoc]
  rw [scanCode, tagged]
  exact scanDigits_append written (by decide) s

/-- A category with a code is read as it is. -/
theorem coded?_append (path? : Option (List Char)) (category : Category)
    {code s message : List Char} (written : Digits code)
    (behind : scanMessage (':' :: s) = some message) :
    coded? path? (lit category.word ++ (tag (some code) ++ ':' :: s)) =
      some ⟨path?, none, category, some code, message⟩ := by
  rw [coded?, scanCategory_word]
  show (scanCode _).bind _ = _
  rw [scanCode_tag written]
  show (scanMessage (':' :: s)).bind _ = _
  rw [behind]
  rfl

/-- So is one behind a place, and there it needs no code. -/
theorem placed?_append (path : List Char) {line column : List Char} (line_digits : Digits line)
    (column_digits : Digits column) (category : Category) {code? : Option (List Char)}
    (code_digits : ∀ code ∈ code?, Digits code) {s message : List Char}
    (behind : scanMessage (':' :: s) = some message) :
    placed? path (line ++ ',' :: (column ++ ')' :: ':' :: ' ' ::
        (lit category.word ++ (tag code? ++ ':' :: s)))) =
      some ⟨some (strip path), some (line, column), category, code?, message⟩ := by
  rw [placed?, scanDigits_append line_digits (by decide)]
  show (scanDigits _).bind _ = _
  rw [scanDigits_append column_digits (by decide)]
  show (scanCategory _).bind _ = _
  rw [scanCategory_word]
  cases code? with
  | none =>
      show (scanMessage (':' :: s)).bind _ = _
      rw [behind]
      rfl
  | some code =>
      simp only [Option.bind_some, scanCode_tag (code_digits code rfl)]
      show (scanMessage (':' :: s)).bind _ = _
      rw [behind]
      rfl

theorem printCode_eq_tag (code? : Option Nat) :
    printCode code? = tag (code?.map (Nat.toDigits 10)) := by
  cases code? <;> rfl

theorem digits_of_mem_map (code? : Option Nat) :
    ∀ code ∈ code?.map (Nat.toDigits 10), Digits code := by
  intro code mem
  obtain ⟨n, -, rfl⟩ := Option.map_eq_some_iff.mp mem
  exact digits_toDigits n

/-- A printed description is read as it is. -/
theorem coded?_describe (path? : Option (List Char)) (category : Category) (code : Nat)
    (first : List Char) :
    coded? path? (describe category (some code) ++ first) =
      some ⟨path?, none, category, some (Nat.toDigits 10 code), first⟩ := by
  have printed : describe category (some code) ++ first =
      lit category.word ++ (tag (some (Nat.toDigits 10 code)) ++ ':' :: ' ' :: first) := by
    simp [describe, printCode_eq_tag]
  rw [printed]
  exact coded?_append path? category (digits_toDigits code) rfl

/-- So is one behind a place. -/
theorem placed?_printPlace (path : List Char) (p : Position) (category : Category)
    (code? : Option Nat) (first : List Char) :
    placed? path ((printPlace p).tail ++ (describe category code? ++ first)) =
      some ⟨some (strip path), some (Nat.toDigits 10 p.line.toNat, Nat.toDigits 10 p.column.toNat),
        category, code?.map (Nat.toDigits 10), first⟩ := by
  have printed : (printPlace p).tail ++ (describe category code? ++ first) =
      Nat.toDigits 10 p.line.toNat ++ ',' :: (Nat.toDigits 10 p.column.toNat ++ ')' :: ':' :: ' ' ::
        (lit category.word ++ (tag (code?.map (Nat.toDigits 10)) ++ ':' :: ' ' :: first))) := by
    simp [describe, printPlace, printCode_eq_tag]
  rw [printed]
  exact placed?_append path (digits_toDigits _) (digits_toDigits _) category
    (digits_of_mem_map code?) rfl

/-- **What follows the opening parenthesis of a place**: its two numbers, the mark in which it ends,
and a category, with a code or without, before a colon. -/
inductive Places : List Char → Prop
  | intro {line column rest : List Char} {category : Category} {code? : Option (List Char)}
      (line_digits : Digits line) (column_digits : Digits column)
      (code_digits : ∀ code ∈ code?, Digits code) :
      Places (line ++ ',' :: (column ++ ')' :: ':' :: ' ' ::
        (lit category.word ++ (tag code? ++ ':' :: rest))))

theorem exists_scanMessage (s : List Char) : ∃ message, scanMessage (':' :: s) = some message := by
  unfold scanMessage
  split
  · exact ⟨_, rfl⟩
  · exact ⟨_, rfl⟩
  · next other => exact absurd rfl (other s)

theorem scanMessage_eq_some {s message : List Char} (h : scanMessage s = some message) :
    ∃ rest, s = ':' :: rest := by
  unfold scanMessage at h
  split at h
  · exact ⟨_, rfl⟩
  · exact ⟨_, rfl⟩
  · cases h

theorem scanCode_eq_some {s code rest : List Char} (h : scanCode s = some (code, rest)) :
    s = tag (some code) ++ rest ∧ Digits code := by
  obtain ⟨s', tagged, scanned⟩ := Option.bind_eq_some_iff.mp h
  obtain ⟨rfl, digits⟩ := scanDigits_eq_some scanned
  exact ⟨by rw [stripPrefix?_eq_some_iff.mp tagged, tag, List.append_assoc], digits⟩

/-- **A place is read just where one is.** -/
theorem exists_placed?_iff {path s : List Char} :
    (∃ head, placed? path s = some head) ↔ Places s := by
  constructor
  · rintro ⟨head, h⟩
    obtain ⟨⟨line, s₁⟩, first, h⟩ := Option.bind_eq_some_iff.mp h
    obtain ⟨s₂, comma, h⟩ := Option.bind_eq_some_iff.mp h
    obtain ⟨⟨column, s₃⟩, second, h⟩ := Option.bind_eq_some_iff.mp h
    obtain ⟨s₄, mark, h⟩ := Option.bind_eq_some_iff.mp h
    obtain ⟨⟨category, s₅⟩, word, h⟩ := Option.bind_eq_some_iff.mp h
    obtain ⟨begins, line_digits⟩ := scanDigits_eq_some first
    obtain ⟨goesOn, column_digits⟩ := scanDigits_eq_some second
    rw [begins, stripPrefix?_eq_some_iff.mp comma, goesOn, stripPrefix?_eq_some_iff.mp mark,
      scanCategory_eq_some word]
    dsimp only at h
    split at h
    · next code s₆ scanned =>
        obtain ⟨message, behind, -⟩ := Option.bind_eq_some_iff.mp h
        obtain ⟨rest, rfl⟩ := scanMessage_eq_some behind
        obtain ⟨tagged, code_digits⟩ := scanCode_eq_some scanned
        rw [tagged]
        exact .intro line_digits column_digits (by simpa using code_digits)
    · obtain ⟨message, behind, -⟩ := Option.bind_eq_some_iff.mp h
      obtain ⟨rest, rfl⟩ := scanMessage_eq_some behind
      have uncoded : ∀ code ∈ (none : Option (List Char)), Digits code := by simp
      exact .intro line_digits column_digits uncoded
  · rintro ⟨line_digits, column_digits, code_digits⟩
    obtain ⟨message, behind⟩ := exists_scanMessage _
    exact ⟨_, placed?_append path line_digits column_digits _ code_digits behind⟩

/-- **What a report without a path begins with**: a category and a code before a colon. -/
inductive Describes : List Char → Prop
  | intro {category : Category} {code rest : List Char} (code_digits : Digits code) :
      Describes (lit category.word ++ (tag (some code) ++ ':' :: rest))

/-- A description is read just where one is. -/
theorem exists_coded?_iff {path? : Option (List Char)} {s : List Char} :
    (∃ head, coded? path? s = some head) ↔ Describes s := by
  constructor
  · rintro ⟨head, h⟩
    obtain ⟨⟨category, s₁⟩, word, h⟩ := Option.bind_eq_some_iff.mp h
    obtain ⟨⟨code, s₂⟩, tagged, h⟩ := Option.bind_eq_some_iff.mp h
    obtain ⟨message, behind, -⟩ := Option.bind_eq_some_iff.mp h
    cases scanCategory_eq_some word
    obtain ⟨rfl, code_digits⟩ := scanCode_eq_some tagged
    obtain ⟨rest, rfl⟩ := scanMessage_eq_some behind
    exact .intro code_digits
  · rintro ⟨code_digits⟩
    obtain ⟨message, behind⟩ := exists_scanMessage _
    exact ⟨_, coded?_append path? _ code_digits behind⟩

/-! ### Marks -/

theorem closesPlace_cons_iff {c : Char} {s : List Char} (other : c ≠ ')') :
    ClosesPlace (c :: s) ↔ ClosesPlace s := by
  unfold ClosesPlace
  rw [List.infix_cons_iff, or_iff_right]
  intro first
  exact other (List.cons_prefix_cons.mp first).1.symm

/-- A text without colons has no mark, nor a part of one if it does not end in a closing
parenthesis. -/
theorem not_closesPlace_append {s t : List Char} (noColon : ':' ∉ s)
    (last : s.getLast? ≠ some ')') (rest : ¬ ClosesPlace t) : ¬ ClosesPlace (s ++ t) := by
  induction s with
  | nil => exact rest
  | cons c s ih =>
      obtain ⟨-, others⟩ := not_or.mp (mt List.mem_cons.mpr noColon)
      cases s with
      | nil =>
          have other : c ≠ ')' := by
            rintro rfl
            exact last rfl
          rwa [List.singleton_append, closesPlace_cons_iff other]
      | cons d s =>
          rw [List.getLast?_cons_cons] at last
          intro marked
          rcases List.infix_cons_iff.mp marked with first | later
          · -- a colon right behind the first character
            have colon := (List.cons_prefix_cons.mp (List.cons_prefix_cons.mp first).2).1
            exact others (colon ▸ List.mem_cons_self)
          · exact ih others last later

/-- Every place ends in a mark, with neither a parenthesis nor a colon before it. -/
theorem Places.exists_mark {s : List Char} (h : Places s) :
    ∃ place rest, s = place ++ ([')', ':', ' '] ++ rest) ∧ '(' ∉ place ∧ ')' ∉ place ∧
      ':' ∉ place := by
  obtain @⟨line, column, rest, category, code?, line_digits, column_digits, -⟩ := h
  have clear {c : Char} (digit : isDigit c = false) (comma : c ≠ ',') :
      c ∉ line ++ ',' :: column := by
    simp [line_digits.not_mem digit, column_digits.not_mem digit, comma]
  refine ⟨line ++ ',' :: column, lit category.word ++ (tag code? ++ ':' :: rest), by simp,
    ?_, ?_, ?_⟩
  · exact clear (by decide) (by decide)
  · exact clear (by decide) (by decide)
  · exact clear (by decide) (by decide)

/-- Where no mark is before an opening parenthesis, no place before it is read. -/
theorem placed?_eq_none {path s t : List Char} (noMark : ¬ ClosesPlace s) :
    placed? path (s ++ '(' :: t) = none := by
  rw [Option.eq_none_iff_forall_ne_some]
  intro head h
  obtain ⟨place, rest, cut, clear, -⟩ := (exists_placed?_iff.mp ⟨head, h⟩).exists_mark
  rcases List.append_eq_append_iff.mp cut with ⟨more, long, before⟩ | ⟨more, rfl, after⟩
  · -- the place goes on to the parenthesis
    cases more with
    | nil => cases before
    | cons c more =>
        cases (List.cons.inj before).1
        exact clear (long ▸ List.mem_append_right _ List.mem_cons_self)
  · -- the mark begins before it
    match more, after with
    | [], after => cases after
    | [_], after => cases after
    | [_, _], after => cases after
    | _ :: _ :: _ :: more, after =>
        cases after
        exact noMark ⟨place, more, by simp⟩

theorem closesPlace_of_positionedFrom? {before s : List Char} {head : Head}
    (h : positionedFrom? before s = some head) : ClosesPlace s := by
  induction s generalizing before with
  | nil => cases h
  | cons c s ih =>
      rw [positionedFrom?, Option.orElse_eq_orElse, Option.orElse_eq_or, Option.or_eq_some_iff] at h
      rcases h with first | ⟨-, later⟩
      · split at first
        · obtain ⟨place, rest, rfl, -⟩ := (exists_placed?_iff.mp ⟨head, first⟩).exists_mark
          exact ⟨c :: place, rest, by simp⟩
        · cases first
      · exact (ih later).trans (List.suffix_cons c s).isInfix

/-- **Where no mark is, no place is read.** -/
theorem positioned?_eq_none {s : List Char} (noMark : ¬ ClosesPlace s) : positioned? s = none := by
  rw [Option.eq_none_iff_forall_ne_some]
  intro head h
  exact noMark (closesPlace_of_positionedFrom? h)

theorem positionedFrom?_append {before path t : List Char} {head : Head}
    (noMark : ¬ ClosesPlace path) (nonempty : before ≠ [] ∨ path ≠ [])
    (h : placed? (before.reverse ++ path) t = some head) :
    positionedFrom? before (path ++ '(' :: t) = some head := by
  induction path generalizing before with
  | nil =>
      have known : before.isEmpty = false := by simpa using nonempty
      rw [List.append_nil] at h
      rw [List.nil_append, positionedFrom?, if_pos (by simp [known]), h]
      rfl
  | cons c path ih =>
      have noMark' : ¬ ClosesPlace path := fun marked =>
        noMark (marked.trans (List.suffix_cons c path).isInfix)
      have later : positionedFrom? (c :: before) (path ++ '(' :: t) = some head :=
        ih noMark' (Or.inl (List.cons_ne_nil c before)) (by simpa using h)
      rw [List.cons_append, positionedFrom?, placed?_eq_none noMark', ite_self, later]
      rfl

/-- **A printed place is read as it is**, whatever parentheses are in the path. -/
theorem positioned?_printPlace {path : List Char} (readable : PlacedPath path) (p : Position)
    (category : Category) (code? : Option Nat) (first : List Char) :
    positioned? (path ++ (printPlace p ++ (describe category code? ++ first))) =
      some ⟨some path, some (Nat.toDigits 10 p.line.toNat, Nat.toDigits 10 p.column.toNat),
        category, code?.map (Nat.toDigits 10), first⟩ := by
  have printed := placed?_printPlace path p category code? first
  rw [readable.stripped] at printed
  exact positionedFrom?_append readable.noMark (Or.inr readable.nonempty) printed

/-! ### Paths without places -/

theorem unplacedAfter?_append (drive' : List Char) {drive name s : List Char}
    (readable : UnplacedPath drive name) :
    unplacedAfter? drive' (name ++ ':' :: ' ' :: s) = coded? (some (drive' ++ name)) s := by
  obtain ⟨c, rest, spelled, visible⟩ := readable.visible
  have plain : ∀ c ∈ name, decide (c ≠ ':') = true := by
    intro c mem
    have other : c ≠ ':' := by
      rintro rfl
      exact readable.noColon mem
    exact decide_eq_true other
  have here : (name ++ ':' :: ' ' :: s).takeWhile (fun c => decide (c ≠ ':')) = name := by
    rw [List.takeWhile_append_of_pos plain]
    simp
  have behind : (name ++ ':' :: ' ' :: s).dropWhile (fun c => decide (c ≠ ':')) =
      ':' :: ' ' :: s := by
    rw [List.dropWhile_append_of_pos plain]
    simp
  have other : c ≠ ':' := by
    rintro rfl
    exact readable.noColon (spelled ▸ List.mem_cons_self)
  have begins : name ++ ':' :: ' ' :: s = c :: (rest ++ ':' :: ' ' :: s) := by rw [spelled]; rfl
  rw [begins] at here behind ⊢
  unfold unplacedAfter?
  dsimp only
  rw [here, behind, if_neg (by simp [visible, other, readable.last])]
  rfl

theorem unplacedAfter?_blank (drive s : List Char) : unplacedAfter? drive (' ' :: s) = none := rfl

/-- Behind a drive's colon stands no blank, so the drive alone is no path. -/
theorem unplacedAfter?_drive {letter : Char} (isLetter : letter.isAlpha = true) {name : List Char}
    (visible : Visible name) (s : List Char) :
    unplacedAfter? [] (letter :: ':' :: (name ++ s)) = none := by
  obtain ⟨c, rest, rfl, visible⟩ := visible
  have other : letter ≠ ':' := by
    rintro rfl
    exact absurd isLetter (by decide)
  have noBlank : ' ' ≠ c := by
    rintro rfl
    exact absurd visible (by decide)
  have unmarked : stripPrefix? (lit ": ") (':' :: c :: (rest ++ s)) = none := by
    show (if ' ' = c then some (rest ++ s) else none) = none
    rw [if_neg noBlank]
  simp [unplacedAfter?, other, unmarked]

/-- **A path without a place** ends before the first colon that is not that of a drive. -/
theorem unplaced?_append {drive name : List Char} (readable : UnplacedPath drive name)
    (s : List Char) :
    unplaced? ((drive ++ name) ++ ':' :: ' ' :: s) = coded? (some (drive ++ name)) s := by
  rcases readable.drive with rfl | ⟨letter, isLetter, rfl⟩
  · have found := unplacedAfter?_append [] readable (s := s)
    obtain ⟨c, rest, spelled, -⟩ := readable.visible
    unfold unplaced?
    rw [List.nil_append] at found ⊢
    rw [found, spelled]
    cases rest with
    | nil =>
        -- a letter and a colon, but what follows is a blank
        show ((if isDriveLetter c = true then unplacedAfter? [c, ':'] (' ' :: _)
          else none) <|> _) = _
        rw [unplacedAfter?_blank, ite_self]
        rfl
    | cons e rest =>
        have other : e ≠ ':' := by
          rintro rfl
          exact readable.noColon (spelled ▸ List.mem_cons_of_mem c List.mem_cons_self)
        split
        · next d rest' same =>
            exact absurd (List.cons.inj (List.cons.inj same).2).1 other
        · rfl
  · have isDrive : isDriveLetter letter = true := isLetter
    show ((if isDriveLetter letter then unplacedAfter? [letter, ':']
      (name ++ ':' :: ' ' :: s) else none) <|> unplacedAfter? [] (letter :: ':' :: (name ++ _))) = _
    rw [if_pos isDrive, unplacedAfter?_append [letter, ':'] readable,
      unplacedAfter?_drive isLetter readable.visible, Option.orElse_eq_orElse,
      Option.orElse_eq_or, Option.or_none]

/-! ### Descriptions -/

theorem describe_append (category : Category) (code : Nat) (first : List Char) :
    describe category (some code) ++ first =
      (lit category.word ++ printCode (some code)) ++ ':' :: ' ' :: first := by
  simp [describe]

/-- Words and digits are all that a category and a code consist of. -/
theorem not_mem_tag {c : Char} (word : ∀ category : Category, c ∉ lit category.word)
    (label : c ∉ lit " TS") (digit : isDigit c = false) (category : Category)
    {code? : Option (List Char)} (written : ∀ code ∈ code?, Digits code) :
    c ∉ lit category.word ++ tag code? := by
  intro mem
  rcases List.mem_append.mp mem with mem | mem
  · exact word category mem
  cases code? with
  | none => cases mem
  | some code =>
      rcases List.mem_append.mp mem with mem | mem
      · exact label mem
      · exact (written code rfl).not_mem digit mem

/-- A category with a code could be a path. -/
theorem unplacedPath_tag (category : Category) {code : List Char} (written : Digits code) :
    UnplacedPath [] (lit category.word ++ tag (some code)) where
  drive := Or.inl rfl
  visible := (visible_word category).append _
  noColon := not_mem_tag (by rintro ⟨⟩ <;> decide) (by decide) (by decide) category
    (by simpa using written)
  oneLine := not_mem_tag (by rintro ⟨⟩ <;> decide) (by decide) (by decide) category
    (by simpa using written)
  last := by
    -- it ends in a digit
    intro last
    rw [List.getLast?_append, tag, List.getLast?_append,
      List.getLast?_eq_some_getLast written.1] at last
    refine absurd ?_ (written.not_mem (c := ')') (by decide))
    exact Option.some.inj last ▸ List.getLast_mem _

theorem unplacedPath_printCode (category : Category) (code : Nat) :
    UnplacedPath [] (lit category.word ++ printCode (some code)) := by
  rw [printCode_eq_tag]
  exact unplacedPath_tag category (digits_toDigits code)

/-- A printed description has no mark if its message has none. -/
theorem not_closesPlace_describe (category : Category) (code : Nat) {first : List Char}
    (noMark : ¬ ClosesPlace first) : ¬ ClosesPlace (describe category (some code) ++ first) := by
  have plain := unplacedPath_printCode category code
  rw [describe_append]
  apply not_closesPlace_append plain.noColon plain.last
  rwa [closesPlace_cons_iff (by decide), closesPlace_cons_iff (by decide)]

theorem coded?_eq_none (path? : Option (List Char)) {s : List Char}
    (noReport : ∀ category : Category, ¬ lit category.word ++ lit " TS" <+: s) :
    coded? path? s = none := by
  rw [Option.eq_none_iff_forall_ne_some]
  intro head h
  obtain @⟨category, code, rest, -⟩ := exists_coded?_iff.mp ⟨head, h⟩
  exact noReport category ⟨code ++ ':' :: rest, by simp [tag]⟩

/-- **A printed description is not taken for a path** if its message is not that of a report. -/
theorem unplaced?_describe (category : Category) (code : Nat) {first : List Char}
    (noReport : ∀ other : Category, ¬ lit other.word ++ lit " TS" <+: first) :
    unplaced? (describe category (some code) ++ first) = none := by
  have taken := unplaced?_append (unplacedPath_printCode category code) first
  rwa [List.nil_append, ← describe_append, coded?_eq_none _ noReport] at taken

/-! ### Reading reports -/

theorem messageLines_ne_nil (message : String) : messageLines message ≠ [] := splitAt_ne_nil _ _

theorem PlainMessage.first {message : String} (h : PlainMessage message) :
    firstLine message ≠ [] ∧ strip (firstLine message) = firstLine message := by
  obtain ⟨first, more, lines⟩ := List.exists_cons_of_ne_nil (messageLines_ne_nil message)
  apply h
  rw [firstLine, lines]
  exact List.mem_cons_self

/-- Stripped lines put together have nothing to strip. -/
theorem strip_joinWith {first : List Char} {more : List (List Char)}
    (plain : ∀ line ∈ first :: more, line ≠ [] ∧ strip line = line) :
    joinWith ['\n'] (first :: more) ≠ [] ∧
      strip (joinWith ['\n'] (first :: more)) = joinWith ['\n'] (first :: more) := by
  induction more generalizing first with
  | nil => exact plain first List.mem_cons_self
  | cons second more ih =>
      obtain ⟨nonempty, stripped⟩ := plain first List.mem_cons_self
      obtain ⟨onward, rest⟩ := ih fun line mem => plain line (List.mem_cons_of_mem _ mem)
      have visible := (visible_of_strip nonempty stripped).append ['\n']
      refine ⟨?_, visible.strip_append onward rest⟩
      show (first ++ ['\n']) ++ joinWith ['\n'] (second :: more) ≠ []
      simp [nonempty]

/-- So a message has nothing to strip. -/
theorem PlainMessage.strip_toList {message : String} (h : PlainMessage message) :
    message.toList ≠ [] ∧ strip message.toList = message.toList := by
  have joined : joinWith ['\n'] (messageLines message) = message.toList := joinWith_splitAt _ _
  obtain ⟨first, rest, written⟩ := List.exists_cons_of_ne_nil (messageLines_ne_nil message)
  unfold PlainMessage at h
  rw [← joined]
  rw [written] at h ⊢
  exact strip_joinWith h

/-- The lines of a message, each stripped, are put together to the message again. -/
theorem PlainMessage.joinMessage_eq {message : String} (h : PlainMessage message)
    {more : List (List Char)} (lines : more.map strip = (messageLines message).tail) :
    joinMessage (firstLine message) more = message.toList := by
  have all : strip (firstLine message) :: more.map strip = messageLines message := by
    obtain ⟨first, rest, written⟩ := List.exists_cons_of_ne_nil (messageLines_ne_nil message)
    rw [h.first.2, lines, firstLine, written]
    rfl
  unfold joinMessage
  rw [all, messageLines, joinWith_splitAt]
  exact h.strip_toList.2

/-- The report that the parts of a line make, with a message and numbers that can be read. -/
theorem ofLines_eq {first message : List Char} {more : List (List Char)}
    {path? : Option (List Char)} {place? : Option (List Char × List Char)} {category : Category}
    {code? : Option (List Char)}
    (parts : Head.of? first = some ⟨path?, place?, category, code?, message⟩)
    (place_short : ∀ p ∈ place?, p.1.length ≤ maxDigits ∧ p.2.length ≤ maxDigits)
    (code_short : ∀ code ∈ code?, code.length ≤ maxDigits)
    (nonempty : joinMessage message more ≠ []) (named : path? ≠ some []) :
    ofLines first more = .ok (some ⟨path?.map String.ofList,
      place?.map fun p => ⟨numeral p.1, numeral p.2⟩, category, code?.map numeral,
      String.ofList (joinMessage message more)⟩) := by
  have something : (joinMessage message more).isEmpty = false := by simpa using nonempty
  have place : ∀ p ∈ place?, readNumeral p.1 = .ok (numeral p.1) ∧
      readNumeral p.2 = .ok (numeral p.2) := fun p mem =>
    ⟨if_pos (place_short p mem).1, if_pos (place_short p mem).2⟩
  have code : ∀ code ∈ code?, readNumeral code = .ok (numeral code) := fun code mem =>
    if_pos (code_short code mem)
  have path : path? = none ∨ ∃ c rest, path? = some (c :: rest) := by
    rcases path? with _ | _ | ⟨c, rest⟩
    · exact Or.inl rfl
    · exact absurd rfl named
    · exact Or.inr ⟨c, rest, rfl⟩
  unfold ofLines
  rw [parts]
  simp only [something]
  rcases path with rfl | ⟨c, rest, rfl⟩ <;> rcases place? with _ | p <;> rcases code? with _ | n
  all_goals
    simp_all only [Option.map_none, Option.map_some, Option.mem_def, Option.some.injEq, forall_eq']
    rfl

namespace Normal

variable {d : Diagnostic}

theorem plain (h : d.Normal) : PlainMessage d.message := by
  cases h <;> assumption

theorem visible_lead (h : d.Normal) : Visible d.lead := by
  cases h with
  | placed readable => exact (visible_of_strip readable.nonempty readable.stripped).append _
  | @unplaced path drive name category code message spelled readable =>
      show Visible (path.toList ++ _)
      rw [spelled]
      exact readable.visible_append.append _
  | @project category => exact (visible_word category).append _

/-- What comes before a message is on one line. -/
theorem oneLine_lead (h : d.Normal) : '\n' ∉ d.lead := by
  have digits : ∀ n, '\n' ∉ Nat.toDigits 10 n := fun n mem =>
    absurd (isDigit_of_mem_toDigits mem) (by decide)
  have described : ∀ category code?, '\n' ∉ describe category code? := by
    intro category code?
    have tagged : '\n' ∉ lit category.word ++ tag (code?.map (Nat.toDigits 10)) :=
      not_mem_tag (by rintro ⟨⟩ <;> decide) (by decide) (by decide) category
        (digits_of_mem_map code?)
    simpa [describe, printCode_eq_tag] using tagged
  cases h with
  | placed readable => simp [lead, printPlace, digits, described, readable.oneLine]
  | unplaced spelled readable =>
      have drive : '\n' ∉ _ := readable.not_mem_drive (by decide) (by decide)
      simp [lead, spelled, described, readable.oneLine, drive]
  | project => exact described _ _

/-- A printed line has nothing to strip. -/
theorem strip_headLine (h : d.Normal) : strip d.headLine = d.headLine :=
  h.visible_lead.strip_append h.plain.first.1 h.plain.first.2

/-- **The parts of a printed line are those of its report.** -/
theorem head_of? (h : d.Normal) :
    Head.of? d.headLine = some ⟨d.path?.map (·.toList), d.position?.map fun p =>
      (Nat.toDigits 10 p.line.toNat, Nat.toDigits 10 p.column.toNat), d.category,
      d.code?.map (Nat.toDigits 10), firstLine d.message⟩ := by
  unfold Head.of?
  rw [h.strip_headLine]
  cases h with
  | @placed path line column category code? message readable =>
      have printed : headLine ⟨some path, some ⟨line, column⟩, category, code?, message⟩ =
          path.toList ++ (printPlace ⟨line, column⟩ ++ (describe category code? ++
            firstLine message)) := by
        simp [headLine, lead]
      rw [printed]
      dsimp only
      rw [positioned?_printPlace readable]
      rfl
  | @unplaced path drive name category code message spelled readable _ _ noMark =>
      have printed : headLine ⟨some path, none, category, some code, message⟩ =
          (drive ++ name) ++ ':' :: ' ' :: (describe category (some code) ++
            firstLine message) := by
        simp [headLine, lead, spelled]
      have noPlace : positioned? ((drive ++ name) ++ ':' :: ' ' ::
          (describe category (some code) ++ firstLine message)) = none := by
        apply positioned?_eq_none
        rw [List.append_assoc]
        have rest : ¬ ClosesPlace (name ++ ':' :: ' ' :: (describe category (some code) ++
            firstLine message)) := by
          apply not_closesPlace_append readable.noColon readable.last
          rw [closesPlace_cons_iff (by decide), closesPlace_cons_iff (by decide)]
          exact not_closesPlace_describe category code noMark
        rcases readable.drive with rfl | ⟨letter, isLetter, rfl⟩
        · exact rest
        · have other : letter ≠ ')' := by
            rintro rfl
            exact absurd isLetter (by decide)
          show ¬ ClosesPlace (letter :: ':' :: (name ++ _))
          rwa [closesPlace_cons_iff other, closesPlace_cons_iff (by decide)]
      rw [printed]
      dsimp only
      rw [noPlace, unplaced?_append readable, coded?_describe, ← spelled]
      rfl
  | @project category code message _ _ noMark noReport =>
      show (positioned? (describe category (some code) ++ firstLine message) <|>
        unplaced? (describe category (some code) ++ firstLine message) <|>
        coded? none (describe category (some code) ++ firstLine message)) = _
      rw [positioned?_eq_none (not_closesPlace_describe category code noMark),
        unplaced?_describe category code noReport, coded?_describe]
      rfl

/-- **Reading a report undoes printing it**, however the further lines of its message are
indented. -/
theorem ofLines?_headLine (h : d.Normal) {more : List (List Char)}
    (lines : more.map strip = (messageLines d.message).tail) :
    ofLines? (d.headLine, more) = some d := by
  have parts := h.head_of?
  have message := h.plain.joinMessage_eq lines
  have nonempty := h.plain.strip_toList.1
  rw [← message] at nonempty
  cases h with
  | @placed path line column category code? message readable line_short column_short code_short =>
      have named : some path.toList ≠ some [] := by simpa using readable.nonempty
      have place_short : ∀ p ∈ some (Nat.toDigits 10 line, Nat.toDigits 10 column),
          p.1.length ≤ maxDigits ∧ p.2.length ≤ maxDigits := by
        rintro p ⟨⟩
        exact ⟨line_short, column_short⟩
      have read := ofLines_eq parts place_short (by simpa [Short] using code_short) nonempty named
      rw [message] at read
      simp [ofLines?, read, Function.comp_def, numeral_toDigits]
  | @unplaced path drive name category code message spelled readable code_short =>
      have named : some path.toList ≠ some [] := by
        obtain ⟨c, rest, begins, -⟩ := readable.visible_append
        simp [spelled, begins]
      have read := ofLines_eq parts (by simp) (by simpa [Short] using code_short) nonempty named
      rw [message] at read
      simp [ofLines?, read, numeral_toDigits]
  | @project category code message code_short =>
      have read := ofLines_eq parts (by simp) (by simpa [Short] using code_short) nonempty (by simp)
      rw [message] at read
      simp [ofLines?, read, numeral_toDigits]

end Normal

end Diagnostic

end TypeVerdict
