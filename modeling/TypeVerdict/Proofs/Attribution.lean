import TypeVerdict.Proofs.Joining

/-!
# Where a report without a place belongs

A report that has no place is written as a category and a code, behind the path of its file if it
is about one, and then comes its message (`Preface`).  The message is free text, and it may quote
anything.  Where the report belongs should be settled before the message begins, but the three
shapes of a line are tried one after the other, and the first one takes any text for a path: so
a place in the message, with a category behind it, makes all that comes before it the path of a
report that has a place (`QuotesPlace`).  And since a path without a place ends at the first
colon, a report that has no path is taken for one that has if its message begins like a report
itself (`Describes`).

These are the only two ways.  A path that can be read without a place has no colon and does not end
in a closing parenthesis, and a place ends in both; so no place begins before the message, and
the first shape matches just if there is one in it (`Preface.Readable.exists_positioned?_iff`).

## Main definitions

* `Preface`: what comes before the message of a report without a place
* `Diagnostic.QuotesPlace`: a text with a place in it
* `Preface.MisledBy`: the messages that take a report elsewhere
* `Preface.Settles`: a report belongs where its preface says

## Main statements

* `Diagnostic.exists_positionedFrom?_iff`: a place is found just where one is
* `Preface.Readable.head_of?`: the parts of a line that is not misleading
* `Preface.Readable.settles_iff`: the messages that leave a report where it belongs
* `Preface.belong_together_iff`: two messages behind one preface
-/

namespace TypeVerdict

namespace Text

/-! ### The end of a text -/

/-- Only what is behind the last visible character is stripped at the end. -/
theorem stripEnd_append_of_visible (s : List Char) {t : List Char}
    (visible : isBlankText t = false) : stripEnd (s ++ t) = s ++ stripEnd t := by
  have some : (t.reverse.dropWhile isBlank).isEmpty = false := by
    rw [← Bool.not_eq_true, List.isEmpty_iff, List.dropWhile_eq_nil_iff]
    intro white
    rw [← Bool.not_eq_true] at visible
    exact visible (List.all_eq_true.mpr fun c mem => white c (List.mem_reverse.mpr mem))
  rw [stripEnd, List.reverse_append, List.dropWhile_append, if_neg (by simp [some]),
    List.reverse_append, List.reverse_reverse, stripEnd]

/-- Something is left of a text that is not blank. -/
theorem strip_ne_nil {s : List Char} (visible : isBlankText s = false) : strip s ≠ [] := by
  intro empty
  obtain ⟨t, white, whole⟩ := exists_eq_stripEnd_append (stripStart s)
  rw [← strip, empty, List.nil_append] at whole
  cases t with
  | nil =>
      have all : isBlankText s = true := List.all_eq_true.mpr (List.dropWhile_eq_nil_iff.mp whole)
      rw [all] at visible
      cases visible
  | cons c t =>
      have seen : isBlank c = false := isBlank_of_head?_stripStart (by rw [whole]; rfl)
      rw [isBlankText, List.all_cons, seen] at white
      cases white

/-- A colon is not stripped at the end, nor is anything before it. -/
theorem exists_stripEnd_colon (s rest : List Char) :
    ∃ rest', stripEnd (s ++ ':' :: rest) = s ++ ':' :: rest' := by
  have seen : isBlank ':' = false := by decide
  have visible : isBlankText (':' :: rest) = false := by simp [isBlankText, seen]
  rw [stripEnd_append_of_visible s visible, ← List.singleton_append]
  cases white : isBlankText rest with
  | true =>
      rw [stripEnd_append white]
      exact ⟨[], rfl⟩
  | false =>
      rw [stripEnd_append_of_visible _ white]
      exact ⟨stripEnd rest, rfl⟩

end Text

namespace Diagnostic

open Text

/-! ### Places in a text -/

/-- **A text with a place in it**, and a category behind the place. -/
def QuotesPlace (s : List Char) : Prop := ∃ before after, s = before ++ '(' :: after ∧ Places after

theorem not_quotesPlace_nil : ¬ QuotesPlace [] := by
  rintro ⟨before, after, split, -⟩
  simp at split

theorem quotesPlace_cons_iff {c : Char} {s : List Char} :
    QuotesPlace (c :: s) ↔ c = '(' ∧ Places s ∨ QuotesPlace s := by
  constructor
  · rintro ⟨before, after, split, places⟩
    cases before with
    | nil =>
        cases split
        exact Or.inl ⟨rfl, places⟩
    | cons d before =>
        cases split
        exact Or.inr ⟨before, after, rfl, places⟩
  · rintro (⟨rfl, places⟩ | ⟨before, after, rfl, places⟩)
    · exact ⟨[], s, rfl, places⟩
    · exact ⟨c :: before, after, rfl, places⟩

/-- **A place is found just where one is**, behind a path that is not empty. -/
theorem exists_positionedFrom?_iff {before s : List Char} (nonempty : before ≠ []) :
    (∃ head, positionedFrom? before s = some head) ↔ QuotesPlace s := by
  induction s generalizing before with
  | nil => simp [positionedFrom?, not_quotesPlace_nil]
  | cons c s ih =>
      have known : before.isEmpty = false := by simpa using nonempty
      have later := ih (List.cons_ne_nil c before)
      rw [quotesPlace_cons_iff, ← later, ← @exists_placed?_iff before.reverse]
      simp only [positionedFrom?, Option.orElse_eq_orElse, Option.orElse_eq_or, known,
        ← Option.isSome_iff_exists, Option.isSome_or]
      by_cases opens : c = '(' <;> simp [opens]

instance (s : List Char) : Decidable (QuotesPlace s) :=
  decidable_of_iff ((positionedFrom? ['('] s).isSome = true)
    (Option.isSome_iff_exists.trans (exists_positionedFrom?_iff (List.cons_ne_nil _ _)))

instance (s : List Char) : Decidable (Describes s) :=
  decidable_of_iff ((coded? none s).isSome = true)
    (Option.isSome_iff_exists.trans exists_coded?_iff)

/-- Places go up to a colon, so what follows at the end of a text does not matter. -/
theorem Places.append {s : List Char} (h : Places s) (t : List Char) : Places (s ++ t) := by
  obtain @⟨line, column, rest, category, code?, line_digits, column_digits, code_digits⟩ := h
  have longer := @Places.intro line column (rest ++ t) category code? line_digits column_digits
    code_digits
  simpa using longer

theorem Describes.append {s : List Char} (h : Describes s) (t : List Char) :
    Describes (s ++ t) := by
  obtain @⟨category, code, rest, code_digits⟩ := h
  have longer := @Describes.intro category code (rest ++ t) code_digits
  simpa using longer

/-- Blanks at the end of a text are in none of its places. -/
theorem quotesPlace_stripEnd_iff {s : List Char} : QuotesPlace (stripEnd s) ↔ QuotesPlace s := by
  constructor
  · rintro ⟨before, after, split, places⟩
    obtain ⟨white, -, whole⟩ := exists_eq_stripEnd_append s
    exact ⟨before, after ++ white, by rw [whole, split]; simp, places.append white⟩
  · rintro ⟨before, _, rfl,
      @⟨line, column, rest, category, code?, line_digits, column_digits, code_digits⟩⟩
    obtain ⟨rest', stripped⟩ := exists_stripEnd_colon (before ++ '(' :: (line ++ ',' :: (column ++
      ')' :: ':' :: ' ' :: (lit category.word ++ tag code?)))) rest
    refine ⟨before, _, ?_, @Places.intro line column rest' category code? line_digits column_digits
      code_digits⟩
    simpa using stripped

theorem describes_stripEnd_iff {s : List Char} : Describes (stripEnd s) ↔ Describes s := by
  constructor
  · intro h
    obtain ⟨white, -, whole⟩ := exists_eq_stripEnd_append s
    rw [whole]
    exact h.append white
  · rintro @⟨category, code, rest, code_digits⟩
    obtain ⟨rest', stripped⟩ := exists_stripEnd_colon (lit category.word ++ tag (some code)) rest
    rw [← List.append_assoc, stripped, List.append_assoc]
    exact .intro code_digits

/-! ### Texts without places -/

/-- Behind an opening parenthesis in a path without a place there is none, since its first colon
does not follow a closing parenthesis. -/
theorem not_places_append {name : List Char} (noColon : ':' ∉ name)
    (last : name.getLast? ≠ some ')') (s : List Char) : ¬ Places (name ++ ':' :: s) := by
  intro places
  obtain ⟨place, rest, marked, -, -, clear⟩ := places.exists_mark
  have marked : name ++ ':' :: s = (place ++ [')']) ++ ':' :: (' ' :: rest) := by simpa using marked
  have clear : ':' ∉ place ++ [')'] := by simp [clear]
  have pieces := congrArg (splitAt ':') marked
  rw [splitAt_append_cons noColon, splitAt_append_cons clear] at pieces
  rw [(List.cons.inj pieces).1] at last
  exact last List.getLast?_concat

/-- Where no parenthesis opens no place begins. -/
theorem positionedFrom?_append_of_not_mem {before s : List Char} (closed : '(' ∉ s)
    (t : List Char) :
    positionedFrom? before (s ++ t) = positionedFrom? (s.reverse ++ before) t := by
  induction s generalizing before with
  | nil => rfl
  | cons c s ih =>
      obtain ⟨other, closed⟩ := not_or.mp (mt List.mem_cons.mpr closed)
      rw [List.cons_append, positionedFrom?, if_neg (by simp [Ne.symm other]), ih closed]
      simp

/-- Nor does one in a path without a place. -/
theorem positionedFrom?_append_of_noColon {before name : List Char} (noColon : ':' ∉ name)
    (last : name.getLast? ≠ some ')') (t : List Char) :
    positionedFrom? before (name ++ ':' :: t) =
      positionedFrom? (name.reverse ++ before) (':' :: t) := by
  induction name generalizing before with
  | nil => rfl
  | cons c name ih =>
      obtain ⟨-, noColon⟩ := not_or.mp (mt List.mem_cons.mpr noColon)
      have last' : name.getLast? ≠ some ')' := by
        intro ends
        rw [List.getLast?_cons, ends] at last
        exact last rfl
      have none : placed? before.reverse (name ++ ':' :: t) = none := by
        rw [Option.eq_none_iff_forall_ne_some]
        intro head found
        exact not_places_append noColon last' t (exists_placed?_iff.mp ⟨head, found⟩)
      rw [List.cons_append, positionedFrom?, none, ite_self, ih noColon last']
      simp

/-- A line that shows a place has one. -/
theorem place?_of_positionedFrom? {before s : List Char} {head : Head}
    (h : positionedFrom? before s = some head) : head.place? ≠ none := by
  induction s generalizing before with
  | nil => cases h
  | cons c s ih =>
      rw [positionedFrom?, Option.orElse_eq_orElse, Option.orElse_eq_or, Option.or_eq_some_iff] at h
      rcases h with first | ⟨-, later⟩
      · split at first
        · obtain ⟨line_digits, column_digits, code_digits⟩ := exists_placed?_iff.mp ⟨head, first⟩
          obtain ⟨message, behind⟩ := exists_scanMessage _
          rw [placed?_append _ line_digits column_digits _ code_digits behind] at first
          cases first
          exact Option.some_ne_none _
        · cases first
      · exact ih later

theorem path?_of_coded? {path? : Option (List Char)} {s : List Char} {head : Head}
    (h : coded? path? s = some head) : head.path? = path? := by
  obtain ⟨code_digits⟩ := exists_coded?_iff.mp ⟨head, h⟩
  obtain ⟨message, behind⟩ := exists_scanMessage _
  rw [coded?_append path? _ code_digits behind] at h
  cases h
  rfl

/-- A report has a place if its line has one, and a path if its line has one that is not empty. -/
theorem exists_head_of_ofLines {first : List Char} {more : List (List Char)} {d : Diagnostic}
    (h : ofLines first more = .ok (some d)) : ∃ head, Head.of? first = some head ∧
      (d.position? = none → head.place? = none) ∧
      (d.path? = none → head.path? = none ∨ head.path? = some []) := by
  cases parts : Head.of? first with
  | none =>
      simp only [ofLines, parts] at h
      cases h
  | some head =>
      obtain ⟨path?, place?, category, code?, message⟩ := head
      refine ⟨_, rfl, ?_⟩
      unfold ofLines at h
      rw [parts] at h
      simp only [bind, Except.bind, pure, Except.pure, Functor.map, Except.map] at h
      rcases path? with _ | _ | ⟨c, path⟩ <;> rcases place? with _ | ⟨line, column⟩ <;>
        rcases code? with _ | code <;> dsimp only at h ⊢ <;> grind

end Diagnostic

/-! ### Prefaces -/

open Text Diagnostic

/-- **What comes before the message of a report without a place**: the path of its file, if it is
about one, a category and a code in digits. -/
structure Preface where
  path? : Option (List Char)
  category : Category
  code : List Char
deriving DecidableEq, Repr

namespace Preface

/-- A category and a code as they are written. -/
def described (p : Preface) : List Char :=
  lit p.category.word ++ (tag (some p.code) ++ [':', ' '])

/-- A preface as it is written. -/
def text (p : Preface) : List Char :=
  match p.path? with
  | some path => path ++ (':' :: ' ' :: p.described)
  | none => p.described

/-- **Prefaces that can be read**: the path can be read without a place, and the code is a number
that is not too long. -/
structure Readable (p : Preface) : Prop where
  path : ∀ path ∈ p.path?, ∃ drive name, path = drive ++ name ∧ UnplacedPath drive name
  digits : Digits p.code
  short : p.code.length ≤ maxDigits

/-- The report that a preface and a message make up. -/
def report (p : Preface) (message : String) : Diagnostic where
  path? := p.path?.map String.ofList
  position? := none
  category := p.category
  code? := some (numeral p.code)
  message := message

/-- **Messages that take a report elsewhere**: those with a place in them, and behind a preface
without a path those that begin like a report. -/
def MisledBy (p : Preface) (message : List Char) : Prop :=
  QuotesPlace message ∨ p.path? = none ∧ Describes message

instance (p : Preface) (message : List Char) : Decidable (p.MisledBy message) :=
  inferInstanceAs (Decidable (_ ∨ _ ∧ _))

variable {p : Preface} {message : List Char}

theorem described_append (p : Preface) (s : List Char) :
    p.described ++ s = lit p.category.word ++ (tag (some p.code) ++ ':' :: ' ' :: s) := by
  simp [described]

theorem Readable.visible (h : p.Readable) : Visible p.text := by
  unfold text
  split
  · next path known =>
      obtain ⟨drive, name, rfl, readable⟩ := h.path path known
      exact readable.visible_append.append _
  · exact (visible_word p.category).append _

theorem not_mem_described (digits : Digits p.code) {c : Char}
    (word : ∀ category : Category, c ∉ lit category.word) (label : c ∉ lit " TS")
    (digit : isDigit c = false) (colon : c ∉ [':', ' ']) : c ∉ p.described := by
  have written : ∀ code ∈ some p.code, Digits code := by simpa using digits
  have tagged := not_mem_tag word label digit p.category written
  rw [described, ← List.append_assoc]
  exact List.not_mem_append tagged colon

/-- No place begins in a preface. -/
theorem Readable.positionedFrom?_eq (h : p.Readable) (s : List Char) :
    positionedFrom? [] (p.text ++ s) = positionedFrom? p.text.reverse s := by
  have closed : '(' ∉ p.described :=
    not_mem_described h.digits (by rintro ⟨⟩ <;> decide) (by decide) (by decide) (by decide)
  unfold text
  split
  · next path known =>
      obtain ⟨drive, name, rfl, readable⟩ := h.path path known
      have closed' : '(' ∉ ':' :: ' ' :: p.described := by simp [closed]
      have inDrive : '(' ∉ drive := readable.not_mem_drive (by decide) (by decide)
      rw [List.append_assoc, List.append_assoc, positionedFrom?_append_of_not_mem inDrive,
        List.cons_append, positionedFrom?_append_of_noColon readable.noColon readable.last,
        ← List.cons_append, positionedFrom?_append_of_not_mem closed']
      simp
  · rw [positionedFrom?_append_of_not_mem closed, List.append_nil]

/-- **A line shows a place just if its message has one.** -/
theorem Readable.exists_positioned?_iff (h : p.Readable) :
    (∃ head, positioned? (p.text ++ message) = some head) ↔ QuotesPlace message := by
  have nonempty : p.text.reverse ≠ [] := by
    obtain ⟨c, rest, begins, -⟩ := h.visible
    simp [begins]
  rw [positioned?, h.positionedFrom?_eq, exists_positionedFrom?_iff nonempty]

/-- A line has nothing to strip but the end of its message. -/
theorem Readable.strip_append (h : p.Readable) (visible : isBlankText message = false) :
    strip (p.text ++ message) = p.text ++ stripEnd message := by
  obtain ⟨c, rest, begins, seen⟩ := h.visible.append message
  rw [strip, stripStart_eq_self (by simp [begins, seen]), stripEnd_append_of_visible _ visible]

/-- Without a place in its message a line shows none. -/
theorem Readable.positioned?_eq_none (h : p.Readable) (noPlace : ¬ QuotesPlace message) :
    positioned? (p.text ++ stripEnd message) = none := by
  rw [Option.eq_none_iff_forall_ne_some]
  intro head found
  exact noPlace (quotesPlace_stripEnd_iff.mp (h.exists_positioned?_iff.mp ⟨head, found⟩))

/-- A preface without a path is itself tried as one, and the message as what is behind it. -/
theorem Readable.unplaced?_eq (h : p.Readable) (unknown : p.path? = none) (s : List Char) :
    unplaced? (p.text ++ s) = coded? (some (lit p.category.word ++ tag (some p.code))) s := by
  have taken := unplaced?_append (unplacedPath_tag p.category h.digits) s
  rw [List.nil_append, List.append_assoc, ← described_append] at taken
  rw [text, unknown]
  exact taken

/-- **The parts of a line that is not misleading.** -/
theorem Readable.head_of? (h : p.Readable) (visible : isBlankText message = false)
    (clear : ¬ p.MisledBy message) :
    Head.of? (p.text ++ message) =
      some ⟨p.path?, none, p.category, some p.code, stripEnd message⟩ := by
  obtain ⟨noPlace, noReport⟩ := not_or.mp clear
  have read (path? : Option (List Char)) : coded? path? (p.described ++ stripEnd message) =
      some ⟨path?, none, p.category, some p.code, stripEnd message⟩ := by
    rw [described_append]
    exact coded?_append path? p.category h.digits rfl
  rw [Head.of?, h.strip_append visible, h.positioned?_eq_none noPlace]
  cases known : p.path? with
  | some path =>
      obtain ⟨drive, name, rfl, readable⟩ := h.path path known
      rw [text, known, List.append_assoc, List.cons_append, List.cons_append,
        unplaced?_append readable, read]
      rfl
  | none =>
      have noPath : unplaced? (p.text ++ stripEnd message) = none := by
        rw [h.unplaced?_eq known, Option.eq_none_iff_forall_ne_some]
        intro head found
        exact noReport ⟨known, describes_stripEnd_iff.mp (exists_coded?_iff.mp ⟨head, found⟩)⟩
      rw [noPath, text, known, read]
      rfl

/-- A preface is on one line. -/
theorem Readable.oneLine (h : p.Readable) : '\n' ∉ p.text := by
  have described : '\n' ∉ p.described :=
    not_mem_described h.digits (by rintro ⟨⟩ <;> decide) (by decide) (by decide) (by decide)
  unfold text
  split
  · next path known =>
      obtain ⟨drive, name, rfl, readable⟩ := h.path path known
      have inDrive : '\n' ∉ drive := readable.not_mem_drive (by decide) (by decide)
      simp [inDrive, readable.oneLine, described]
  · exact described

theorem Readable.ofEntry_eq (h : p.Readable) (oneLine : '\n' ∉ message) :
    ofEntry (p.text ++ message) = ofLines (p.text ++ message) [] := by
  rw [ofEntry, splitAt_of_not_mem (List.not_mem_append h.oneLine oneLine)]

/-- **Behind a preface a message that is not misleading is read as such.** -/
theorem Readable.ofEntry_of_clear (h : p.Readable) (oneLine : '\n' ∉ message)
    (visible : isBlankText message = false) (clear : ¬ p.MisledBy message) :
    ofEntry (p.text ++ message) = .ok (some (p.report (String.ofList (strip message)))) := by
  have joined : joinMessage (stripEnd message) [] = strip message := by
    rw [joinMessage, List.map_nil, joinWith, strip_stripEnd, strip_strip]
  have named : p.path? ≠ some [] := by
    intro empty
    obtain ⟨drive, name, spelled, readable⟩ := h.path [] empty
    obtain ⟨c, rest, begins, -⟩ := readable.visible_append
    rw [← spelled] at begins
    cases begins
  have visible' : joinMessage (stripEnd message) [] ≠ [] := joined ▸ strip_ne_nil visible
  have read := ofLines_eq (h.head_of? visible clear) (by simp) (by simpa using h.short) visible'
    named
  rw [h.ofEntry_eq oneLine, read, joined]
  rfl

/-- **A report belongs where its preface says**: whatever its message is, its path, its category and
its code are those of the preface, and it has no place. -/
def Settles (p : Preface) (message : List Char) : Prop :=
  ∃ d, ofEntry (p.text ++ message) = .ok (some d) ∧ d = p.report d.message

/-- A message with a place in it takes the report to another path. -/
theorem Readable.not_settles_of_quotesPlace (h : p.Readable) (oneLine : '\n' ∉ message)
    (visible : isBlankText message = false) (quotes : QuotesPlace message) :
    ¬ p.Settles message := by
  rintro ⟨d, read, same⟩
  rw [h.ofEntry_eq oneLine] at read
  obtain ⟨head, parts, place, -⟩ := exists_head_of_ofLines read
  obtain ⟨placed, found⟩ := h.exists_positioned?_iff.mpr (quotesPlace_stripEnd_iff.mpr quotes)
  rw [Head.of?, h.strip_append visible, found] at parts
  cases parts
  exact place?_of_positionedFrom? found (place (by rw [same]; rfl))

/-- Behind a preface without a path, so does one that begins like a report. -/
theorem Readable.not_settles_of_describes (h : p.Readable) (oneLine : '\n' ∉ message)
    (visible : isBlankText message = false) (noPlace : ¬ QuotesPlace message)
    (unknown : p.path? = none) (describes : Describes message) : ¬ p.Settles message := by
  rintro ⟨d, read, same⟩
  rw [h.ofEntry_eq oneLine] at read
  obtain ⟨head, parts, -, path⟩ := exists_head_of_ofLines read
  obtain ⟨taken, found⟩ := exists_coded?_iff.mpr (describes_stripEnd_iff.mpr describes)
  rw [Head.of?, h.strip_append visible, h.positioned?_eq_none noPlace, h.unplaced?_eq unknown,
    found] at parts
  cases parts
  have noPath : d.path? = none := by rw [same, report, unknown]; rfl
  rw [path?_of_coded? found] at path
  obtain ⟨c, rest, begins, -⟩ := visible_word p.category
  rcases path noPath with missing | empty
  · cases missing
  · rw [begins] at empty
    cases empty

/-- **The messages that leave a report where it belongs** are those that are not misleading. -/
theorem Readable.settles_iff (h : p.Readable) (oneLine : '\n' ∉ message)
    (visible : isBlankText message = false) : p.Settles message ↔ ¬ p.MisledBy message := by
  constructor
  · rintro settles (quotes | ⟨unknown, describes⟩)
    · exact h.not_settles_of_quotesPlace oneLine visible quotes settles
    · by_cases quotes : QuotesPlace message
      · exact h.not_settles_of_quotesPlace oneLine visible quotes settles
      · exact h.not_settles_of_describes oneLine visible quotes unknown describes settles
  · intro clear
    exact ⟨_, h.ofEntry_of_clear oneLine visible clear, rfl⟩

/-- **Two lines of one preface belong together**: both are reports, they differ in their messages at
most, and they belong where the preface says. -/
def BelongTogether (p : Preface) (m₁ m₂ : List Char) : Prop :=
  ∃ d₁ d₂, ofEntry (p.text ++ m₁) = .ok (some d₁) ∧ ofEntry (p.text ++ m₂) = .ok (some d₂) ∧
    { d₁ with message := d₂.message } = d₂ ∧ d₂ = p.report d₂.message

/-- **A message does not decide where its report belongs** unless it is misleading.  Behind one
preface two messages make up reports of the same path, category and code, which are those of
the preface, and without a place, exactly if neither of them quotes a place and, where the preface
has no path, neither of them begins like a report. -/
theorem belong_together_iff (readable : p.Readable) {m₁ m₂ : List Char}
    (oneLine₁ : '\n' ∉ m₁) (visible₁ : isBlankText m₁ = false)
    (oneLine₂ : '\n' ∉ m₂) (visible₂ : isBlankText m₂ = false) :
    p.BelongTogether m₁ m₂ ↔ ¬ p.MisledBy m₁ ∧ ¬ p.MisledBy m₂ := by
  rw [← readable.settles_iff oneLine₁ visible₁, ← readable.settles_iff oneLine₂ visible₂]
  constructor
  · rintro ⟨d₁, d₂, read₁, read₂, alike, same₂⟩
    refine ⟨⟨d₁, read₁, ?_⟩, d₂, read₂, same₂⟩
    have same₁ : { d₁ with message := d₂.message } = p.report d₂.message := alike.trans same₂
    exact congrArg (fun d : Diagnostic => { d with message := d₁.message }) same₁
  · rintro ⟨⟨d₁, read₁, same₁⟩, d₂, read₂, same₂⟩
    refine ⟨d₁, d₂, read₁, read₂, ?_, same₂⟩
    rw [same₁, same₂]
    rfl

/-- A preface about a file. -/
def aboutFile : Preface := ⟨some "a.ts".toList, .error, "1".toList⟩

/-- A preface about the whole project. -/
def aboutProject : Preface := ⟨none, .error, "1".toList⟩

theorem readable_aboutFile : aboutFile.Readable where
  path := by
    rintro path ⟨⟩
    exact ⟨[], _, rfl, Or.inl rfl, ⟨_, _, rfl, by decide⟩, by decide, by decide, by decide⟩
  digits := by decide
  short := by decide

theorem readable_aboutProject : aboutProject.Readable where
  path := by simp [aboutProject]
  digits := by decide
  short := by decide

/-- A place without a category is no report, so it does not mislead. -/
theorem belong_together_mentioning :
    aboutFile.Readable ∧ ¬ aboutFile.MisledBy "m".toList ∧
    ¬ aboutFile.MisledBy "see b.ts(1,2): note".toList ∧
    aboutFile.BelongTogether "m".toList "see b.ts(1,2): note".toList := by
  have clear₁ : ¬ aboutFile.MisledBy "m".toList := by decide
  have clear₂ : ¬ aboutFile.MisledBy "see b.ts(1,2): note".toList := by decide
  exact ⟨readable_aboutFile, clear₁, clear₂, (belong_together_iff readable_aboutFile (by decide)
    (by decide) (by decide) (by decide)).mpr ⟨clear₁, clear₂⟩⟩

/-- **A message can take its report elsewhere**: behind a path by quoting a report with a place, and
behind no path by beginning like a report. -/
theorem not_belong_together_quoting :
    aboutFile.Readable ∧
    (ofEntry (aboutFile.text ++ "see b.ts(1,2): error TS9: n".toList)).toOption =
      some (some ⟨some "a.ts: error TS1: see b.ts", some ⟨1, 2⟩, .error, some 9, "n"⟩) ∧
    ¬ aboutFile.BelongTogether "m".toList "see b.ts(1,2): error TS9: n".toList ∧
    aboutProject.Readable ∧
    (ofEntry (aboutProject.text ++ "error TS2: n".toList)).toOption =
      some (some ⟨some "error TS1", none, .error, some 2, "n"⟩) ∧
    ¬ aboutProject.BelongTogether "m".toList "error TS2: n".toList := by
  have placed : (ofEntry (aboutFile.text ++ "see b.ts(1,2): error TS9: n".toList)).toOption =
      some (some ⟨some "a.ts: error TS1: see b.ts", some ⟨1, 2⟩, .error, some 9, "n"⟩) := by
    decide +kernel
  have named : (ofEntry (aboutProject.text ++ "error TS2: n".toList)).toOption =
      some (some ⟨some "error TS1", none, .error, some 2, "n"⟩) := by
    decide +kernel
  refine ⟨readable_aboutFile, placed, ?_, readable_aboutProject, named, ?_⟩
  · rintro ⟨-, d, -, read, -, same⟩
    rw [read] at placed
    cases placed
    exact absurd same (by decide)
  · rintro ⟨-, d, -, read, -, same⟩
    rw [read] at named
    cases named
    exact absurd same (by decide)

end Preface

end TypeVerdict
