import TypeVerdict.Markers
import TypeVerdict.Text.Lines

/-!
# The standard checker's banners

The banners of the standard checker are given as patterns, and patterns are matched
by going back and forth.  The two banners do not need that: from any place they can
be read off in one pass from left to right, by the plain grammar `Banner.behind?`.
This file shows that the matcher, for all its choices, finds exactly what the
grammar reads.

Two things make the choices harmless.  A word in the middle of a banner must be
followed by a blank, which no word contains, so only the whole word will do; and
the letter that makes a plural must be followed by a full stop, so it is taken if
it is there.

## Main definitions

* `Banner`: one of the two banners
* `Banner.behind?`: the grammar, as a function to the text behind a banner
* `Banner.Writes`: the texts that are a banner
* `Pattern.Reads`: a continuation that sees nothing but the text in front of it

## Main statements

* `Banner.reads_pattern`: the matcher finds what the grammar reads
* `Banner.behind?_eq_some_iff`: the grammar reads what is written
* `Banner.Writes.not_prefix_inside`: no banner begins inside another
-/

namespace TypeVerdict

open Text Pattern

/-- One of the two banners of the standard checker. -/
inductive Banner where
  /-- A new pass begins. -/
  | rerun
  /-- A pass is complete. -/
  | passEnd
deriving DecidableEq, Repr

namespace Banner

/-- The pattern of a banner. -/
def pattern : Banner → Pattern
  | rerun => Markers.rerunPattern
  | passEnd => Markers.passEndPattern

/-- What stands behind the count of errors in the banner of a complete pass. -/
def behindCount? (s : List Char) : Option (List Char) :=
  (stripPrefix? (lit " error") s).bind fun s =>
    stripPrefix? (lit ". Watching for") ((stripPrefix? ['s'] s).getD s)

/-- **The grammar of the banners.**  The text behind a banner that begins a text,
`none` if the text does not begin with one. -/
def behind? : Banner → List Char → Option (List Char)
  | rerun, s => stripPrefix? (lit "File change detected") s
  | passEnd, s => (stripPrefix? (lit "Found ") s).bind fun s =>
      if s.takeWhile isWord = [] then none else behindCount? (s.dropWhile isWord)

end Banner

/-! ### Reading without looking back -/

namespace Pattern

/-- A continuation that sees nothing but the text in front of it, and what it makes
of that text. -/
def Reads (k : Next) (read : List Char → Option (List Char)) : Prop :=
  ∀ c : Cursor, (k c).map Cursor.rest = read c.rest

theorem reads_some : Reads some some := fun _ => rfl

variable {k : Next} {read : List Char → Option (List Char)}

/-- Patterns one after the other are matched one after the other. -/
theorem run_chain_cons (p : Pattern) (ps : List Pattern) (k : Next) :
    run (chain (p :: ps)) k = run p (run (chain ps) k) := by
  cases ps with
  | nil => rfl
  | cons q more => rfl

theorem run_chain_append (ps qs : List Pattern) (k : Next) :
    run (chain (ps ++ qs)) k = run (chain ps) (run (chain qs) k) := by
  induction ps with
  | nil => rfl
  | cons p ps ih => rw [List.cons_append, run_chain_cons, run_chain_cons, ih]

theorem run_chain_singleton (p : Pattern) (k : Next) : run (chain [p]) k = run p k := rfl

/-- The set of a single character holds that character and no other. -/
theorem holds_char (x y : Char) :
    CharClass.holds y (.set false [.range x.toNat x.toNat]) = decide (x = y) := by
  by_cases same : x = y
  · simp [CharClass.holds, SetItem.holds, same]
  · have other : x.toNat ≠ y.toNat := fun h => same (Char.toNat_inj.mp h)
    simp only [CharClass.holds, List.any_cons, SetItem.holds, List.any_nil, same]
    simp
    omega

theorem Reads.char (hk : Reads k read) (x : Char) :
    Reads (run (char x) k) fun s => (stripPrefix? [x] s).bind read := by
  intro c
  rw [Pattern.char, run]
  split
  · next nil => simp [nil, stripPrefix?]
  · next y r cons =>
      by_cases same : x = y
      · simp [cons, stripPrefix?, holds_char, same, hk _]
      · simp [cons, stripPrefix?, holds_char, same]

/-- A fixed text is matched by stripping it. -/
theorem Reads.literal (hk : Reads k read) (text : List Char) :
    Reads (run (chain (text.map Pattern.char)) k) fun s => (stripPrefix? text s).bind read := by
  induction text with
  | nil => exact hk
  | cons x text ih =>
      intro c
      rw [List.map_cons, run_chain_cons, ih.char x c]
      cases c.rest with
      | nil => rfl
      | cons y r => by_cases same : x = y <;> simp [stripPrefix?, same]

/-- As many further characters of a set as can be.  If what follows cannot begin with
a character of the set, all of them are taken and no fewer will do. -/
theorem reads_mostRounds {cls : CharClass} (hk : Reads k read)
    (refuses : ∀ x r, cls.holds x → read (x :: r) = none) (n : Nat) (last? : Option Nat)
    (c : Cursor) (enough : c.rest.length < n) (moved : last? ≠ some c.offset) :
    (mostRounds (run (one cls)) k n none last? c).map Cursor.rest =
      read (c.rest.dropWhile cls.holds) := by
  induction n generalizing last? c with
  | zero => omega
  | succ n ih =>
      -- the round before began elsewhere, so nothing forbids another one
      have may : mayRepeat none last? c = true := by simp [mayRepeat, moved]
      rw [mostRounds, if_pos may, run, Option.orElse_eq_orElse, Option.orElse_eq_or]
      cases rest : c.rest with
      | nil => simp [hk c, rest]
      | cons x r =>
          by_cases holds : cls.holds x
          · -- one more round is tried first, and to stop here would not do
            have here := ih (some c.offset) ⟨c.offset + 1, some x, r⟩
              (by rw [rest] at enough; simpa using enough) (by simp)
            have none : k c = none := by
              have := hk c
              rw [rest, refuses x r holds] at this
              simpa using this
            simp [holds, none, here]
          · simp [holds, hk c, rest]

/-- One or more characters of a set, under the same condition. -/
theorem Reads.word {cls : CharClass} (hk : Reads k read)
    (refuses : ∀ x r, cls.holds x → read (x :: r) = none) :
    Reads (run (repeated .greedy 1 none (one cls)) k) fun s =>
      if s.takeWhile cls.holds = [] then none else read (s.dropWhile cls.holds) := by
  intro c
  show (run (one cls) (fun c => mostRounds (run (one cls)) k (c.rest.length + 2) none none c)
    c).map Cursor.rest = _
  rw [run]
  split
  · next nil => simp [nil]
  · next x r cons =>
      by_cases holds : cls.holds x
      · have here := reads_mostRounds hk refuses (r.length + 2) none
          ⟨c.offset + 1, some x, r⟩ (by simp) (by simp)
        simp [cons, holds, here]
      · simp [cons, holds]

/-- A character that may be there.  If what follows cannot begin with it, it is taken
if it is there. -/
theorem Reads.optional (hk : Reads k read) {x : Char}
    (refuses : ∀ r, read (x :: r) = none) :
    Reads (run (repeated .greedy 0 (some 1) (.char x)) k) fun s =>
      read ((stripPrefix? [x] s).getD s) := by
  intro c
  have one : ∀ d : Cursor, mostRounds (run (.char x)) k (c.rest.length + 1) (some 0)
      (some c.offset) d = k d := by
    intro d
    simp [mostRounds, mayRepeat]
  show (mostRounds (run (.char x)) k (c.rest.length + 2) (some 1) none c).map Cursor.rest = _
  rw [mostRounds, if_pos (by simp [mayRepeat]), Option.orElse_eq_orElse, Option.orElse_eq_or]
  show (Option.or (run (.char x) (mostRounds (run (.char x)) k (c.rest.length + 1) (some 0)
    (some c.offset)) c) (k c)).map _ = _
  rw [funext one]
  have here := hk.char x c
  have back := hk c
  cases rest : c.rest with
  | nil =>
      rw [rest] at here back
      simp [stripPrefix?] at here
      simp [here, back, stripPrefix?]
  | cons y r =>
      rw [rest] at here back
      by_cases same : x = y
      · subst same
        rw [refuses] at back
        simp [stripPrefix?] at here back
        simp [stripPrefix?, here, back]
      · simp [stripPrefix?, same] at here
        simp [stripPrefix?, same, here, back]

end Pattern

/-! ### The banners -/

namespace Banner

theorem reads_rerun : Reads (run rerun.pattern some) rerun.behind? := by
  intro c
  rw [pattern, Markers.rerunPattern, literal, reads_some.literal]
  exact Option.bind_fun_some _

theorem reads_count :
    Reads (run (chain (" error".toList.map Pattern.char ++
      [.repeated .greedy 0 (some 1) (.char 's')] ++
      ". Watching for".toList.map Pattern.char)) some) behindCount? := by
  have closing : Reads (run (chain (". Watching for".toList.map Pattern.char)) some)
      (stripPrefix? (lit ". Watching for")) := by
    intro c
    rw [reads_some.literal]
    exact Option.bind_fun_some _
  have plural := closing.optional (x := 's') fun r => by simp [stripPrefix?, lit]
  intro c
  rw [List.append_assoc, run_chain_append, run_chain_append, run_chain_singleton]
  exact plural.literal _ c

theorem not_isWord_blank : isWord ' ' = false := by decide +kernel

/-- What the set of the pattern holds are the characters of words. -/
theorem holds_word (x : Char) :
    CharClass.holds x (.set false [.named .word false]) = isWord x := by
  simp [CharClass.holds, SetItem.holds, ClassName.holds]

theorem reads_passEnd : Reads (run passEnd.pattern some) passEnd.behind? := by
  have refuses : ∀ x r, CharClass.holds x (.set false [.named .word false]) →
      behindCount? (x :: r) = none := by
    intro x r holds
    have other : ' ' ≠ x := by
      rintro rfl
      rw [holds_word, not_isWord_blank] at holds
      cases holds
    rw [behindCount?, lit]
    simp [stripPrefix?, other]
  intro c
  rw [pattern, Markers.passEndPattern, List.append_assoc, List.append_assoc, List.append_assoc,
    run_chain_append, run_chain_append, run_chain_singleton]
  have count := reads_count
  rw [List.append_assoc] at count
  rw [(count.word refuses).literal _ c]
  simp only [holds_word]
  rfl

/-- **The matcher finds what the grammar reads**, from any place. -/
theorem reads_pattern (b : Banner) : Reads (run b.pattern some) b.behind? := by
  cases b with
  | rerun => exact reads_rerun
  | passEnd => exact reads_passEnd

/-! ### The texts of a banner -/

/-- The texts that are a banner. -/
inductive Writes : Banner → List Char → Prop where
  | rerun : Writes .rerun (lit "File change detected")
  | passEnd {word plural : List Char} (nonempty : word ≠ []) (letters : ∀ c ∈ word, isWord c)
      (hplural : plural = [] ∨ plural = ['s']) :
      Writes .passEnd
        (lit "Found " ++ word ++ (lit " error" ++ plural ++ lit ". Watching for"))

theorem takeWhile_isWord_append {word : List Char} (letters : ∀ c ∈ word, isWord c)
    {x : Char} (other : isWord x = false) (r : List Char) :
    (word ++ x :: r).takeWhile isWord = word := by
  rw [List.takeWhile_append_of_pos letters]
  simp [other]

theorem dropWhile_isWord_append {word : List Char} (letters : ∀ c ∈ word, isWord c)
    {x : Char} (other : isWord x = false) (r : List Char) :
    (word ++ x :: r).dropWhile isWord = x :: r := by
  rw [List.dropWhile_append_of_pos letters]
  simp [other]

/-- What stands behind the count of errors, as a text. -/
theorem behindCount?_eq_some_iff {s r : List Char} :
    behindCount? s = some r ↔ ∃ plural, (plural = [] ∨ plural = ['s']) ∧
      s = lit " error" ++ plural ++ lit ". Watching for" ++ r := by
  unfold behindCount?
  constructor
  · intro h
    obtain ⟨t, ht, h⟩ := Option.bind_eq_some_iff.mp h
    rw [stripPrefix?_eq_some_iff] at ht h
    cases plural? : stripPrefix? ['s'] t with
    | none =>
        rw [plural?, Option.getD_none] at h
        exact ⟨[], Or.inl rfl, by simp [ht, h]⟩
    | some u =>
        rw [plural?, Option.getD_some] at h
        rw [stripPrefix?_eq_some_iff] at plural?
        exact ⟨['s'], Or.inr rfl, by simp [ht, plural?, h]⟩
  · rintro ⟨plural, rfl | rfl, rfl⟩
    · refine Option.bind_eq_some_iff.mpr ⟨lit ". Watching for" ++ r, ?_, ?_⟩
      · simp [stripPrefix?_eq_some_iff]
      · have absent : stripPrefix? ['s'] (lit ". Watching for" ++ r) = none := by
          simp [stripPrefix?, lit]
        rw [absent, Option.getD_none, stripPrefix?_eq_some_iff]
    · refine Option.bind_eq_some_iff.mpr ⟨['s'] ++ lit ". Watching for" ++ r, ?_, ?_⟩
      · simp [stripPrefix?_eq_some_iff]
      · have present : stripPrefix? ['s'] (['s'] ++ lit ". Watching for" ++ r) =
            some (lit ". Watching for" ++ r) := by
          simp [stripPrefix?_eq_some_iff]
        rw [present, Option.getD_some, stripPrefix?_eq_some_iff]

/-- **A banner is read off where it is written**, and what is behind it is what
follows its text. -/
theorem behind?_eq_some_iff {b : Banner} {s r : List Char} :
    b.behind? s = some r ↔ ∃ text, b.Writes text ∧ s = text ++ r := by
  cases b with
  | rerun =>
      rw [behind?, stripPrefix?_eq_some_iff]
      constructor
      · rintro rfl
        exact ⟨_, .rerun, rfl⟩
      · rintro ⟨text, ⟨⟩, rfl⟩
        rfl
  | passEnd =>
      rw [behind?]
      constructor
      · intro h
        obtain ⟨t, ht, h⟩ := Option.bind_eq_some_iff.mp h
        split at h
        · cases h
        · next nonempty =>
            obtain ⟨plural, hplural, hrest⟩ := behindCount?_eq_some_iff.mp h
            have letters : ∀ c ∈ t.takeWhile isWord, isWord c :=
              List.all_eq_true.mp List.all_takeWhile
            refine ⟨_, .passEnd nonempty letters hplural, ?_⟩
            calc s = lit "Found " ++ (t.takeWhile isWord ++ t.dropWhile isWord) := by
                  rw [List.takeWhile_append_dropWhile, stripPrefix?_eq_some_iff.mp ht]
              _ = _ := by rw [hrest]; simp
      · rintro ⟨text, writes, rfl⟩
        cases writes with
        | @passEnd word plural nonempty letters hplural =>
            refine Option.bind_eq_some_iff.mpr
              ⟨word ++ ' ' :: (lit "error" ++ plural ++ lit ". Watching for" ++ r), ?_, ?_⟩
            · rw [stripPrefix?_eq_some_iff]
              simp [lit]
            · rw [takeWhile_isWord_append letters not_isWord_blank, if_neg nonempty,
                dropWhile_isWord_append letters not_isWord_blank, behindCount?_eq_some_iff]
              exact ⟨plural, hplural, by simp [lit]⟩

theorem Writes.behind? {b : Banner} {text : List Char} (h : b.Writes text) (r : List Char) :
    b.behind? (text ++ r) = some r :=
  behind?_eq_some_iff.mpr ⟨text, h, rfl⟩

theorem Writes.ne_nil {b : Banner} {text : List Char} (h : b.Writes text) : text ≠ [] := by
  cases h <;> simp [lit]

/-- Banners begin with a capital letter. -/
theorem Writes.head? {b : Banner} {text : List Char} (h : b.Writes text) :
    text.head? = some 'F' := by
  cases h <;> simp [lit]

/-- No text begins with two banners, nor with one banner in two ways. -/
theorem Writes.unique {b b' : Banner} {text text' r r' : List Char} (h : b.Writes text)
    (h' : b'.Writes text') (same : text ++ r = text' ++ r') : b = b' ∧ text = text' := by
  have banner : b = b' := by
    cases h <;> cases h' <;> simp [lit] at same ⊢
  subst banner
  have read := h.behind? r
  rw [same, h'.behind?, Option.some_inj] at read
  exact ⟨rfl, List.append_cancel_right (read ▸ same)⟩

/-- A banner begins with two words, each of them followed by a blank. -/
theorem Writes.eq_words {b : Banner} {text : List Char} (h : b.Writes text) :
    ∃ first second more, (∀ c ∈ first, isWord c) ∧ (∀ c ∈ second, isWord c) ∧
      text = first ++ ' ' :: (second ++ ' ' :: more) := by
  cases h with
  | rerun =>
      have letters : (lit "File").all isWord ∧ (lit "change").all isWord := by decide +kernel
      exact ⟨lit "File", lit "change", lit "detected", List.all_eq_true.mp letters.1,
        List.all_eq_true.mp letters.2, by simp [lit]⟩
  | @passEnd word plural _ letters _ =>
      have found : (lit "Found").all isWord := by decide +kernel
      exact ⟨lit "Found", word, lit "error" ++ plural ++ lit ". Watching for",
        List.all_eq_true.mp found, letters, by simp [lit]⟩

/-- Behind its first character, a banner can have a capital letter only in the word that
is the count.  Behind this word, one more word and a full stop follow. -/
theorem Writes.drop_eq_of_capital {b : Banner} {text : List Char} (h : b.Writes text) {i : Nat}
    (inside : 0 < i) (capital : text[i]? = some 'F') :
    ∃ first second more : List Char, (∀ c ∈ first, isWord c) ∧ (∀ c ∈ second, isWord c) ∧
      text.drop i = first ++ ' ' :: (second ++ '.' :: more) := by
  cases h with
  | rerun =>
      have small : i < (lit "File change detected").length :=
        (List.getElem?_eq_some_iff.mp capital).1
      have none : ∀ i < (lit "File change detected").length, 0 < i →
          (lit "File change detected")[i]? ≠ some 'F' := by decide
      exact absurd capital (none i small inside)
  | @passEnd word plural _ letters hplural =>
      rw [List.append_assoc] at capital ⊢
      rcases Nat.lt_or_ge i (lit "Found ").length with early | late
      · rw [List.getElem?_append_left early] at capital
        have none : ∀ i < (lit "Found ").length, 0 < i → (lit "Found ")[i]? ≠ some 'F' := by
          decide
        exact absurd capital (none i early inside)
      · obtain ⟨j, rfl⟩ := Nat.exists_eq_add_of_le late
        rw [List.getElem?_append_right late, Nat.add_sub_cancel_left] at capital
        rw [List.drop_append, List.drop_eq_nil_of_le (by omega), Nat.add_sub_cancel_left]
        rcases Nat.le_total j word.length with inWord | behind
        · refine ⟨word.drop j, lit "error" ++ plural, lit " Watching for",
            fun c mem => letters c (List.mem_of_mem_drop mem), ?_, ?_⟩
          · refine List.all_eq_true.mp ?_
            rcases hplural with rfl | rfl <;> decide +kernel
          · rw [List.drop_append_of_le_length inWord]
            simp [lit]
        · rw [List.getElem?_append_right behind] at capital
          have mem := List.mem_of_getElem? capital
          rcases hplural with rfl | rfl <;> exact absurd mem (by decide)

/-- **Banners do not overlap**: none begins inside another. -/
theorem Writes.not_prefix_inside {b b' : Banner} {text text' r : List Char}
    (h : b.Writes text) (h' : b'.Writes text') {i : Nat} (inside : 0 < i)
    (before : i < text.length) : ¬ text' <+: text.drop i ++ r := by
  rintro ⟨behind, same⟩
  have capital : text[i]? = some 'F' := by
    have first := congrArg List.head? same
    rw [List.head?_append, h'.head?, List.head?_append, List.head?_drop,
      List.getElem?_eq_getElem before] at first
    rw [List.getElem?_eq_getElem before]
    exact first.symm
  obtain ⟨first, second, more, hfirst, hsecond, hdrop⟩ := h.drop_eq_of_capital inside capital
  obtain ⟨first', second', more', hfirst', hsecond', rfl⟩ := h'.eq_words
  rw [hdrop] at same
  simp only [List.append_assoc, List.cons_append] at same
  have rest := congrArg (List.dropWhile isWord) same
  rw [dropWhile_isWord_append hfirst' not_isWord_blank,
    dropWhile_isWord_append hfirst not_isWord_blank, List.cons.injEq] at rest
  have next := congrArg (List.dropWhile isWord) rest.2
  rw [dropWhile_isWord_append hsecond' not_isWord_blank,
    dropWhile_isWord_append hsecond (by decide +kernel), List.cons.injEq] at next
  exact absurd next.1 (by decide)

end Banner

end TypeVerdict
