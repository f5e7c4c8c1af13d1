import Mathlib.Algebra.GroupWithZero.Nat
import Mathlib.Data.List.Infix
import Mathlib.Tactic.SplitIfs
import TypeVerdict.Utf8

/-!
# What is read from a stream is what its octets say

A decoder that sees all its octets at once works through them from the front.  Where the encoding of
a character begins it takes that character.  Where none does it gives up the longest part that at
least begins a character, one octet if there is no such part, and writes the replacement character
for it.  Nothing in this description speaks of what is kept between two reads, and it determines the
text: encodings are prefix free, and so are the parts that are given up.

The stream decoder takes one octet after another.  Its invariant says what the octets it holds back
are: the beginning of the encodings of exactly those characters whose numbers lie in an interval
given by what it remembers.  An octet inside the bounds narrows the interval, one outside them makes
the octets held back a part that is given up.  The first two octets of a surrogate are the
exception.  They are two parts already, but are held back together until the next octet arrives.

## Main definitions

* `Begins`: octets that begin a character
* `Faulty`: a part that is given up in front of others
* `Decodes`: the text of a sequence of octets
* `Stands`: what is remembered of the beginning of a character
* `Carries`: what is held back

## Main statements

* `Decodes.unique`: a sequence of octets has one text
* `decodes_step`: what one octet does
* `decodes_run`: what one read does
* `texts_decode`: the texts of the reads are together the text of the whole
* `flatten_texts_reads`: reads of any size have the same text
-/

namespace TypeVerdict.Utf8

/-! ### Encodings -/

/-- The last octets of the encoding of a character, each of which holds six bits of its number. -/
def trail : Nat → Nat → List Octet
  | 0, _ => []
  | count + 1, n => UInt8.ofNat (n / 64 ^ count % 64 + 0x80) :: trail count n

/-- How many octets follow the first one in the encoding of a character. -/
def trailing (n : Nat) : Nat :=
  if n ≤ 0x7F then 0 else if n ≤ 0x7FF then 1 else if n ≤ 0xFFFF then 2 else 3

/-- The first octet of the encoding of a character. -/
def leading (n : Nat) : Nat :=
  if n ≤ 0x7F then n else if n ≤ 0x7FF then n / 64 + 0xC0
  else if n ≤ 0xFFFF then n / 4096 + 0xE0 else n / 262144 + 0xF0

/-- The four lengths of an encoding, with the numbers encoded so. -/
theorem leading_trailing (n : Nat) :
    n ≤ 0x7F ∧ leading n = n ∧ trailing n = 0 ∨
      0x7F < n ∧ n ≤ 0x7FF ∧ leading n = n / 64 + 0xC0 ∧ trailing n = 1 ∨
      0x7FF < n ∧ n ≤ 0xFFFF ∧ leading n = n / 4096 + 0xE0 ∧ trailing n = 2 ∨
      0xFFFF < n ∧ leading n = n / 262144 + 0xF0 ∧ trailing n = 3 := by
  unfold leading trailing
  split_ifs <;> omega

theorem valid_toNat (c : Char) : c.toNat < 0xD800 ∨ 0xDFFF < c.toNat ∧ c.toNat < 0x110000 :=
  c.valid

theorem encode_eq (c : Char) :
    String.utf8EncodeChar c =
      UInt8.ofNat (leading c.toNat) :: trail (trailing c.toNat) c.toNat := by
  have valid := valid_toNat c
  have number : c.val.toNat = c.toNat := rfl
  unfold String.utf8EncodeChar leading trailing
  simp only [number]
  generalize c.toNat = n at valid
  split_ifs
  · rfl
  · have first : n / 64 % 32 = n / 64 := by omega
    simp [trail, first]
  · have first : n / 4096 % 16 = n / 4096 := by omega
    simp [trail, first]
  · have first : n / 262144 % 8 = n / 262144 := by omega
    simp [trail, first]

/-- No character begins with the octets behind the first one of an encoding, nor with those that
would encode a small number at length or a number beyond all characters. -/
theorem leading_bounds (c : Char) :
    leading c.toNat < 0x80 ∨ 0xC2 ≤ leading c.toNat ∧ leading c.toNat ≤ 0xF4 := by
  have valid := valid_toNat c
  have forms := leading_trailing c.toNat
  omega

theorem leading_lt (c : Char) : leading c.toNat < 256 := by
  have bounds := leading_bounds c
  omega

theorem ofNat_eq_iff {n : Nat} (small : n < 256) (b : Octet) : UInt8.ofNat n = b ↔ n = b.toNat := by
  rw [← UInt8.toNat_inj, UInt8.toNat_ofNat_of_lt' small]

theorem singleton_prefix_encode (b : Octet) (c : Char) :
    [b] <+: String.utf8EncodeChar c ↔ leading c.toNat = b.toNat := by
  rw [encode_eq, List.cons_prefix_cons, ← ofNat_eq_iff (leading_lt c)]
  simp [eq_comm]

theorem encode_ne_nil (c : Char) : String.utf8EncodeChar c ≠ [] := by
  rw [encode_eq]
  exact List.cons_ne_nil _ _

/-- **Encodings are prefix free**: at most one character is encoded at the front of some octets. -/
theorem encode_append_inj {c c' : Char} {rest rest' : List Octet}
    (same : String.utf8EncodeChar c ++ rest = String.utf8EncodeChar c' ++ rest') :
    c = c' ∧ rest = rest' := by
  have decoded (c : Char) (rest : List Octet) :
      (String.utf8EncodeChar c ++ rest).toByteArray.utf8DecodeChar? 0 = some c := by
    rw [List.toByteArray_append]
    exact ByteArray.utf8DecodeChar?_utf8EncodeChar_append
  have characters : some c = some c' := by
    rw [← decoded c rest, same, decoded c' rest']
  obtain rfl : c = c' := Option.some.inj characters
  exact ⟨rfl, List.append_cancel_left same⟩

/-! ### The text of a sequence of octets -/

/-- Octets that **begin** a character: its encoding starts with them. -/
def Begins (octets : List Octet) : Prop := ∃ c, octets <+: String.utf8EncodeChar c

theorem Begins.of_prefix {octets longer : List Octet} (begins : Begins longer)
    (front : octets <+: longer) : Begins octets :=
  begins.imp fun _ whole => front.trans whole

/-- A **part that is given up** in front of others: no character is encoded where it starts, and it
is the longest part there that begins a character, or one octet if there is none. -/
structure Faulty (part rest : List Octet) : Prop where
  nonempty : part ≠ []
  none : ∀ c, ¬ String.utf8EncodeChar c <+: part ++ rest
  begins : Begins part ∨ part.length = 1
  longest : ∀ more, more ≠ [] → more <+: rest → ¬ Begins (part ++ more)

/-- The **text of a sequence of octets**, with the replacement character for each part that is given
up. -/
inductive Decodes : List Octet → List Char → Prop where
  | nil : Decodes [] []
  | character (c : Char) {rest : List Octet} {text : List Char} (more : Decodes rest text) :
    Decodes (String.utf8EncodeChar c ++ rest) (c :: text)
  | replaced {part rest : List Octet} {text : List Char} (faulty : Faulty part rest)
    (more : Decodes rest text) : Decodes (part ++ rest) (replacement :: text)

/-- Of two parts of the same octets neither goes beyond the other. -/
theorem Faulty.prefix_antisymm {part part' rest rest' : List Octet} (faulty : Faulty part rest)
    (faulty' : Faulty part' rest') (same : part ++ rest = part' ++ rest') (front : part <+: part') :
    part = part' := by
  obtain ⟨more, rfl⟩ := front
  have behind : rest = more ++ rest' := by simpa [List.append_assoc] using same
  by_cases nothing : more = []
  · rw [nothing, List.append_nil]
  · have long : (part ++ more).length ≠ 1 := by
      have := List.length_pos_iff.2 faulty.nonempty
      have := List.length_pos_iff.2 nothing
      rw [List.length_append]
      omega
    have begins := faulty'.begins.resolve_right long
    exact absurd begins (faulty.longest more nothing (behind ▸ List.prefix_append _ _))

/-- What is given up at the front of some octets is determined. -/
theorem Faulty.unique {part part' rest rest' : List Octet} (faulty : Faulty part rest)
    (faulty' : Faulty part' rest') (same : part ++ rest = part' ++ rest') :
    part = part' ∧ rest = rest' := by
  have parts : part = part' := by
    rcases List.prefix_or_prefix_of_prefix (List.prefix_append part rest)
      (same ▸ List.prefix_append part' rest') with front | front
    · exact faulty.prefix_antisymm faulty' same front
    · exact (faulty'.prefix_antisymm faulty same.symm front).symm
  subst parts
  exact ⟨rfl, List.append_cancel_left same⟩

/-- **A sequence of octets has one text.** -/
theorem Decodes.unique {octets : List Octet} {text text' : List Char} (first : Decodes octets text)
    (second : Decodes octets text') : text = text' := by
  induction first generalizing text' with
  | nil =>
      generalize empty : ([] : List Octet) = octets at second
      cases second with
      | nil => rfl
      | character c more => exact absurd (List.append_eq_nil_iff.1 empty.symm).1 (encode_ne_nil c)
      | replaced faulty more =>
          exact absurd (List.append_eq_nil_iff.1 empty.symm).1 faulty.nonempty
  | character c more ih =>
      generalize whole : String.utf8EncodeChar c ++ _ = octets at second
      cases second with
      | nil => exact absurd (List.append_eq_nil_iff.1 whole).1 (encode_ne_nil c)
      | character c' more' =>
          obtain ⟨rfl, rfl⟩ := encode_append_inj whole
          rw [ih more']
      | replaced faulty more' => exact absurd ⟨_, whole⟩ (faulty.none c)
  | @replaced part rest text faulty more ih =>
      generalize whole : part ++ rest = octets at second
      cases second with
      | nil => exact absurd (List.append_eq_nil_iff.1 whole).1 faulty.nonempty
      | character c more' => exact absurd ⟨_, whole.symm⟩ (faulty.none c)
      | replaced faulty' more' =>
          obtain ⟨rfl, rfl⟩ := faulty.unique faulty' whole
          rw [ih more']

/-! ### The beginning of a character -/

/-- The numbers of the characters a partial one can still become: the bounds of the next octet say
what follows the bits read so far. -/
def Partial.Admits (p : Partial) (n : Nat) : Prop :=
  p.value * 64 + p.low ≤ n / 64 ^ (p.missing - 1) + 0x80 ∧
    n / 64 ^ (p.missing - 1) + 0x80 ≤ p.value * 64 + p.high

/-- **What is remembered of the beginning of a character** says which characters begin so: those it
admits, all of which exist, and behind what is held the encodings have as many octets as are
missing.  Only the first octet of a surrogate keeps the next one below the surrogates. -/
structure Stands (held : List Octet) (p : Partial) : Prop where
  nonempty : held ≠ []
  missing : 1 ≤ p.missing
  low : 0x80 ≤ p.low
  ordered : p.low ≤ p.high
  high : p.high ≤ 0xBF
  valid : ∀ n, p.Admits n → n.isValidChar
  encode : ∀ c : Char, p.Admits c.toNat →
    String.utf8EncodeChar c = held ++ trail p.missing c.toNat
  admits : ∀ c : Char, held <+: String.utf8EncodeChar c → p.Admits c.toNat
  surrogates : p.high = belowSurrogates → held = [0xED]

/-- A first octet is remembered as the interval of the characters it begins. -/
theorem stands_singleton {b : Octet} {missing value low high : Nat} (some : 1 ≤ missing)
    (above : 0x80 ≤ low) (ordered : low ≤ high) (below : high ≤ 0xBF)
    (surrogates : high = 0x9F → b.toNat = 0xED)
    (valid : ∀ n, (Partial.mk missing value low high).Admits n →
      n.isValidChar ∧ leading n = b.toNat ∧ trailing n = missing)
    (admits : ∀ n, n.isValidChar → leading n = b.toNat →
      (Partial.mk missing value low high).Admits n) :
    Stands [b] ⟨missing, value, low, high⟩ where
  nonempty := List.cons_ne_nil _ _
  missing := some
  low := above
  ordered := ordered
  high := below
  valid n inside := (valid n inside).1
  encode c inside := by
    obtain ⟨-, first, count⟩ := valid c.toNat inside
    rw [encode_eq, count, (ofNat_eq_iff (leading_lt c) b).2 first]
    rfl
  admits c front := admits c.toNat (valid_toNat c) ((singleton_prefix_encode b c).1 front)
  surrogates at_high := by
    have first : b = 0xED := UInt8.toNat_inj.1 (surrogates at_high)
    rw [first]

theorem toNat_ofNat {n : Nat} (valid : n.isValidChar) : (Char.ofNat n).toNat = n := by
  rw [Char.ofNat, dif_pos valid]
  rfl

theorem encode_of_lt {b : Octet} (small : b.toNat < 0x80) :
    String.utf8EncodeChar (Char.ofNat b.toNat) = [b] := by
  have number : (Char.ofNat b.toNat).toNat = b.toNat := toNat_ofNat (Or.inl (by omega))
  have first : leading b.toNat = b.toNat := if_pos (by omega)
  have single : trailing b.toNat = 0 := if_pos (by omega)
  rw [encode_eq, number, first, single, UInt8.ofNat_toNat]
  rfl

theorem not_begins_singleton {b : Octet}
    (outside : ¬ (b.toNat < 0x80 ∨ 0xC2 ≤ b.toNat ∧ b.toNat ≤ 0xF4)) : ¬ Begins [b] := by
  rintro ⟨c, front⟩
  rw [singleton_prefix_encode] at front
  exact outside (front ▸ leading_bounds c)

/-- What the meaning of an octet outside a character is for encodings. -/
def Lead.Means (b : Octet) : Lead → Prop
  | character c => String.utf8EncodeChar c = [b]
  | start p => Stands [b] p
  | stray => ¬ Begins [b]

/-- **Outside a character** an octet means what it is taken to mean. -/
theorem means_lead (b : Octet) : (lead b).Means b := by
  unfold lead
  dsimp only
  split_ifs with ascii _ two threeLow surrogate three fourLow four fourHigh
  · exact encode_of_lt ascii
  · exact not_begins_singleton (by omega)
  case neg => exact not_begins_singleton (by omega)
  all_goals
    refine stands_singleton (by omega) (by omega) (by omega) (by omega) (by omega)
      (fun n => ?_) (fun n => ?_)
  -- what is left compares the numbers in the interval with those of each length
  all_goals
    have forms := leading_trailing n
    unfold Partial.Admits Nat.isValidChar
    dsimp only
    omega

/-- The numbers a partial character admits behind one more octet are those it admits that have the
octet's six bits next. -/
theorem Partial.admits_next {p : Partial} {n d : Nat} (low : 0x80 ≤ p.low) (high : p.high ≤ 0xBF)
    (first : p.low ≤ d) (last : d ≤ p.high) (more : 1 < p.missing) :
    (Partial.mk (p.missing - 1) (p.value * 64 + (d - 0x80)) 0x80 0xBF).Admits n ↔
      p.Admits n ∧ n / 64 ^ (p.missing - 1) % 64 + 0x80 = d := by
  obtain ⟨m, count⟩ : ∃ m, p.missing = m + 2 := ⟨p.missing - 2, by omega⟩
  have bits : n / 64 ^ (m + 1) = n / 64 ^ m / 64 := by rw [pow_succ, Nat.div_div_eq_div_mul]
  simp only [Partial.Admits, count, Nat.add_sub_cancel, show m + 2 - 1 = m + 1 from rfl, bits]
  omega

namespace Stands

variable {held : List Octet} {p : Partial} {b : Octet}

/-- What is held begins a character, and every octet inside the bounds continues one. -/
theorem exists_encode (stands : Stands held p) {d : Nat} (first : p.low ≤ d) (last : d ≤ p.high) :
    ∃ c : Char, p.Admits c.toNat ∧ c.toNat / 64 ^ (p.missing - 1) = p.value * 64 + (d - 0x80) := by
  have low := stands.low
  have bits : (p.value * 64 + (d - 0x80)) * 64 ^ (p.missing - 1) / 64 ^ (p.missing - 1) =
      p.value * 64 + (d - 0x80) := Nat.mul_div_cancel _ (Nat.pow_pos (by omega))
  have inside : p.Admits ((p.value * 64 + (d - 0x80)) * 64 ^ (p.missing - 1)) := by
    unfold Partial.Admits
    rw [bits]
    omega
  refine ⟨Char.ofNat ((p.value * 64 + (d - 0x80)) * 64 ^ (p.missing - 1)), ?_⟩
  rw [toNat_ofNat (stands.valid _ inside)]
  exact ⟨inside, bits⟩

theorem begins (stands : Stands held p) : Begins held := by
  obtain ⟨c, inside, -⟩ := stands.exists_encode (le_refl p.low) stands.ordered
  exact ⟨c, stands.encode c inside ▸ List.prefix_append _ _⟩

/-- The octet behind what is held holds the next six bits of a character that is admitted. -/
theorem snoc_prefix_encode (stands : Stands held p) (c : Char) :
    held ++ [b] <+: String.utf8EncodeChar c ↔
      p.Admits c.toNat ∧ c.toNat / 64 ^ (p.missing - 1) % 64 + 0x80 = b.toNat := by
  obtain ⟨m, count⟩ : ∃ m, p.missing = m + 1 := ⟨p.missing - 1, by have := stands.missing; omega⟩
  have next (inside : p.Admits c.toNat) : held ++ [b] <+: String.utf8EncodeChar c ↔
      c.toNat / 64 ^ (p.missing - 1) % 64 + 0x80 = b.toNat := by
    rw [stands.encode c inside, List.prefix_append_right_inj, count, trail, List.cons_prefix_cons,
      Nat.add_sub_cancel, ← ofNat_eq_iff (by omega), eq_comm]
    simp
  constructor
  · intro front
    have inside := stands.admits c ((List.prefix_append held [b]).trans front)
    exact ⟨inside, (next inside).1 front⟩
  · rintro ⟨inside, bits⟩
    exact (next inside).2 bits

theorem not_begins_snoc (stands : Stands held p)
    (outside : ¬ (p.low ≤ b.toNat ∧ b.toNat ≤ p.high)) : ¬ Begins (held ++ [b]) := by
  rintro ⟨c, front⟩
  obtain ⟨⟨first, last⟩, bits⟩ := (stands.snoc_prefix_encode c).1 front
  have low := stands.low
  have high := stands.high
  omega

theorem encode_complete (stands : Stands held p) (first : p.low ≤ b.toNat) (last : b.toNat ≤ p.high)
    (only : p.missing ≤ 1) :
    String.utf8EncodeChar (Char.ofNat (p.value * 64 + (b.toNat - 0x80))) = held ++ [b] := by
  have low := stands.low
  have high := stands.high
  have single : p.missing = 1 := le_antisymm only stands.missing
  obtain ⟨c, inside, number⟩ := stands.exists_encode first last
  rw [single, Nat.sub_self, Nat.pow_zero, Nat.div_one] at number
  have octet : UInt8.ofNat (c.toNat % 64 + 0x80) = b := (ofNat_eq_iff (by omega) b).2 (by omega)
  rw [← number, Char.ofNat_toNat, stands.encode c inside, single]
  simp [trail, octet]

theorem snoc (stands : Stands held p) (first : p.low ≤ b.toNat) (last : b.toNat ≤ p.high)
    (more : 1 < p.missing) :
    Stands (held ++ [b]) ⟨p.missing - 1, p.value * 64 + (b.toNat - 0x80), 0x80, 0xBF⟩ where
  nonempty := by simp
  missing := by show 1 ≤ p.missing - 1; omega
  low := le_refl _
  ordered := by show 0x80 ≤ 0xBF; omega
  high := le_refl _
  valid n inside :=
    stands.valid n ((Partial.admits_next stands.low stands.high first last more).1 inside).1
  encode c inside := by
    obtain ⟨before, bits⟩ := (Partial.admits_next stands.low stands.high first last more).1 inside
    obtain ⟨m, count⟩ : ∃ m, p.missing = m + 1 := ⟨p.missing - 1, by omega⟩
    rw [count, Nat.add_sub_cancel] at bits
    have octet := (ofNat_eq_iff (by omega) b).2 bits
    rw [stands.encode c before, count, trail, octet, Nat.add_sub_cancel]
    simp
  admits c front :=
    (Partial.admits_next stands.low stands.high first last more).2
      ((stands.snoc_prefix_encode c).1 front)
  surrogates at_high := by simp [belowSurrogates] at at_high

end Stands

theorem stands_surrogate : Stands [0xED] ⟨2, 0xD, 0x80, belowSurrogates⟩ := means_lead 0xED

theorem not_begins_surrogate {b : Octet} (above : 0x9F < b.toNat) : ¬ Begins ([0xED] ++ [b]) := by
  refine stands_surrogate.not_begins_snoc ?_
  show ¬ (0x80 ≤ b.toNat ∧ b.toNat ≤ 0x9F)
  omega

/-! ### Parts that are given up -/

/-- A part is given up if no character ends in it and the octet behind it continues none. -/
theorem faulty_of_blocked {part rest : List Octet} (nonempty : part ≠ [])
    (begins : Begins part ∨ part.length = 1) (open_ : ∀ c, ¬ String.utf8EncodeChar c <+: part)
    (blocked : ∀ b ∈ rest.head?, ¬ Begins (part ++ [b])) : Faulty part rest where
  nonempty := nonempty
  begins := begins
  none c whole := by
    rcases List.prefix_or_prefix_of_prefix whole (List.prefix_append part rest) with
      short | ⟨tail, long⟩
    · exact open_ c short
    · rw [← long, List.prefix_append_right_inj] at whole
      cases tail with
      | nil => exact open_ c (by rw [← long, List.append_nil])
      | cons b tail =>
          obtain ⟨rest', rfl⟩ := whole
          exact blocked b rfl ⟨c, by rw [← long]; simp⟩
  longest more some front begins := by
    obtain ⟨b, more, rfl⟩ := List.exists_cons_of_ne_nil some
    obtain ⟨rest', rfl⟩ := front
    exact blocked b rfl (begins.of_prefix (by simp))

theorem faulty_of_not_begins {b : Octet} {rest : List Octet} (stray : ¬ Begins [b]) :
    Faulty [b] rest := by
  refine faulty_of_blocked (List.cons_ne_nil _ _) (Or.inr rfl) (fun c short => stray ⟨c, ?_⟩) ?_
  · rcases List.prefix_cons_iff.1 short with none | ⟨tail, whole, nothing⟩
    · exact absurd none (encode_ne_nil c)
    · rw [whole, List.prefix_nil.1 nothing]
  · exact fun b' _ begins => stray (begins.of_prefix (by simp))

theorem Stands.faulty {held rest : List Octet} {p : Partial} (stands : Stands held p)
    (blocked : ∀ b ∈ rest.head?, ¬ Begins (held ++ [b])) : Faulty held rest := by
  refine faulty_of_blocked stands.nonempty (Or.inl stands.begins) ?_ blocked
  rintro c ⟨between, short⟩
  obtain ⟨c', inside, -⟩ := stands.exists_encode (le_refl p.low) stands.ordered
  have whole := stands.encode c' inside
  rw [← short, List.append_assoc] at whole
  have nothing := (encode_append_inj ((List.append_nil _).trans whole)).2
  obtain ⟨m, count⟩ : ∃ m, p.missing = m + 1 := ⟨p.missing - 1, by have := stands.missing; omega⟩
  simp [count, trail] at nothing

/-! ### The octets held back -/

/-- The octets **held back** between two octets. -/
inductive Carries : Pending → List Octet → Prop where
  | nothing : Carries .nothing []
  | inside {held : List Octet} {p : Partial} (stands : Stands held p) : Carries (.inside p) held
  | surrogate {b : Octet} (above : 0x9F < b.toNat) (below : b.toNat ≤ 0xBF) :
    Carries .surrogate [0xED, b]

/-- What is held back is given up at the end and in front of an octet that does not continue it. -/
theorem Carries.given_up {pending : Pending} {held rest : List Octet} {text : List Char}
    (carries : Carries pending held) (blocked : ∀ b ∈ rest.head?, ¬ Begins (held ++ [b]))
    (more : Decodes rest text) :
    Decodes (held ++ rest) ((finish pending).map shown ++ text) := by
  cases carries with
  | nothing => exact more
  | inside stands => exact .replaced (stands.faulty blocked) more
  | @surrogate b above below =>
      have faulty : Faulty [0xED] ([b] ++ rest) := by
        refine stands_surrogate.faulty ?_
        rintro _ ⟨⟩
        exact not_begins_surrogate above
      have faulty' : Faulty [b] rest := faulty_of_not_begins (not_begins_singleton (by omega))
      show Decodes ([0xED] ++ ([b] ++ rest)) (replacement :: replacement :: text)
      exact .replaced faulty (.replaced faulty' more)

/-- Octets **yield** a text and leave something pending: the text of what is held back in front of
any others, behind that text, is theirs. -/
def Yields (octets : List Octet) (result : List (Option Char) × Pending) : Prop :=
  ∃ held, Carries result.2 held ∧ ∀ rest text, Decodes (held ++ rest) text →
    Decodes (octets ++ rest) (result.1.map shown ++ text)

theorem yields_character {octets : List Octet} {c : Char}
    (whole : String.utf8EncodeChar c = octets) : Yields octets ([some c], .nothing) := by
  refine ⟨[], .nothing, fun rest text more => ?_⟩
  rw [← whole]
  exact .character c more

theorem yields_begin (b : Octet) : Yields [b] (begin b) := by
  have means := means_lead b
  unfold begin
  cases found : lead b with
  | character c =>
      rw [found] at means
      exact yields_character means
  | start p =>
      rw [found] at means
      exact ⟨[b], .inside means, fun _ _ more => more⟩
  | stray =>
      rw [found] at means
      exact ⟨[], .nothing, fun _ _ more => .replaced (faulty_of_not_begins means) more⟩

/-- An octet in front of which what is held back is given up. -/
theorem Carries.yields_begin {pending : Pending} {held : List Octet} {b : Octet}
    (carries : Carries pending held) (blocked : ¬ Begins (held ++ [b])) :
    Yields (held ++ [b]) (finish pending ++ (begin b).1, (begin b).2) := by
  obtain ⟨kept, carries', decodes⟩ := Utf8.yields_begin b
  refine ⟨kept, carries', fun rest text more => ?_⟩
  have behind : Decodes ([b] ++ rest) ((begin b).1.map shown ++ text) := decodes rest text more
  have given_up := carries.given_up (by rintro _ ⟨⟩; exact blocked) behind
  simpa using given_up

/-- **One octet**: behind what is held back it yields what the decoder adds to the text. -/
theorem decodes_step {pending : Pending} {held : List Octet} (b : Octet)
    (carries : Carries pending held) : Yields (held ++ [b]) (step pending b) := by
  cases carries with
  | nothing => exact yields_begin b
  | @surrogate b' above below =>
      exact (Carries.surrogate above below).yields_begin
        fun begins => not_begins_surrogate above (begins.of_prefix (by simp))
  | @inside held p stands =>
      unfold step
      dsimp only
      split_ifs with bounds only above
      · exact yields_character (stands.encode_complete bounds.1 bounds.2 only)
      · exact ⟨_, .inside (stands.snoc bounds.1 bounds.2 (by omega)), fun _ _ more => more⟩
      · obtain ⟨surrogates, beyond, below⟩ := above
        rw [surrogates] at beyond
        rw [stands.surrogates surrogates]
        exact ⟨_, .surrogate beyond below, fun _ _ more => more⟩
      · exact (Carries.inside stands).yields_begin (stands.not_begins_snoc bounds)

/-- **One read**: behind what is held back it yields what the decoder adds to the text. -/
theorem decodes_run {pending : Pending} {held : List Octet} (octets : List Octet)
    (carries : Carries pending held) : Yields (held ++ octets) (run pending octets) := by
  induction octets generalizing pending held with
  | nil =>
      rw [List.append_nil]
      exact ⟨held, carries, fun _ _ more => more⟩
  | cons b octets ih =>
      obtain ⟨kept, carries', first⟩ := decodes_step b carries
      obtain ⟨kept', carries'', later⟩ := ih carries'
      refine ⟨kept', carries'', fun rest text more => ?_⟩
      have whole := first (octets ++ rest) _ (by simpa using later rest text more)
      simpa [run] using whole

/-- **The text of a sequence of octets** is what the decoder makes of them at once. -/
theorem decodes_iff (octets : List Octet) (text : List Char) :
    Decodes octets text ↔ text = decode octets := by
  obtain ⟨held, carries, decodes⟩ := decodes_run octets .nothing
  have last : Decodes (held ++ []) ((finish (run .nothing octets).2).map shown ++ []) :=
    carries.given_up (by simp) .nil
  have whole : Decodes octets (decode octets) := by
    simpa [decode, parts] using decodes [] _ (by simpa using last)
  constructor
  · exact fun first => first.unique whole
  · rintro rfl
    exact whole

/-! ### The texts of the reads -/

theorem run_append (pending : Pending) (octets more : List Octet) :
    run pending (octets ++ more) =
      ((run pending octets).1 ++ (run (run pending octets).2 more).1,
        (run (run pending octets).2 more).2) := by
  induction octets generalizing pending with
  | nil => rfl
  | cons b octets ih => simp [run, ih]

theorem flatten_unless_empty (text : List Char) : ([text].filter (!·.isEmpty)).flatten = text := by
  cases text <;> simp

theorem flatten_textsFrom (pending : Pending) (reads : List (List Octet)) :
    (textsFrom pending reads).flatten =
      ((run pending reads.flatten).1 ++ finish (run pending reads.flatten).2).map shown := by
  induction reads generalizing pending with
  | nil => exact flatten_unless_empty _
  | cons read reads ih =>
      simp only [textsFrom, List.flatten_append, flatten_unless_empty, ih, List.flatten_cons,
        run_append, List.map_append, List.append_assoc]

theorem ne_nil_of_mem_textsFrom {pending : Pending} {reads : List (List Octet)} {text : List Char}
    (member : text ∈ textsFrom pending reads) : text ≠ [] := by
  induction reads generalizing pending with
  | nil => simpa using (List.mem_filter.1 member).2
  | cons read reads ih =>
      rcases List.mem_append.1 member with first | later
      · simpa using (List.mem_filter.1 first).2
      · exact ih later

/-- **Decoding reads.**  However a sequence of octets is cut into reads, none of the texts of the
reads is empty, and together they are the text of the whole sequence, the one that is decoded at
once. -/
theorem texts_decode (reads : List (List Octet)) :
    (∀ text ∈ texts reads, text ≠ []) ∧
      (texts reads).flatten = decode reads.flatten ∧
      ∀ text, Decodes reads.flatten text ↔ text = (texts reads).flatten := by
  have together : (texts reads).flatten = decode reads.flatten := flatten_textsFrom .nothing reads
  refine ⟨fun text => ne_nil_of_mem_textsFrom, together, fun text => ?_⟩
  rw [together]
  exact decodes_iff reads.flatten text

example : texts [[0x61, 0xE2, 0x82], [0xAC], [0xED, 0xA0], [0xF0]] =
    [['a'], ['\u20AC'], [replacement, replacement], [replacement]] := by decide

theorem flatten_cut {size : Nat} (some : 0 < size) (octets : List Octet) :
    (cut size octets).flatten = octets := by
  fun_induction cut size octets with
  | case1 => omega
  | case2 => rfl
  | case3 n b bs ih => rw [List.flatten_cons, ih some, List.cons_append, List.take_append_drop]

/-- The size of the reads does not change the text of a stream. -/
theorem flatten_texts_reads {limit? : Option Nat} (some : ∀ size ∈ limit?, 0 < size)
    (octets : List Octet) : (texts (reads limit? octets)).flatten = decode octets := by
  have whole : (reads limit? octets).flatten = octets := by
    unfold reads
    cases limit? with
    | some size => exact flatten_cut (some size rfl) octets
    | none =>
        dsimp only
        split_ifs with empty
        · exact (List.isEmpty_iff.1 empty).symm
        · simp
  have together := flatten_textsFrom .nothing (reads limit? octets)
  rwa [whole] at together

end TypeVerdict.Utf8
