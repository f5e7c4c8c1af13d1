/-!
# Decimal digits

The decimal digits of all scripts (general category Nd).  They come in runs of ten consecutive
code points, so a table of the sixty-odd zeros fixes both the class and the value of a digit.

## Main definitions

* `digitValue?`: the value of a digit, `none` for any other character
* `numeral`: the number that a sequence of digits writes
* `readNumeral`: the same for sequences up to a length

## Main statements

* `numeral_toDigits`: a number is read as it is written
* `toDigits_inj`: different numbers are written differently
-/

namespace TypeVerdict.Text

/-- The zeros of the scripts that have decimal digits of their own, ASCII apart. -/
def zeros : List Nat := [
  1632, 1776, 1984, 2406, 2534, 2662, 2790, 2918, 3046, 3174, 3302, 3430, 3558, 3664, 3792, 3872,
  4160, 4240, 6112, 6160, 6470, 6608, 6784, 6800, 6992, 7088, 7232, 7248, 42528, 43216, 43264,
  43472, 43504, 43600, 44016, 65296, 66720, 68912, 69734, 69872, 69942, 70096, 70384, 70736, 70864,
  71248, 71360, 71472, 71904, 72016, 72784, 73040, 73120, 92768, 92864, 93008, 120782, 120792,
  120802, 120812, 120822, 123200, 123632, 125264, 130032]

/-- The value of a decimal digit of any script, `none` for any other character. -/
def digitValue? (c : Char) : Option Nat :=
  let n := c.toNat
  if n < 128 then
    if 48 ≤ n && n ≤ 57 then some (n - 48) else none
  else
    (zeros.find? fun z => z ≤ n && n < z + 10).map (n - ·)

/-- Whether a character is a decimal digit of some script. -/
def isDigit (c : Char) : Bool := (digitValue? c).isSome

/-- Whether a character is an ASCII digit. -/
def isAsciiDigit (c : Char) : Bool := c.isDigit

/-- The number that a sequence of digits writes in base ten; other characters count as zero. -/
def numeral (s : List Char) : Nat :=
  s.foldl (fun n c => 10 * n + (digitValue? c).getD 0) 0

/-- A number is read only up to this many digits, leading zeros included. -/
def maxDigits : Nat := 4300

/-- A number has more digits than are read. -/
structure NumeralTooLong where
  digits : Nat
deriving DecidableEq, Repr

/-- How a number that is too long is reported. -/
def NumeralTooLong.message (e : NumeralTooLong) : String :=
  s!"Exceeds the limit ({maxDigits} digits) for integer string conversion: value has " ++
    s!"{e.digits} digits; use sys.set_int_max_str_digits() to increase the limit"

/-- The number that a sequence of digits writes, if it is not too long. -/
def readNumeral (digits : List Char) : Except NumeralTooLong Nat :=
  if digits.length ≤ maxDigits then .ok (numeral digits) else .error ⟨digits.length⟩

theorem digitValue?_of_isDigit {c : Char} (h : c.isDigit = true) :
    digitValue? c = some (c.toNat - 48) := by
  have bounds : 48 ≤ c.toNat ∧ c.toNat ≤ 57 := by
    simpa [Char.isDigit, UInt32.le_iff_toNat_le] using h
  unfold digitValue?
  rw [if_pos (by omega), if_pos (by simpa using bounds)]

theorem isDigit_of_isDigit {c : Char} (h : c.isDigit = true) : isDigit c = true := by
  rw [isDigit, digitValue?_of_isDigit h]
  rfl

theorem isDigit_of_mem_toDigits {n : Nat} {c : Char} (h : c ∈ Nat.toDigits 10 n) :
    isDigit c = true :=
  isDigit_of_isDigit (Nat.isDigit_of_mem_toDigits (by decide) (by decide) h)

/-- A number is written in digits only. -/
theorem not_mem_toDigits {c : Char} (h : c.isDigit = false) (n : Nat) : c ∉ Nat.toDigits 10 n := by
  intro mem
  rw [Nat.isDigit_of_mem_toDigits (by decide) (by decide) mem] at h
  cases h

/-- ASCII digits are read as usual. -/
theorem foldl_eq_ofDigitChars {written : List Char} (h : ∀ c ∈ written, c.isDigit = true)
    (start : Nat) :
    written.foldl (fun n c => 10 * n + (digitValue? c).getD 0) start =
      Nat.ofDigitChars 10 written start := by
  induction written generalizing start with
  | nil => rfl
  | cons c written ih =>
      rw [List.foldl_cons, digitValue?_of_isDigit (h c List.mem_cons_self),
        Nat.ofDigitChars_cons]
      exact ih (fun c mem => h c (List.mem_cons_of_mem _ mem)) _

/-- **A number is read as it is written.** -/
theorem numeral_toDigits (n : Nat) : numeral (Nat.toDigits 10 n) = n := by
  calc numeral (Nat.toDigits 10 n)
      = Nat.ofDigitChars 10 (Nat.toDigits 10 n) 0 :=
        foldl_eq_ofDigitChars (fun _ => Nat.isDigit_of_mem_toDigits (by decide) (by decide)) 0
    _ = n := Nat.ofDigitChars_ten_toDigits

/-- So different numbers are written differently. -/
theorem toDigits_inj {n m : Nat} (same : Nat.toDigits 10 n = Nat.toDigits 10 m) : n = m := by
  rw [← numeral_toDigits n, same, numeral_toDigits]

end TypeVerdict.Text
