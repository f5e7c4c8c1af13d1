/-!
# Hexadecimal numerals

Fixed-width lower-case hexadecimal numerals, as they appear in escapes, and their reading.

## Main definitions

* `hexDigit`: one digit
* `hex`: the last `width` digits of a number
* `hexValue?`: the value of a digit in either case
-/

namespace TypeVerdict.Text

/-- The lower-case hexadecimal digit of a number below sixteen. -/
def hexDigit (n : Nat) : Char :=
  if n < 10 then Char.ofNat (48 + n) else Char.ofNat (87 + n)

/-- The last `width` hexadecimal digits of a number, most significant first. -/
def hex : Nat → Nat → List Char
  | 0, _ => []
  | width + 1, n => hex width (n / 16) ++ [hexDigit (n % 16)]

/-- The value of a hexadecimal digit in either case. -/
def hexValue? (c : Char) : Option Nat :=
  let n := c.toNat
  if 48 ≤ n && n ≤ 57 then some (n - 48)
  else if 97 ≤ n && n ≤ 102 then some (n - 87)
  else if 65 ≤ n && n ≤ 70 then some (n - 55)
  else none

/-- The number that a list of hexadecimal digits writes, `none` if one of them is not a digit. -/
def hexNumeral? (s : List Char) : Option Nat :=
  s.foldlM (fun n c => (hexValue? c).map (16 * n + ·)) 0

end TypeVerdict.Text
