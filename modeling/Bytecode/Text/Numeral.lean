/-!
Decimal numerals of integers: how they are written, and which texts denote one.

Writing is the plain decimal form with `-` before a negative number. Reading is
wider: one `+` or `-` may come first, and any number of leading zeros.
-/

namespace Bytecode

namespace Numeral

/-- The decimal digits of a natural number. -/
def natural (n : Nat) : List Char :=
  Nat.toDigits 10 n

/-- An integer in decimal, with `-` before a negative one. -/
def integer (i : Int) : List Char :=
  if i < 0 then '-' :: natural i.natAbs else natural i.natAbs

/-- The natural number that one or more decimal digits denote. -/
def natural? (digits : List Char) : Option Nat :=
  if digits ≠ [] ∧ digits.all Char.isDigit then
    some (Nat.ofDigitChars 10 digits 0)
  else none

/-- The integer that an optional sign and one or more decimal digits denote. -/
def integer? (text : List Char) : Option Int :=
  match text with
  | '+' :: digits => (natural? digits).map Int.ofNat
  | '-' :: digits => (natural? digits).map fun n => -Int.ofNat n
  | digits => (natural? digits).map Int.ofNat

/-- An integer as a 64-bit word, if it is in range. -/
def word? (i : Int) : Option Int64 :=
  if -0x8000000000000000 ≤ i ∧ i ≤ 0x7FFFFFFFFFFFFFFF then some (Int64.ofInt i)
  else none

theorem word?_eq_some_iff {i : Int} {w : Int64} :
    word? i = some w ↔ w.toInt = i := by
  unfold word?
  constructor
  · intro found
    split at found
    · next range =>
      rw [← Option.some.inj found]
      exact Int64.toInt_ofInt_of_le (by omega) (by omega)
    · cases found
  · intro same
    subst same
    have low := w.le_toInt
    have high := w.toInt_lt
    rw [if_pos (by omega), Int64.ofInt_toInt]

/-- A 64-bit integer in decimal. -/
def word (i : Int64) : List Char :=
  integer i.toInt

end Numeral

end Bytecode
