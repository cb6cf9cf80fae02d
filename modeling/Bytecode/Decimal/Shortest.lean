/-!
The shortest decimal of a binary floating-point number: the fewest digits that
read back as the same number, and of those the nearest to it.

A positive number is `significand * 2 ^ exponent`. The reals that round to it
form an interval around it, which holds its ends when the significand is even.
On the grid of decimals with a given number of digits only the two neighbours of
the number can be nearest, so they are the only candidates; the first grid with
a neighbour inside the interval gives the answer. Everything is exact arithmetic
on natural numbers.
-/

namespace Bytecode

namespace Decimal

/-- A positive binary number. `narrowBelow` holds at the powers of two where the
next number below is only half as far away as the next above. -/
structure Binary where
  significand : Nat
  exponent : Int
  narrowBelow : Bool

/-- A positive decimal: `digits * 10 ^ exponent`. -/
structure Scaled where
  digits : Nat
  exponent : Int

/-- `base ^ e`, and 1 for a negative exponent. -/
def raise (base : Nat) (e : Int) : Nat :=
  Nat.pow base e.toNat

namespace Binary

/-- The number as a fraction. -/
def fraction (x : Binary) : Nat × Nat :=
  (x.significand * raise 2 x.exponent, raise 2 (-x.exponent))

/-- The exponent of ten of the leading digit. -/
def magnitude (x : Binary) : Int :=
  let (num, den) := x.fraction
  if den ≤ num then Int.ofNat (Nat.toDigits 10 (num / den)).length - 1
  else -Int.ofNat (Nat.toDigits 10 ((den - 1) / num)).length

/-- Whether a decimal reads back as the number: whether it lies between the
halfway points to the two neighbours. -/
def holds (x : Binary) (d : Scaled) : Bool :=
  let low := 4 * x.significand - (if x.narrowBelow then 1 else 2)
  let high := 4 * x.significand + 2
  let unit := raise 2 x.exponent * raise 10 (-d.exponent)
  let point := 4 * d.digits * raise 10 d.exponent * raise 2 (-x.exponent)
  if x.significand % 2 = 0 then low * unit ≤ point && point ≤ high * unit
  else low * unit < point && point < high * unit

/-- The nearer of the two neighbours on the grid of tens to a given power, of
those that read back; a tie goes to the even digit. -/
def onGrid? (x : Binary) (grid : Int) : Option Scaled :=
  let (num, den) := x.fraction
  let top := num * raise 10 (-grid)
  let bottom := den * raise 10 grid
  let below : Scaled := ⟨top / bottom, grid⟩
  let above : Scaled := ⟨top / bottom + 1, grid⟩
  let twice := 2 * (top % bottom)
  let up := bottom < twice || (twice = bottom && below.digits % 2 = 1)
  match x.holds below, x.holds above with
  | true, true => some (if up then above else below)
  | true, false => some below
  | false, true => some above
  | false, false => none

/-- The shortest decimal. Seventeen digits tell any two double-precision numbers
apart, so one of the grids has a candidate. -/
def shortest (x : Binary) : Scaled :=
  let grids := (List.range 17).map fun n => x.magnitude - Int.ofNat n
  (grids.findSome? x.onGrid?).getD ⟨x.significand, 0⟩

end Binary

/-- The number of fractions between two powers of two in double precision. -/
def fractions : Nat :=
  0x10000000000000

/-- The number of exponents in double precision. -/
def exponents : Nat :=
  0x800

/-- The magnitude of a finite nonzero double-precision number from its bits. -/
def Binary.ofBits (bits : UInt64) : Binary :=
  let field := bits.toNat / fractions % exponents
  let fraction := bits.toNat % fractions
  if field = 0 then ⟨fraction, -1074, false⟩
  else ⟨fractions + fraction, Int.ofNat field - 1075, fraction = 0 && 1 < field⟩

end Decimal

end Bytecode
