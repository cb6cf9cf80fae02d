import Bytecode.Decimal.Shortest

/-!
How a floating-point number is laid out as text.

The shortest digits are written in full, with at least one digit after the
point, while the leading digit stands for a power of ten from -5 to 15. Outside
that range the first digit is followed by the others and a signed power of ten.
-/

namespace Bytecode

namespace Decimal

/-- The bounds of full notation: the power of ten of the leading digit is at
least the first and below the second. -/
def fullNotation : Int × Int :=
  (-5, 16)

/-- Digits whose first stands for a given power of ten, in full. -/
def fullText (digits : List Char) (lead : Int) : List Char :=
  if lead < 0 then
    '0' :: '.' :: (List.replicate (-lead - 1).toNat '0' ++ digits)
  else
    let whole := lead.toNat + 1
    let tenths := digits.drop whole
    digits.take whole ++ List.replicate (whole - digits.length) '0' ++
      '.' :: (if tenths.isEmpty then ['0'] else tenths)

/-- Digits whose first stands for a given power of ten, with that power. -/
def scientificText (digits : List Char) (lead : Int) : List Char :=
  let sign := if lead < 0 then '-' else '+'
  let point := if digits.length ≤ 1 then [] else ['.']
  digits.take 1 ++ point ++ digits.drop 1 ++
    'e' :: sign :: Nat.toDigits 10 lead.natAbs

/-- A positive number as text. -/
def Binary.text (x : Binary) : List Char :=
  let d := x.shortest
  let written := Nat.toDigits 10 d.digits
  let digits := (written.reverse.dropWhile (· == '0')).reverse
  let lead := d.exponent + Int.ofNat written.length - 1
  if fullNotation.1 ≤ lead && lead < fullNotation.2 then fullText digits lead
  else scientificText digits lead

/-- The weight of the sign in the bits of a double-precision number. -/
def signBit : Nat :=
  0x8000000000000000

/-- A finite double-precision number as text. -/
def realText (x : Float) : List Char :=
  let bits := x.toBits
  let magnitude :=
    if bits.toNat % signBit = 0 then ['0', '.', '0']
    else (Binary.ofBits bits).text
  if signBit ≤ bits.toNat then '-' :: magnitude else magnitude

end Decimal

end Bytecode
