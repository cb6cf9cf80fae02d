import Bytecode.Json.Fault

/-!
JSON numbers as they are written.

A number without a fraction and without an exponent is an integer, as long as
its digits fit in 64 bits unsigned; a negative one has to fit in 64 bits signed
and must not be zero. Every other number is a real.

A real is worked out from the digits that fit in 64 bits and a power of ten, by
multiplying or dividing in double precision. The result can differ from the
nearest real to the number as written, in the last place.
-/

namespace Bytecode

namespace Json

namespace NumberLiteral

/-! ## Digits -/

/-- The value of a decimal digit. -/
def digit? (b : UInt8) : Option Nat :=
  if 0x30 ≤ b.toNat ∧ b.toNat ≤ 0x39 then some (b.toNat - 0x30) else none

/-- Whether a byte is a decimal digit. -/
def isDigit (b : UInt8) : Bool :=
  (digit? b).isSome

/-- The largest significand: the largest number of 64 bits. -/
def significandLimit : Nat :=
  0xFFFFFFFFFFFFFFFF

/-- The largest exponent that is read: the largest number of 31 bits. -/
def exponentLimit : Nat :=
  0x7FFFFFFF

/-- Digits read into a number: the number, how many digits were read, and the
text after them. -/
structure Digits where
  value : Nat
  count : Nat
  rest : Bytes

/-- Reads digits on from a value, as long as the value stays within a limit. -/
def absorb (limit : Nat) : (value : Nat) → Bytes → Digits
  | value, [] => ⟨value, 0, []⟩
  | value, b :: rest =>
    match digit? b with
    | none => ⟨value, 0, b :: rest⟩
    | some d =>
      if value * 10 + d ≤ limit then
        let more := absorb limit (value * 10 + d) rest
        ⟨more.value, more.count + 1, more.rest⟩
      else ⟨value, 0, b :: rest⟩

/-- Whether a text goes on with an exponent. -/
def startsExponent : Bytes → Bool
  | [] => false
  | b :: _ => b = Bytes.ascii 'e' || b = Bytes.ascii 'E'

/-! ## Reals -/

/-- The largest power of ten that is used in one operation. -/
def powerLimit : Nat :=
  308

/-- A power of ten, rounded to nearest. -/
def tenTo (n : Nat) : Float :=
  Float.ofScientific 1 false n

/-- A value divided by a power of ten, in steps of at most `powerLimit`. -/
def divide (x : Float) (n : Nat) : Float :=
  if n ≤ powerLimit then x / tenTo n
  else if x == 0 then x
  else divide (x / tenTo powerLimit) (n - powerLimit)
termination_by n
decreasing_by simp [powerLimit] at *; omega

/-- A value multiplied by a power of ten; nothing if it is too large. -/
def multiply? (x : Float) (n : Nat) : Option Float :=
  if n ≤ powerLimit then
    let y := x * tenTo n
    if y.isInf then none else some y
  else if x == 0 then some x
  else none

/-- A value with the sign that stands before a number. -/
def signed (negative : Bool) (x : Float) : Number :=
  .real (if negative then -x else x)

/-- The real with a given significand and power of ten. -/
def real (negative : Bool) (significand : Nat) (exponent : Int) (rest : Bytes) :
    Parsed Number :=
  let x := (UInt64.ofNat significand).toFloat
  if exponent < 0 then .ok (signed negative (divide x exponent.natAbs), rest)
  else
    match multiply? x exponent.natAbs with
    | some y => .ok (signed negative y, rest)
    | none => .error (.here .numberOutOfRange rest)

/-- Whether an exponent is written with `-`, and its digits. -/
def exponentSign : Bytes → Bool × Bytes
  | [] => (false, [])
  | b :: rest =>
    if b = Bytes.ascii '+' then (false, rest)
    else if b = Bytes.ascii '-' then (true, rest)
    else (false, b :: rest)

/-- The real whose digits are followed by the digits of an exponent. An exponent
beyond all bounds is out of range or makes the real zero. -/
def exponentDigits (negative : Bool) (significand : Nat) (exponent : Int)
    (below : Bool) : Bytes → Parsed Number
  | [] => .error (.here .endInValue [])
  | b :: rest =>
    if !isDigit b then .error (.here .invalidNumber rest)
    else
      let e := absorb exponentLimit 0 (b :: rest)
      if e.rest.head?.any isDigit then
        if significand ≠ 0 && !below then
          .error (.here .numberOutOfRange e.rest.tail)
        else .ok (signed negative 0, e.rest.dropWhile isDigit)
      else if below then
        real negative significand (exponent - Int.ofNat e.value) e.rest
      else real negative significand (exponent + Int.ofNat e.value) e.rest

/-- The real whose digits are followed by an exponent, read from after its
`e`. -/
def withExponent (negative : Bool) (significand : Nat) (exponent : Int)
    (text : Bytes) : Parsed Number :=
  exponentDigits negative significand exponent (exponentSign text).1
    (exponentSign text).2

/-- The real that has no more digits: an exponent may follow. -/
def finish (negative : Bool) (significand : Nat) (exponent : Int)
    (text : Bytes) : Parsed Number :=
  if startsExponent text then
    withExponent negative significand exponent text.tail
  else real negative significand exponent text

/-- The real whose digits go on with a fraction, read from after the point.
Digits that no longer fit are passed over. -/
def withFraction (negative : Bool) (significand : Nat) (exponent : Int)
    (text : Bytes) : Parsed Number :=
  match text with
  | [] => .error (.ahead .endInValue [])
  | b :: rest =>
    if !isDigit b then .error (.ahead .invalidNumber (b :: rest))
    else
      let f := absorb significandLimit significand (b :: rest)
      finish negative f.value (exponent - Int.ofNat f.count)
        (f.rest.dropWhile isDigit)

/-- The real that follows from the digits before the point. -/
def fromWhole (negative : Bool) (significand : Nat) (exponent : Int) :
    Bytes → Parsed Number
  | [] => finish negative significand exponent []
  | b :: rest =>
    if b = Bytes.ascii '.' then withFraction negative significand exponent rest
    else finish negative significand exponent (b :: rest)

/-! ## Numbers -/

/-- The number written by digits alone. -/
def whole (negative : Bool) (significand : Nat) : Number :=
  if !negative then .integer (Int.ofNat significand)
  else if 0 < significand && significand ≤ 0x8000000000000000 then
    .integer (-Int.ofNat significand)
  else signed true (UInt64.ofNat significand).toFloat

/-- Whether a text goes on with a fraction or an exponent. -/
def startsReal : Bytes → Bool
  | [] => false
  | b :: rest => b = Bytes.ascii '.' || startsExponent (b :: rest)

/-- The number from its first digit on. -/
def unsigned (negative : Bool) : Bytes → Parsed Number
  | [] => .error (.here .endInValue [])
  | b :: rest =>
    if !isDigit b then .error (.here .invalidNumber rest)
    else if b = Bytes.ascii '0' && rest.head?.any isDigit then
      .error (.ahead .invalidNumber rest)
    else
      let d := absorb significandLimit 0 (b :: rest)
      if d.rest.head?.any isDigit then
        let more := d.rest.takeWhile isDigit
        fromWhole negative d.value (Int.ofNat more.length)
          (d.rest.dropWhile isDigit)
      else if startsReal d.rest then fromWhole negative d.value 0 d.rest
      else .ok (whole negative d.value, d.rest)

/-- The number at the start of a text that begins with `-` or a digit. -/
def read : Bytes → Parsed Number
  | [] => .error (.here .endInValue [])
  | b :: rest =>
    if b = Bytes.ascii '-' then unsigned true rest
    else unsigned false (b :: rest)

end NumberLiteral

end Json

end Bytecode
