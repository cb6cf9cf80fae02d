/-!
Byte strings, and the one fixed-width number that a program file holds: a
32-bit word written with its most significant byte first.
-/

namespace Bytecode

/-- A byte string. -/
abbrev Bytes := List UInt8

namespace Bytes

/-- The byte of an ASCII character. -/
def ascii (c : Char) : UInt8 :=
  UInt8.ofNat c.toNat

/-- The four bytes of a word, most significant first. -/
def ofWord (word : UInt32) : Bytes :=
  [UInt8.ofNat (word.toNat / 0x1000000), UInt8.ofNat (word.toNat / 0x10000),
    UInt8.ofNat (word.toNat / 0x100), UInt8.ofNat word.toNat]

/-- The word whose bytes are the four given ones, most significant first. -/
def toWord (a b c d : UInt8) : UInt32 :=
  UInt32.ofNat
    (a.toNat * 0x1000000 + b.toNat * 0x10000 + c.toNat * 0x100 + d.toNat)

/-- A byte as two upper-case hexadecimal digits after `0x`. -/
def hexText (byte : UInt8) : String :=
  String.ofList
    ('0' :: 'x' :: (Nat.digitChar (byte.toNat / 16)).toUpper ::
      (Nat.digitChar (byte.toNat % 16)).toUpper :: [])

end Bytes

end Bytecode
