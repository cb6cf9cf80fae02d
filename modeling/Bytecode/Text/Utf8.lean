import Bytecode.Bytes

/-!
UTF-8: the bytes of a text, and the longest part of a byte string that is the
bytes of a text.

`encode` writes each character in the shortest of the four forms. `split` reads
back as far as the bytes allow: it stops at the first place where no character
begins, which covers stray continuation bytes, overlong forms, surrogates,
values above `10FFFF` and a form cut short by the end of the bytes. `decode?`
accepts a byte string when nothing is left over.
-/

namespace Bytecode

namespace Utf8

/-! ## Writing -/

/-- The bytes of one character. -/
def encodeChar (c : Char) : Bytes :=
  let n := c.toNat
  if n < 0x80 then [UInt8.ofNat n]
  else if n < 0x800 then
    [UInt8.ofNat (0xC0 + n / 0x40), UInt8.ofNat (0x80 + n % 0x40)]
  else if n < 0x10000 then
    [UInt8.ofNat (0xE0 + n / 0x1000), UInt8.ofNat (0x80 + n / 0x40 % 0x40),
      UInt8.ofNat (0x80 + n % 0x40)]
  else
    [UInt8.ofNat (0xF0 + n / 0x40000), UInt8.ofNat (0x80 + n / 0x1000 % 0x40),
      UInt8.ofNat (0x80 + n / 0x40 % 0x40), UInt8.ofNat (0x80 + n % 0x40)]

/-- The bytes of a sequence of characters. -/
def encodeChars (cs : List Char) : Bytes :=
  cs.flatMap encodeChar

/-- The bytes of a text. -/
def encode (text : String) : Bytes :=
  encodeChars text.toList

/-! ## Reading -/

/-- The six bits that a continuation byte carries; no other byte has any. -/
def tail? (byte : UInt8) : Option Nat :=
  if 0x80 ≤ byte.toNat ∧ byte.toNat < 0xC0 then some (byte.toNat - 0x80)
  else none

/-- The character with a given number, if the number lies in a given range and
is the number of a character. -/
def scalar? (low high n : Nat) : Option Char :=
  if low ≤ n ∧ n < high ∧ n.isValidChar then some (Char.ofNat n) else none

/-- The character written by two bytes. -/
def two? (a b : UInt8) : Option Char :=
  if 0xC0 ≤ a.toNat ∧ a.toNat < 0xE0 then do
    let x ← tail? b
    scalar? 0x80 0x800 ((a.toNat - 0xC0) * 0x40 + x)
  else none

/-- The character written by three bytes. -/
def three? (a b c : UInt8) : Option Char :=
  if 0xE0 ≤ a.toNat ∧ a.toNat < 0xF0 then do
    let x ← tail? b
    let y ← tail? c
    scalar? 0x800 0x10000 ((a.toNat - 0xE0) * 0x1000 + x * 0x40 + y)
  else none

/-- The character written by four bytes. -/
def four? (a b c d : UInt8) : Option Char :=
  if 0xF0 ≤ a.toNat ∧ a.toNat < 0xF8 then do
    let x ← tail? b
    let y ← tail? c
    let z ← tail? d
    scalar? 0x10000 0x110000
      ((a.toNat - 0xF0) * 0x40000 + x * 0x1000 + y * 0x40 + z)
  else none

/-- Puts a character before the characters already read. -/
def push (c : Char) (read : List Char × Bytes) : List Char × Bytes :=
  (c :: read.1, read.2)

/-- The characters that the bytes start with, and the bytes from the first place
at which no character begins. -/
def split : Bytes → List Char × Bytes
  | [] => ([], [])
  | a :: rest =>
    if a.toNat < 0x80 then push (Char.ofNat a.toNat) (split rest)
    else
      match rest with
      | [] => ([], [a])
      | b :: rest =>
        match two? a b with
        | some x => push x (split rest)
        | none =>
          match rest with
          | [] => ([], [a, b])
          | c :: rest =>
            match three? a b c with
            | some x => push x (split rest)
            | none =>
              match rest with
              | [] => ([], [a, b, c])
              | d :: rest =>
                match four? a b c d with
                | some x => push x (split rest)
                | none => ([], a :: b :: c :: d :: rest)

/-- The characters whose bytes these are, if they are the bytes of a text. -/
def decode? (bytes : Bytes) : Option (List Char) :=
  match split bytes with
  | (cs, []) => some cs
  | _ => none

end Utf8

end Bytecode
