import Bytecode.Json.Fault
import Bytecode.Text.Utf8

/-!
JSON strings as they are written: from the byte after the opening quote to the
closing quote.

`scan` undoes the escapes and gives bytes, so that raw bytes and escaped
characters can stand side by side; `read` then takes the bytes as UTF-8.
-/

namespace Bytecode

namespace Json

namespace StringLiteral

/-! ## Escapes -/

/-- The quote that ends a string. -/
def quote : UInt8 :=
  Bytes.ascii '"'

/-- The byte that starts an escape. -/
def backslash : UInt8 :=
  Bytes.ascii '\\'

/-- The value of a hexadecimal digit, in either case. -/
def hexDigit? (b : UInt8) : Option Nat :=
  let n := b.toNat
  if 0x30 ≤ n ∧ n ≤ 0x39 then some (n - 0x30)
  else if 0x41 ≤ n ∧ n ≤ 0x46 then some (n - 0x41 + 10)
  else if 0x61 ≤ n ∧ n ≤ 0x66 then some (n - 0x61 + 10)
  else none

/-- The 16-bit number written with four hexadecimal digits. -/
def unit? (a b c d : UInt8) : Option Nat := do
  let w ← hexDigit? a
  let x ← hexDigit? b
  let y ← hexDigit? c
  let z ← hexDigit? d
  return w * 0x1000 + x * 0x100 + y * 0x10 + z

/-- The first units of surrogate pairs. -/
def isHigh (unit : Nat) : Bool :=
  0xD800 ≤ unit && unit < 0xDC00

/-- The second units of surrogate pairs. -/
def isLow (unit : Nat) : Bool :=
  0xDC00 ≤ unit && unit < 0xE000

/-- The character of a surrogate pair. -/
def pairChar (high low : Nat) : Char :=
  Char.ofNat (0x10000 + (high - 0xD800) * 0x400 + (low - 0xDC00))

/-- The byte that a letter after a backslash stands for. -/
def short? (letter : UInt8) : Option UInt8 :=
  if letter = Bytes.ascii '"' then some 0x22
  else if letter = Bytes.ascii '\\' then some 0x5C
  else if letter = Bytes.ascii '/' then some 0x2F
  else if letter = Bytes.ascii 'b' then some 0x08
  else if letter = Bytes.ascii 'f' then some 0x0C
  else if letter = Bytes.ascii 'n' then some 0x0A
  else if letter = Bytes.ascii 'r' then some 0x0D
  else if letter = Bytes.ascii 't' then some 0x09
  else none

/-! ## Strings -/

/-- Puts bytes before those already read. -/
def push (bytes : Bytes) (read : Parsed Bytes) : Parsed Bytes :=
  read.map (bytes ++ ·)

/-- The bytes that a string stands for, read up to its closing quote. -/
def scan : Bytes → Parsed Bytes
  | [] => .error (.here .endInString [])
  | b :: rest =>
    if b = quote then .ok ([], rest)
    else if b = backslash then
      match rest with
      | [] => .error (.here .endInString [])
      | letter :: rest =>
        if letter = Bytes.ascii 'u' then
          match rest with
          | h₁ :: h₂ :: h₃ :: h₄ :: rest =>
            match unit? h₁ h₂ h₃ h₄ with
            | none => .error (.here .invalidEscape rest)
            | some unit =>
              if isLow unit then .error (.here .loneSurrogate rest)
              else if isHigh unit then
                match rest with
                | [] => .error (.here .endInString [])
                | s :: rest =>
                  if s = backslash then
                    match rest with
                    | [] => .error (.here .endInString [])
                    | u :: rest =>
                      if u = Bytes.ascii 'u' then
                        match rest with
                        | l₁ :: l₂ :: l₃ :: l₄ :: rest =>
                          match unit? l₁ l₂ l₃ l₄ with
                          | none => .error (.here .invalidEscape rest)
                          | some low =>
                            if isLow low then
                              push (Utf8.encodeChar (pairChar unit low))
                                (scan rest)
                            else .error (.here .loneSurrogate rest)
                        | _ => .error (.here .endInString [])
                      else .error (.here .endOfHexEscape rest)
                  else .error (.here .endOfHexEscape rest)
              else push (Utf8.encodeChar (Char.ofNat unit)) (scan rest)
          | _ => .error (.here .endInString [])
        else
          match short? letter with
          | some byte => push [byte] (scan rest)
          | none => .error (.here .invalidEscape rest)
    else if b.toNat < 0x20 then .error (.here .controlCharacter rest)
    else push [b] (scan rest)

/-- The text of a string, read up to its closing quote. Bytes that are not
UTF-8 are reported at the first of them, counted back from the quote. -/
def read (text : Bytes) : Parsed String :=
  (scan text).andThen fun bytes rest =>
    match Utf8.split bytes with
    | (cs, []) => .ok (String.ofList cs, rest)
    | (_, left) => .error ⟨.invalidUnicode, rest, left.length⟩

end StringLiteral

end Json

end Bytecode
