import Bytecode.ConstantPool

/-!
The texts that stand for a constant pool, as a grammar.

The rules say what a text is made of and what it means, and nothing about how
it is read. A pool text is a JSON list of strings and integers with white space
between its parts. A string is a sequence of letters, each either a character
in UTF-8 or an escape; an integer is written without leading zeros, and zero
without a sign. `PoolText text pool` holds when `text` is such a text and `pool`
is the list of what its elements denote.
-/

namespace Bytecode

namespace PoolGrammar

/-! ## White space -/

/-- Any number of spaces, tabs, line feeds and carriage returns. -/
def Space (text : Bytes) : Prop :=
  ∀ b ∈ text, b = 0x20 ∨ b = 0x09 ∨ b = 0x0A ∨ b = 0x0D

/-! ## Strings -/

/-- A hexadecimal digit in either case, with its value. -/
def HexDigit (b : UInt8) (n : Nat) : Prop :=
  n < 16 ∧ (b = Bytes.ascii n.digitChar ∨ b = Bytes.ascii n.digitChar.toUpper)

/-- Four hexadecimal digits, with the 16-bit number they denote. -/
inductive HexUnit : Bytes → Nat → Prop
  | digits {a b c d : UInt8} {w x y z : Nat} :
    HexDigit a w → HexDigit b x → HexDigit c y → HexDigit d z →
    HexUnit [a, b, c, d] (w * 0x1000 + x * 0x100 + y * 0x10 + z)

/-- The letters that may follow a backslash alone, with the characters that
they denote. -/
def shortEscapes : List (Char × Char) :=
  [('"', '"'), ('\\', '\\'), ('/', '/'), ('b', '\x08'), ('f', '\x0c'),
    ('n', '\n'), ('r', '\r'), ('t', '\t')]

/-- An escape, with the character that it denotes. The number of a character is
never a surrogate, so surrogates occur only as a pair, the high one first. -/
inductive Escape : Bytes → Char → Prop
  | short {letter c : Char} :
    (letter, c) ∈ shortEscapes →
    Escape [Bytes.ascii '\\', Bytes.ascii letter] c
  | unit {digits : Bytes} {n : Nat} {c : Char} :
    HexUnit digits n → c.toNat = n →
    Escape (Bytes.ascii '\\' :: Bytes.ascii 'u' :: digits) c
  | pair {first second : Bytes} {high low : Nat} {c : Char} :
    HexUnit first high → 0xD800 ≤ high → high < 0xDC00 →
    HexUnit second low → 0xDC00 ≤ low → low < 0xE000 →
    c.toNat = 0x10000 + (high - 0xD800) * 0x400 + (low - 0xDC00) →
    Escape
      (Bytes.ascii '\\' :: Bytes.ascii 'u' :: first ++
        Bytes.ascii '\\' :: Bytes.ascii 'u' :: second) c

/-- One character inside a string: written as it is, unless it is a control
character, the quote or the backslash, or escaped. -/
inductive Letter : Bytes → Char → Prop
  | plain {c : Char} :
    0x20 ≤ c.toNat → c ≠ '"' → c ≠ '\\' → Letter (String.utf8EncodeChar c) c
  | escape {text : Bytes} {c : Char} : Escape text c → Letter text c

/-- The inside of a string, with the characters that it denotes. -/
inductive Letters : Bytes → List Char → Prop
  | nil : Letters [] []
  | cons {text rest : Bytes} {c : Char} {cs : List Char} :
    Letter text c → Letters rest cs → Letters (text ++ rest) (c :: cs)

/-! ## Integers -/

/-- A decimal digit. -/
def IsDigit (b : UInt8) : Prop :=
  0x30 ≤ b.toNat ∧ b.toNat ≤ 0x39

instance (b : UInt8) : Decidable (IsDigit b) :=
  inferInstanceAs (Decidable (_ ∧ _))

/-- The number that decimal digits denote, read on from a given number. -/
def decimalFrom (start : Nat) (digits : Bytes) : Nat :=
  digits.foldl (fun n b => n * 10 + (b.toNat - 0x30)) start

/-- A natural number in decimal: zero, or digits of which the first is not
zero. -/
inductive Natural : Bytes → Nat → Prop
  | zero : Natural [Bytes.ascii '0'] 0
  | positive {first : UInt8} {rest : Bytes} :
    IsDigit first → first ≠ Bytes.ascii '0' → (∀ b ∈ rest, IsDigit b) →
    Natural (first :: rest) (decimalFrom 0 (first :: rest))

/-- An integer in decimal: a natural number, or a minus sign before one that is
not zero. -/
inductive Integer : Bytes → Int → Prop
  | natural {digits : Bytes} {n : Nat} : Natural digits n → Integer digits n
  | negative {digits : Bytes} {n : Nat} :
    Natural digits n → n ≠ 0 → Integer (Bytes.ascii '-' :: digits) (-n)

/-! ## Lists -/

/-- An element, with the constant that it denotes. An integer denotes the word
with its value, so one that has no 64-bit word is no element. -/
inductive Element : Bytes → Constant → Prop
  | string {text : Bytes} {cs : List Char} :
    Letters text cs →
    Element (Bytes.ascii '"' :: text ++ [Bytes.ascii '"'])
      (.str (String.ofList cs))
  | integer {text : Bytes} {i : Int} {w : Int64} :
    Integer text i → w.toInt = i → Element text (.int w)

/-- One or more elements separated by commas, with white space around each. -/
inductive Elements : Bytes → ConstantPool → Prop
  | last {before text after : Bytes} {c : Constant} :
    Space before → Element text c → Space after →
    Elements (before ++ text ++ after) [c]
  | more {before text after rest : Bytes} {c : Constant}
      {pool : ConstantPool} :
    Space before → Element text c → Space after → Elements rest pool →
    Elements (before ++ text ++ after ++ Bytes.ascii ',' :: rest) (c :: pool)

/-- The inside of a list: white space alone, or elements. -/
inductive Inside : Bytes → ConstantPool → Prop
  | empty {text : Bytes} : Space text → Inside text []
  | elements {text : Bytes} {pool : ConstantPool} :
    Elements text pool → Inside text pool

/-- A whole text, with the pool that it denotes. -/
inductive PoolText : Bytes → ConstantPool → Prop
  | list {before inside after : Bytes} {pool : ConstantPool} :
    Space before → Inside inside pool → Space after →
    PoolText
      (before ++ Bytes.ascii '[' :: (inside ++ Bytes.ascii ']' :: after)) pool

end PoolGrammar

end Bytecode
