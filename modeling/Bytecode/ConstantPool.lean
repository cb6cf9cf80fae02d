import Bytecode.Constant
import Bytecode.FormatError
import Bytecode.Json.Document
import Bytecode.Sink
import Bytecode.Source
import Bytecode.Text.Utf8

/-!
The constant pool: the constants of a program in order, and their form in a
file, which is a JSON list followed by a null byte.

The pool is written in one form only: elements separated by a comma and a space,
and every character of a text that is not printable ASCII escaped. A text is cut at
the escapes that JSON demands, and each stretch between them is gone through by the
places of its characters, so that what needs no escape is written in one piece.

The pool is read from any JSON list of strings and 64-bit integers. The whole text
has to be JSON before any element is looked at.
-/

namespace Bytecode

/-- The constants of a program. -/
abbrev ConstantPool := List Constant

namespace ConstantPool

/-- Adds a constant. -/
def push (pool : ConstantPool) (constant : Constant) : ConstantPool :=
  pool ++ [constant]

/-- The constant with a given index. -/
def lookup (pool : ConstantPool) (index : UInt32) :
    Except FormatError Constant :=
  match pool[index.toNat]? with
  | some constant => .ok constant
  | none => .error (.invalidIndex index)

/-! ## Writing -/

/-- The UTF-16 units of a character. -/
def units (c : Char) : List Nat :=
  let n := c.toNat
  if n < 0x10000 then [n]
  else [0xD800 + (n - 0x10000) / 0x400, 0xDC00 + (n - 0x10000) % 0x400]

/-- The characters of a stretch that are written as they are. -/
def isPlain (c : Char) : Bool :=
  0x20 ≤ c.toNat && c.toNat ≤ 0x7E

/-- The pieces of a stretch with these bytes. Those before `start` have been written,
and the next character begins at `place`; all characters from `start` to there are
plain and wait to be written together. -/
def stretchFrom (bytes : Bytes) : (start place : Nat) → List Char → List Bytes
  | start, _, [] => [bytes.drop start]
  | start, place, c :: rest =>
    let next := place + (Utf8.encodeChar c).length
    if isPlain c then stretchFrom bytes start next rest
    else
      (bytes.drop start).take (place - start) ::
        (units c).map (fun unit => (Json.unitText unit).map Bytes.ascii) ++
          stretchFrom bytes next next rest

/-- The pieces of a part of a text constant. -/
def partPieces : Json.Part → List Bytes
  | .escape text => [text.map Bytes.ascii]
  | .stretch cs => stretchFrom (Utf8.encodeChars cs) 0 0 cs

/-- The pieces of an element. -/
def elementPieces : Constant → List Bytes
  | .int i => [(Numeral.word i).map Bytes.ascii]
  | .str s =>
    [Bytes.ascii '"'] :: (Json.parts s.toList).flatMap partPieces ++
      [[Bytes.ascii '"']]

/-- The pieces of elements, with a comma and a space before each but the first. -/
def elementsPieces : (first : Bool) → ConstantPool → List Bytes
  | _, [] => []
  | first, c :: rest =>
    (if first then [] else [[',', ' '].map Bytes.ascii]) ++ elementPieces c ++
      elementsPieces false rest

/-- The byte that ends a pool. -/
def terminator : UInt8 :=
  0x00

/-- The pieces in which a pool is written. -/
def pieces (pool : ConstantPool) : List Bytes :=
  [Bytes.ascii '['] :: elementsPieces true pool ++
    [[Bytes.ascii ']'], [terminator]]

/-- The bytes of a pool. -/
def encode (pool : ConstantPool) : Bytes :=
  pool.pieces.flatten

/-! ## Reading -/

/-- The constant that an element stands for. -/
def ofElement (index : Nat) : Json.Value → Except PoolError Constant
  | .string s => .ok (.str s)
  | .number (.integer i) =>
    match Numeral.word? i with
    | some w => .ok (.int w)
    | none => .error (.notInteger index (.integer i))
  | .number (.real x) => .error (.notInteger index (.real x))
  | v => .error (.notScalar index v)

/-- The constants that elements stand for, counted from an index; the first
element that stands for none decides the error. -/
def ofElements : (index : Nat) → List Json.Value → Except PoolError ConstantPool
  | _, [] => .ok []
  | index, v :: rest =>
    match ofElement index v with
    | .error e => .error e
    | .ok c =>
      match ofElements (index + 1) rest with
      | .error e => .error e
      | .ok pool => .ok (c :: pool)

/-- The pool that a text stands for. -/
def ofText (text : Bytes) : Except PoolError ConstantPool :=
  match Json.document text with
  | .error e => .error (.notJson e)
  | .ok values => ofElements 0 values

/-- The error of a reader that found no null byte. -/
def shortage : Ending → FormatError
  | .closed | .paused _ _ => .malformedPool .unterminated
  | .failing reason => .stream reason

/-- Reads a pool up to its null byte. -/
def read (source : Source) : Except FormatError ConstantPool × Source :=
  match source.takeUntil terminator with
  | (.error ending, source) => (.error (shortage ending), source)
  | (.ok text, source) =>
    match ofText text with
    | .ok pool => (.ok pool, source)
    | .error e => (.error (.malformedPool e), source)

/-- Writes a pool. -/
def write (pool : ConstantPool) (sink : Sink) : Written :=
  sink.writeAll pool.pieces

end ConstantPool

end Bytecode
