import Bytecode.Code
import Bytecode.ConstantPool

/-!
Programs and program files.

A file is a fixed signature, the constant pool and the code. Reading takes whole
blocks from its source, so it can use up bytes that come after the program; how
it judges the file does not depend on that.
-/

namespace Bytecode

/-- A program. -/
structure Program where
  constants : ConstantPool
  code : Code
deriving DecidableEq

namespace Program

/-- The bytes that open every program file. -/
def signature : Bytes :=
  ['R', 'i', 'c', 'k', '\x00'].map Bytes.ascii

/-! ## Writing -/

/-- The pieces in which a program is written. -/
def pieces (program : Program) : List Bytes :=
  signature :: program.constants.pieces ++ program.code.pieces

/-- The bytes of a program file. -/
def encode (program : Program) : Bytes :=
  signature ++ program.constants.encode ++ program.code.encode

/-- Writes a program file. -/
def write (program : Program) (sink : Sink) : Written :=
  sink.writeAll program.pieces

/-! ## Reading -/

/-- Reads the signature. A file too short for it has a wrong one. -/
def readSignature (source : Source) : Except FormatError Unit × Source :=
  match source.take signature.length with
  | (.error (.failing reason), source) => (.error (.stream reason), source)
  | (.error _, source) => (.error .malformedHeader, source)
  | (.ok bytes, source) =>
    if bytes = signature then (.ok (), source)
    else (.error .malformedHeader, source)

/-- Reads the parts of a program one after the other, and nothing after its
last instruction. -/
def readParts (source : Source) : Except FormatError Program × Source :=
  match readSignature source with
  | (.error e, source) => (.error e, source)
  | (.ok (), source) =>
    match ConstantPool.read source with
    | (.error e, source) => (.error e, source)
    | (.ok constants, source) =>
      match Code.read source with
      | (.error e, source) => (.error e, source)
      | (.ok code, source) => (.ok ⟨constants, code⟩, source)

/-- How many bytes a source is asked for at a time. -/
def blockSize : Nat :=
  8192

/-- The number of bytes in the blocks that hold a given number of bytes. -/
def wholeBlocks (n : Nat) : Nat :=
  (n + blockSize - 1) / blockSize * blockSize

/-- Reads a program from the blocks of a source. What is left of the last block is
lost, unless the source has gone on from a pause, where a block ends early. -/
def read (source : Source) : Except FormatError Program × Source :=
  let (result, left) := readParts source
  let used := source.bytes.length - left.bytes.length
  (result,
    if left.ending = source.ending then
      { source with bytes := source.bytes.drop (wholeBlocks used) }
    else left)

/-- The program in the bytes of a file. -/
def decode (bytes : Bytes) : Except FormatError Program :=
  (read (Source.ofBytes bytes)).1

/-! ## Building -/

/-- A program under construction. -/
structure Builder where
  constants : ConstantPool
  code : Code

namespace Builder

/-- Nothing yet. -/
def empty : Builder :=
  ⟨[], []⟩

/-- Adds a constant. -/
def constant (c : Constant) (b : Builder) : Builder :=
  { b with constants := b.constants.push c }

/-- Adds instructions. -/
def instructions (is : List Instruction) (b : Builder) : Builder :=
  { b with code := b.code ++ is }

/-- Adds an instruction. -/
def instruction (i : Instruction) (b : Builder) : Builder :=
  b.instructions [i]

/-- The finished program: `halt` is added unless the code ends with it. -/
def build (b : Builder) : Program :=
  if b.code.getLast? = some .halt then ⟨b.constants, b.code⟩
  else ⟨b.constants, b.code ++ [.halt]⟩

end Builder

end Program

end Bytecode
