import Bytecode.FormatError
import Bytecode.Instruction
import Bytecode.Source

/-!
The code of a program as bytes.

The code in a file runs up to the first `halt`. Whatever follows is not part of
it and stays unread; a file that stops before that is truncated, also when it
stops inside an operand.
-/

namespace Bytecode

/-- A sequence of instructions. -/
abbrev Code := List Instruction

namespace Code

/-- How many bytes the instructions take up. -/
def size : Code → Nat
  | [] => 0
  | i :: rest => i.size + size rest

/-- The distance of each instruction from a starting place. -/
def offsetsFrom : (start : Nat) → Code → List Nat
  | _, [] => []
  | start, i :: rest => start :: offsetsFrom (start + i.size) rest

/-- The distance of each instruction from the first. -/
def offsets (code : Code) : List Nat :=
  offsetsFrom 0 code

/-- The pieces in which the instructions are written. -/
def pieces (code : Code) : List Bytes :=
  code.flatMap Instruction.pieces

/-- The bytes of the instructions. -/
def encode (code : Code) : Bytes :=
  code.flatMap Instruction.encode

/-- Puts an instruction before those already read. -/
def push (i : Instruction) (read : Option (Code × Bytes)) :
    Option (Code × Bytes) :=
  read.map fun r => (i :: r.1, r.2)

/-- The instructions up to the first `halt` and the bytes after it; nothing if
the bytes run out before. -/
def decode? : Bytes → Option (Code × Bytes)
  | [] => none
  | b :: rest =>
    if b = Instruction.loadConstOpcode then
      match rest with
      | w :: x :: y :: z :: rest =>
        push (.loadConst (Bytes.toWord w x y z)) (decode? rest)
      | _ => none
    else if b = Instruction.haltOpcode then some ([.halt], rest)
    else push (Instruction.ofOpcode b) (decode? rest)

/-- The error of a reader that ran out of bytes inside the code. -/
def shortage : Ending → FormatError
  | .closed | .paused _ _ => .truncated
  | .failing reason => .stream reason

/-- Reads the code of a program. -/
def read (source : Source) : Except FormatError Code × Source :=
  match decode? source.bytes with
  | some (code, rest) => (.ok code, { source with bytes := rest })
  | none => (.error (shortage source.ending), source.drained)

end Code

end Bytecode
