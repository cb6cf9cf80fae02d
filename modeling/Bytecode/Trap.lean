import Bytecode.Bytes
import Bytecode.FormatError
import Bytecode.Text.Numeral
import Bytecode.Text.Quoted

/-!
Why the machine can stop before the end of a program.
-/

namespace Bytecode

/-- The reason why an instruction cannot be carried out. -/
inductive Trap where
  /-- The stack holds too few values. -/
  | stackUnderflow
  /-- No constant has this index. -/
  | indexOutOfRange (index : UInt32)
  /-- An operation on two integers met something else. -/
  | typeMismatch (op left right : String)
  /-- The divisor is zero. -/
  | divisionByZero
  /-- The line read is not an integer. -/
  | notInteger (line : String)
  /-- There is no line to read. -/
  | endOfInput
  /-- The instruction has no meaning. -/
  | illegalInstruction (opcode : UInt8)
  /-- The instruction has no meaning yet. -/
  | unsupported (opcode : UInt8)
  /-- There is no instruction here. -/
  | outOfProgram (pc : Nat)
  /-- A stream failed. -/
  | stream (reason : String)
deriving DecidableEq

/-- The wording of a trap. -/
def Trap.message : Trap → String
  | stackUnderflow => "stack underflow"
  | indexOutOfRange index =>
    "constant pool index out of range: " ++
      String.ofList (Numeral.natural index.toNat)
  | typeMismatch op left right =>
    s!"type mismatch in {op}: {left} and {right}"
  | divisionByZero => "division by zero"
  | notInteger line => "input is not an integer: " ++ Quoted.text line
  | endOfInput => "end of input"
  | illegalInstruction opcode => "illegal instruction: " ++ Bytes.hexText opcode
  | unsupported opcode => "unsupported instruction: " ++ Bytes.hexText opcode
  | outOfProgram pc => s!"program counter out of range: {pc}"
  | stream reason => "I/O error: " ++ reason

/-- Why a program was not carried out to its end. -/
inductive Failure where
  /-- It could not be loaded. -/
  | format (error : FormatError)
  /-- It was stopped. -/
  | trap (trap : Trap)

/-- The wording of a failure. -/
def Failure.message : Failure → String
  | format error => "container error: " ++ error.message
  | trap t => "trap: " ++ t.message

end Bytecode
