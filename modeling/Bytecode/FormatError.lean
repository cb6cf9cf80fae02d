import Bytecode.Bytes
import Bytecode.Json.Fault
import Bytecode.Text.Numeral

/-!
What can go wrong when a program file is read or written.
-/

namespace Bytecode

/-- What is wrong with a constant pool. -/
inductive PoolError where
  /-- No null byte ends the pool. -/
  | unterminated
  /-- The text of the pool is not a JSON list. -/
  | notJson (error : Json.SyntaxError)
  /-- An element is a number, but not a 64-bit integer. -/
  | notInteger (index : Nat) (number : Json.Number)
  /-- An element is neither a number nor a string. -/
  | notScalar (index : Nat) (value : Json.Value)

/-- The wording of what is wrong with a constant pool. -/
def PoolError.message : PoolError → String
  | unterminated => "missing null terminator"
  | notJson error => error.message
  | notInteger index number =>
    s!"element {index} is not a 64-bit integer: " ++ String.ofList number.text
  | notScalar index value =>
    s!"element {index} is neither a string nor an integer: " ++
      String.ofList value.compact

/-- What is wrong with a program file. -/
inductive FormatError where
  /-- The stream failed. -/
  | stream (reason : String)
  /-- The file does not start with the signature. -/
  | malformedHeader
  /-- The constant pool cannot be read. -/
  | malformedPool (error : PoolError)
  /-- The instructions stop before the end of the program. -/
  | truncated
  /-- No constant has this index. -/
  | invalidIndex (index : UInt32)

/-- The wording of what is wrong with a program file. -/
def FormatError.message : FormatError → String
  | stream reason => "I/O error: " ++ reason
  | malformedHeader => "watermark check failed"
  | malformedPool error => "malformed constant pool: " ++ error.message
  | truncated => "instruction stream ends without END opcode"
  | invalidIndex index =>
    "constant pool index out of bounds: " ++
      String.ofList (Numeral.natural index.toNat)

end Bytecode
