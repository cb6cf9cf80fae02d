import Bytecode.Bytes
import Bytecode.Text.Numeral

/-!
The instructions of the machine: their opcodes, their names and their bytes.

Every byte stands for some instruction. One that has no meaning stands for
`unknown`, which can be read and written and only fails when it is executed. An
`unknown` made by hand may hold a byte that has a meaning; its bytes then read
back as the instruction with that meaning.
-/

namespace Bytecode

/-- The operations on two integers. -/
inductive BinaryOp where
  | add
  | sub
  | mul
  | div
  | mod
  | gt
  | lt
  | ge
  | le
deriving DecidableEq

/-- One instruction. -/
inductive Instruction where
  /-- Ends the program. -/
  | halt
  /-- Pushes the constant with the given index. -/
  | loadConst (index : UInt32)
  /-- Removes the top of the stack. -/
  | pop
  /-- Removes the top of the stack. -/
  | drop
  /-- Reads a line and pushes the integer on it. -/
  | readInt
  /-- Reads a line and pushes it. -/
  | readString
  /-- Writes the top of the stack. -/
  | print
  /-- Writes a line end. -/
  | newline
  /-- Has an opcode and no meaning yet. -/
  | storeIndexed
  /-- Has an opcode and no meaning yet. -/
  | pushBool
  /-- Replaces the two topmost integers by one. -/
  | binary (op : BinaryOp)
  /-- A byte without a meaning. -/
  | unknown (byte : UInt8)
deriving DecidableEq

namespace BinaryOp

/-- The opcode of an operation. -/
def opcode : BinaryOp → UInt8
  | add => 0x0A
  | sub => 0x0B
  | mul => 0x0C
  | div => 0x0D
  | mod => 0x0E
  | gt => 0x0F
  | lt => 0x10
  | ge => 0x11
  | le => 0x12

/-- The name of an operation. -/
def mnemonic : BinaryOp → String
  | add => "ADD"
  | sub => "SUB"
  | mul => "MUL"
  | div => "DIV"
  | mod => "MOD"
  | gt => "GT"
  | lt => "LT"
  | ge => "GE"
  | le => "LE"

end BinaryOp

namespace Instruction

/-- The byte that an instruction starts with. -/
def opcode : Instruction → UInt8
  | halt => 0x00
  | loadConst _ => 0x01
  | pop => 0x02
  | drop => 0x03
  | readInt => 0x04
  | readString => 0x05
  | print => 0x06
  | newline => 0x07
  | storeIndexed => 0x08
  | pushBool => 0x09
  | binary op => op.opcode
  | unknown byte => byte

/-- The name of an instruction. -/
def mnemonic : Instruction → String
  | halt => "END"
  | loadConst _ => "LOAD_CONST"
  | pop => "POP"
  | drop => "DROP"
  | readInt => "READ_INT"
  | readString => "READ_STRING"
  | print => "PRINT"
  | newline => "NEWLINE"
  | storeIndexed => "STORE_INDEXED"
  | pushBool => "PUSH_BOOL"
  | binary op => op.mnemonic
  | unknown _ => "UNKNOWN"

/-- The operand of an instruction that has one. -/
def operand? : Instruction → Option UInt32
  | loadConst index => some index
  | _ => none

/-- How many bytes an instruction takes up. -/
def size : Instruction → Nat
  | loadConst _ => 5
  | _ => 1

/-- An instruction as text: its name, and its operand or its byte. -/
def text : Instruction → String
  | loadConst index =>
    "LOAD_CONST " ++ String.ofList (Numeral.natural index.toNat)
  | unknown byte => "UNKNOWN " ++ Bytes.hexText byte
  | i => i.mnemonic

/-- The pieces in which an instruction is written. -/
def pieces (i : Instruction) : List Bytes :=
  match i.operand? with
  | some operand => [[i.opcode], Bytes.ofWord operand]
  | none => [[i.opcode]]

/-- The bytes of an instruction. -/
def encode (i : Instruction) : Bytes :=
  i.pieces.flatten

/-- One instruction of each kind that has an opcode, in the order of the
opcodes. -/
def assigned : List Instruction :=
  [halt, loadConst 0, pop, drop, readInt, readString, print, newline,
    storeIndexed, pushBool, binary .add, binary .sub, binary .mul, binary .div,
    binary .mod, binary .gt, binary .lt, binary .ge, binary .le]

/-- The opcode of `loadConst`, the one instruction with an operand. -/
def loadConstOpcode : UInt8 :=
  0x01

/-- The opcode of `halt`, after which nothing is read. -/
def haltOpcode : UInt8 :=
  0x00

/-- The byte that is set aside as never having a meaning. -/
def unknownOpcode : UInt8 :=
  0xFF

/-- The instruction without an operand that has the given name. -/
def ofMnemonic? (name : String) : Option Instruction :=
  assigned.find? fun i => i.operand?.isNone && i.mnemonic = name

/-- The instruction without an operand that has the given opcode. -/
def ofOpcode (byte : UInt8) : Instruction :=
  match byte.toNat with
  | 0x00 => halt
  | 0x02 => pop
  | 0x03 => drop
  | 0x04 => readInt
  | 0x05 => readString
  | 0x06 => print
  | 0x07 => newline
  | 0x08 => storeIndexed
  | 0x09 => pushBool
  | 0x0A => binary .add
  | 0x0B => binary .sub
  | 0x0C => binary .mul
  | 0x0D => binary .div
  | 0x0E => binary .mod
  | 0x0F => binary .gt
  | 0x10 => binary .lt
  | 0x11 => binary .ge
  | 0x12 => binary .le
  | _ => unknown byte

end Instruction

end Bytecode
