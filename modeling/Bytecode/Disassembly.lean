import Bytecode.Json.Printer
import Bytecode.Program

/-!
Disassemblies: the constants and the instructions of a program, each with its
place, and the text in which they are shown.

The offset of an instruction is its place in the file that the program is
written to. An instruction that loads a constant is shown together with that
constant.
-/

namespace Bytecode

/-- What is shown of a constant. -/
structure ConstantEntry where
  index : Nat
  constant : Constant
deriving DecidableEq

/-- What is shown of the operand of an instruction: the operand, and the
constant with that index if there is one. -/
structure OperandEntry where
  operand : UInt32
  constant : Option Constant
deriving DecidableEq

/-- What is shown of an instruction. -/
structure InstructionEntry where
  pc : Nat
  offset : Nat
  opcode : UInt8
  mnemonic : String
  operand : Option OperandEntry
deriving DecidableEq

/-- What is shown of a program. -/
structure Disassembly where
  constants : List ConstantEntry
  instructions : List InstructionEntry
deriving DecidableEq

namespace Disassembly

/-! ## From programs -/

/-- The entries of constants, counted from an index. -/
def constantsFrom : (index : Nat) → ConstantPool → List ConstantEntry
  | _, [] => []
  | index, c :: rest => ⟨index, c⟩ :: constantsFrom (index + 1) rest

/-- The entry of an instruction. -/
def entry (pool : ConstantPool) (pc offset : Nat) (i : Instruction) :
    InstructionEntry where
  pc := pc
  offset := offset
  opcode := i.opcode
  mnemonic := i.mnemonic
  operand := i.operand?.map fun operand => ⟨operand, pool[operand.toNat]?⟩

/-- Where the code starts in a program's file. -/
def codeStart (program : Program) : Nat :=
  Program.signature.length + program.constants.encode.length

/-- The entries of a program's instructions. -/
def instructionEntries (program : Program) : List InstructionEntry :=
  (program.code.zip program.code.offsets).mapIdx fun pc (i, offset) =>
    entry program.constants pc (codeStart program + offset) i

/-- The disassembly of a program. -/
def ofProgram (program : Program) : Disassembly where
  constants := constantsFrom 0 program.constants
  instructions := instructionEntries program

/-! ## As JSON -/

/-- A natural number. -/
def natJson (n : Nat) : Json.Value :=
  .number (.integer n)

/-- The value of a constant. -/
def constantJson : Constant → Json.Value
  | .int i => .number (.integer i.toInt)
  | .str s => .string s

/-- What is shown in place of a constant that does not exist. -/
def missingJson : Json.Value :=
  .object [("error", .string "index out of range")]

/-- The entry of a constant. -/
def constantEntryJson (e : ConstantEntry) : Json.Value :=
  .object
    [("index", natJson e.index),
      ("type", .string e.constant.typeName),
      ("value", constantJson e.constant)]

/-- The constant loaded by an instruction. -/
def loadedJson (e : OperandEntry) : Json.Value :=
  match e.constant with
  | some c => constantJson c
  | none => missingJson

/-- The entry of an instruction. -/
def instructionEntryJson (e : InstructionEntry) : Json.Value :=
  match e.operand with
  | none =>
    .object
      [("mnemonic", .string e.mnemonic),
        ("offset", natJson e.offset),
        ("opcode", .string (Bytes.hexText e.opcode)),
        ("pc", natJson e.pc)]
  | some o =>
    .object
      [("constant", loadedJson o),
        ("mnemonic", .string e.mnemonic),
        ("offset", natJson e.offset),
        ("opcode", .string (Bytes.hexText e.opcode)),
        ("operand", natJson o.operand.toNat),
        ("pc", natJson e.pc)]

/-- A disassembly. -/
def toJson (d : Disassembly) : Json.Value :=
  .object
    [("constants", .array (d.constants.map constantEntryJson)),
      ("instructions", .array (d.instructions.map instructionEntryJson))]

/-- A disassembly on indented lines. -/
def text (d : Disassembly) : String :=
  d.toJson.pretty

end Disassembly

end Bytecode
