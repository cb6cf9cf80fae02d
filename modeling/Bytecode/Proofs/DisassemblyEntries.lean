import Bytecode.Proofs.InstructionPlaces
import Bytecode.Proofs.MachineRuns

/-!
What a disassembly shows, against what a program is written as and what it does.

The offset of an entry is the number of bytes before its instruction in the file
that the program is written to (`Program.drop_encode`), so the opcode, the operand
and the next offset can be checked there. An entry that shows the constant of an
instruction is checked against a step of the machine at that instruction. Nothing
is asked of the program: it may lack a `halt`, or go on after one, and an `unknown`
may hold a byte that has a meaning.
-/

namespace Bytecode

/-! ## What is compared -/

/-- The member of an object that has a given key. -/
def Json.Value.member? (key : String) : Json.Value → Option Json.Value
  | .object members => members.lookup key
  | _ => none

/-- A value of the machine as JSON. -/
def Value.toJson : Value → Json.Value
  | int i => .number (.integer i.toInt)
  | str s => .string s
  | bool b => .boolean b

/-- The number that bytes denote, the most significant first. -/
def Bytes.bigEndian (bytes : Bytes) : Nat :=
  bytes.foldl (fun n b => n * 0x100 + b.toNat) 0

namespace Disassembly

/-- An entry that shows a constant with its index. -/
structure ShowsConstant (index : Nat) (c : Constant) (e : Json.Value) : Prop where
  numbered : e.member? "index" = some (natJson index)
  type : e.member? "type" = some (.string c.typeName)
  value : e.member? "value" = some (constantJson c)

/-- The member of an entry for the constant that an instruction loads: the error if
the instruction fails for lack of a constant, in whatever machine that comes to it,
and otherwise the value that is pushed. -/
def ShowsLoaded (program : Program) (pc : Nat) (index : UInt32)
    (shown : Json.Value) : Prop :=
  ∀ (m : Machine) console, m.program = program → m.pc = pc → m.halted = false →
    (shown = missingJson ↔ ∃ fault, (m.step console).result = .error fault ∧
      fault.trap = .indexOutOfRange index) ∧
    (shown ≠ missingJson → ∃ v, (m.step console).result = .ok .running ∧
      (m.step console).machine.stack = v :: m.stack ∧ shown = v.toJson)

/-- An entry that shows an instruction of a program, at an offset of its file. -/
structure ShowsInstruction (program : Program) (pc : Nat) (i : Instruction)
    (offset : Nat) (e : Json.Value) : Prop where
  numbered : e.member? "pc" = some (natJson pc)
  mnemonic : e.member? "mnemonic" = some (.string i.mnemonic)
  placed : e.member? "offset" = some (natJson offset)
  /-- The opcode that is shown is the byte at the offset. -/
  opcode : ∃ byte, program.encode[offset]? = some byte ∧ byte = i.opcode ∧
    e.member? "opcode" = some (.string (Bytes.hexText byte))
  /-- The operand that is shown is in the four bytes after the opcode. -/
  operand : ∀ index, i = .loadConst index → ∃ bytes : Bytes,
    bytes = (program.encode.drop (offset + 1)).take 4 ∧ bytes.length = 4 ∧
    bytes.bigEndian = index.toNat ∧
    e.member? "operand" = some (natJson bytes.bigEndian)
  constant : ∀ index, i = .loadConst index → ∃ shown,
    e.member? "constant" = some shown ∧ ShowsLoaded program pc index shown
  /-- Other instructions have neither. -/
  alone : i.operand? = none →
    e.member? "operand" = none ∧ e.member? "constant" = none

end Disassembly

/-! ## Bytes -/

theorem Bytes.bigEndian_ofWord (word : UInt32) :
    (Bytes.ofWord word).bigEndian = word.toNat := by
  have bound := word.toNat_lt
  unfold Bytes.ofWord Bytes.bigEndian
  simp only [List.foldl_cons, List.foldl_nil, UInt8.toNat_ofNat']
  omega

theorem Instruction.exists_encode (i : Instruction) :
    ∃ operand, i.encode = i.opcode :: operand := by
  cases operand : i.operand? with
  | none => exact ⟨[], i.encode_of_operand?_eq_none operand⟩
  | some index =>
    cases i with
    | loadConst index => exact ⟨_, encode_loadConst index⟩
    | _ => cases operand

namespace Program

/-- Where an instruction starts in the file that a program is written to. -/
def offsetOf (program : Program) (pc : Nat) : Nat :=
  Disassembly.codeStart program + Code.size (program.code.take pc)

theorem length_encode (program : Program) :
    program.encode.length = Disassembly.codeStart program + program.code.size := by
  unfold encode Disassembly.codeStart
  rw [List.length_append, List.length_append, Code.length_encode]

theorem offsetOf_length (program : Program) :
    program.offsetOf program.code.length = program.encode.length := by
  unfold offsetOf
  rw [List.take_length, length_encode]

theorem offsetOf_succ {program : Program} {pc : Nat} {i : Instruction}
    (found : program.code[pc]? = some i) :
    program.offsetOf (pc + 1) = program.offsetOf pc + i.size := by
  unfold offsetOf
  rw [List.take_add_one, found, Code.size_append, Nat.add_assoc]
  rfl

/-- What is written from the offset of an instruction on are its bytes and those of
the instructions after it. -/
theorem drop_encode {program : Program} {pc : Nat} {i : Instruction}
    (found : program.code[pc]? = some i) :
    program.encode.drop (program.offsetOf pc) =
      i.encode ++ Code.encode (program.code.drop (pc + 1)) := by
  have parts : program.encode =
      (signature ++ program.constants.encode ++ Code.encode (program.code.take pc)) ++
        (i.encode ++ Code.encode (program.code.drop (pc + 1))) := by
    rw [encode, Code.encode_of_getElem? found, ← List.append_assoc]
  have front : program.offsetOf pc = (signature ++ program.constants.encode ++
      Code.encode (program.code.take pc)).length := by
    rw [List.length_append, List.length_append, Code.length_encode]
    rfl
  rw [parts, front, List.drop_left]

end Program

/-! ## Entries -/

namespace Disassembly

variable {program : Program} {pc : Nat} {i : Instruction} {index : UInt32}

theorem toJson_ofConstant (c : Constant) :
    (Value.ofConstant c).toJson = constantJson c := by
  cases c with
  | int _ | str _ => rfl

theorem constantJson_ne_missingJson (c : Constant) : constantJson c ≠ missingJson := by
  cases c with
  | int _ | str _ => nofun

/-- The constant shown beside an operand is what a step pushes, or the reason why it
fails. -/
theorem showsLoaded (found : program.code[pc]? = some (.loadConst index)) :
    ShowsLoaded program pc index
      (loadedJson ⟨index, program.constants[index.toNat]?⟩) := by
  rintro m console rfl rfl running
  cases constant : m.program.constants[index.toNat]? with
  | none =>
    have effect : (Instruction.loadConst index).execute m.program.constants m.stack
        console = .failed (.indexOutOfRange index) m.stack console := by
      simp only [Instruction.execute, ConstantPool.lookup, constant]
    have step := (Machine.Stepped.failed running found effect).eq_step
    rw [step]
    exact ⟨⟨fun _ => ⟨_, rfl, rfl⟩, fun _ => rfl⟩, fun shown => absurd rfl shown⟩
  | some c =>
    have effect : (Instruction.loadConst index).execute m.program.constants m.stack
        console = .done (.ofConstant c :: m.stack) console := by
      simp only [Instruction.execute, ConstantPool.lookup, constant]
    have step := (Machine.Stepped.goesOn running found nofun effect).eq_step
    have shown : loadedJson ⟨index, some c⟩ = constantJson c := rfl
    rw [step, shown]
    refine ⟨⟨fun missing => absurd missing (constantJson_ne_missingJson c), ?_⟩,
      fun _ => ⟨.ofConstant c, rfl, rfl, (toJson_ofConstant c).symm⟩⟩
    rintro ⟨fault, failed, -⟩
    cases failed

theorem showsInstruction (found : program.code[pc]? = some i) :
    ShowsInstruction program pc i (program.offsetOf pc)
      (instructionEntryJson (entry program.constants pc (program.offsetOf pc) i)) := by
  have written := program.drop_encode found
  obtain ⟨operand, bytes⟩ := i.exists_encode
  have opcode : program.encode[program.offsetOf pc]? = some i.opcode := by
    rw [← Nat.add_zero (program.offsetOf pc), ← List.getElem?_drop, written, bytes]
    rfl
  cases i with
  | loadConst index =>
    have after : (program.encode.drop (program.offsetOf pc + 1)).take 4 =
        Bytes.ofWord index := by
      rw [← List.drop_drop, written, Instruction.encode_loadConst]
      rfl
    have value := Bytes.bigEndian_ofWord index
    constructor
    case opcode => exact ⟨_, opcode, rfl, rfl⟩
    case operand =>
      rintro _ ⟨⟩
      refine ⟨_, after.symm, rfl, value, ?_⟩
      rw [value]
      rfl
    case constant =>
      rintro _ ⟨⟩
      exact ⟨_, rfl, showsLoaded found⟩
    case alone => nofun
    all_goals rfl
  | _ =>
    constructor
    case opcode => exact ⟨_, opcode, rfl, rfl⟩
    case operand => nofun
    case constant => nofun
    case alone => exact fun _ => ⟨rfl, rfl⟩
    all_goals rfl

theorem getElem?_constantsFrom (first : Nat) (pool : ConstantPool) (index : Nat) :
    (constantsFrom first pool)[index]? =
      pool[index]?.map fun c => ⟨first + index, c⟩ := by
  induction pool generalizing first index with
  | nil => rfl
  | cons c pool ih =>
    cases index with
    | zero => rfl
    | succ index =>
      rw [constantsFrom, List.getElem?_cons_succ, ih, List.getElem?_cons_succ,
        Nat.add_assoc, Nat.add_comm 1]

theorem length_constantsFrom (first : Nat) (pool : ConstantPool) :
    (constantsFrom first pool).length = pool.length := by
  induction pool generalizing first with
  | nil => rfl
  | cons c pool ih => rw [constantsFrom, List.length_cons, ih, List.length_cons]

/-- A disassembly has an entry for each constant and for each instruction, in order.
At the offset of an instruction its file holds the opcode that is shown and, where
an operand is shown, that operand; the next instruction, or the end of the file, is
as far from there as the instruction is long. The constant that is shown is the one
that the machine pushes. -/
theorem toJson_agrees (program : Program) :
    ∃ constants instructions,
      (ofProgram program).toJson.member? "constants" = some (.array constants) ∧
      (ofProgram program).toJson.member? "instructions" =
        some (.array instructions) ∧
      constants.length = program.constants.length ∧
      (∀ index c, program.constants[index]? = some c →
        ∃ e, constants[index]? = some e ∧ ShowsConstant index c e) ∧
      instructions.length = program.code.length ∧
      ∀ pc i, program.code[pc]? = some i →
        ∃ e offset, instructions[pc]? = some e ∧
          ShowsInstruction program pc i offset e ∧
          (∀ next, instructions[pc + 1]? = some next →
            next.member? "offset" = some (natJson (offset + i.size))) ∧
          (pc + 1 = program.code.length → offset + i.size = program.encode.length) := by
  have shown : ∀ pc i, program.code[pc]? = some i →
      ((ofProgram program).instructions.map instructionEntryJson)[pc]? = some
        (instructionEntryJson (entry program.constants pc (program.offsetOf pc) i)) := by
    intro pc i found
    rw [List.getElem?_map, getElem?_ofProgram, found]
    rfl
  refine ⟨(ofProgram program).constants.map constantEntryJson,
    (ofProgram program).instructions.map instructionEntryJson, rfl, rfl, ?_, ?_, ?_, ?_⟩
  · rw [List.length_map]
    exact length_constantsFrom 0 program.constants
  · intro index c found
    refine ⟨constantEntryJson ⟨index, c⟩, ?_, rfl, rfl, rfl⟩
    unfold ofProgram
    rw [List.getElem?_map, getElem?_constantsFrom, found, Nat.zero_add]
    rfl
  · rw [List.length_map]
    exact length_instructions program
  · intro pc i found
    refine ⟨_, _, shown pc i found, showsInstruction found, ?_, ?_⟩
    · intro next there
      have inside : pc + 1 < program.code.length := by
        have inside := (List.getElem?_eq_some_iff.1 there).1
        rw [List.length_map] at inside
        rwa [← length_instructions program]
      have follows := List.getElem?_eq_getElem inside
      cases (shown _ _ follows).symm.trans there
      rw [(showsInstruction follows).placed, Program.offsetOf_succ found]
    · intro last
      rw [← Program.offsetOf_succ found, last, Program.offsetOf_length]

/-- A program without a `halt`, in which an `unknown` has the byte of an instruction
with an operand: the last five of its fifteen bytes are shown as an instruction that
finds no constant. -/
theorem toJson_agrees_unended :
    let program : Program := ⟨[.int 5], [.unknown 0x01, .loadConst 7]⟩
    program.encode.length = 15 ∧
      ∃ e, ShowsInstruction program 1 (.loadConst 7) 10 e ∧
        e.member? "constant" = some missingJson := by
  intro program
  obtain ⟨_, _, -, -, -, -, -, agrees⟩ := toJson_agrees program
  obtain ⟨e, offset, -, shows, -, last⟩ := agrees 1 (.loadConst 7) rfl
  have size : program.encode.length = 15 := by decide +kernel
  have ends : offset + 5 = 15 := (last rfl).trans size
  obtain rfl : offset = 10 := by omega
  obtain ⟨shown, constant, loaded⟩ := shows.constant 7 rfl
  -- Any machine that comes to the instruction will do.
  let m : Machine := ⟨program, [], 1, 1, false⟩
  let console := Console.fresh (Source.ofBytes []) Sink.unlimited
  have missing := (loaded m console rfl rfl rfl).1.2 ⟨_, rfl, rfl⟩
  exact ⟨size, e, shows, constant.trans (congrArg some missing)⟩

end Disassembly

end Bytecode
