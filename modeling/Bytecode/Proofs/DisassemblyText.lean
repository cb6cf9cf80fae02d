import Bytecode.Proofs.CodeRoundtrip
import Bytecode.Proofs.InstructionPlaces
import Bytecode.Proofs.JsonLayout

/-!
A disassembly loses nothing of a program.

Each step from a program to the text of its disassembly can be undone. The text
shows one value of JSON, since there are no real numbers in it; the value shows one
disassembly (`toJson_inj`), since numbers, bytes and constants are each shown in one
way; and the disassembly comes from one program (`ofProgram_inj`). What is shown of
an instruction is just enough: the opcode does not tell an instruction from an
`unknown` that holds its byte, and the name does not tell two of those apart.
-/

namespace Bytecode

/-! ## Instructions -/

theorem Bytes.hexText_inj {a b : UInt8} (same : hexText a = hexText b) : a = b := by
  have digits : ∀ m < 16, ∀ n < 16,
      (Nat.digitChar m).toUpper = (Nat.digitChar n).toUpper → m = n := by
    decide
  have boundA := a.toNat_lt
  have boundB := b.toNat_lt
  simp only [hexText, String.ofList_inj, List.cons.injEq, true_and, and_true] at same
  have high := digits _ (by omega) _ (by omega) same.1
  have low := digits _ (by omega) _ (by omega) same.2
  exact UInt8.toNat_inj.1 (by omega)

namespace Instruction

variable {i j : Instruction}

theorem eq_unknown_of_mnemonic (named : i.mnemonic = "UNKNOWN") :
    i = unknown i.opcode := by
  cases i with
  | unknown byte => rfl
  | binary op => cases op <;> exact absurd named (by decide)
  | halt | loadConst _ | pop | drop | readInt | readString | print | newline
  | storeIndexed | pushBool => exact absurd named (by simp [mnemonic])

theorem genuine_of_mnemonic (named : i.mnemonic ≠ "UNKNOWN") : i.Genuine := by
  cases i with
  | unknown byte => exact absurd rfl named
  | halt | loadConst _ | pop | drop | readInt | readString | print | newline
  | storeIndexed | pushBool | binary _ => trivial

theorem eq_loadConst_of_operand? {index : UInt32} (operand : i.operand? = some index) :
    i = loadConst index := by
  cases i with
  | loadConst _ =>
    cases operand
    rfl
  | halt | pop | drop | readInt | readString | print | newline | storeIndexed
  | pushBool | binary _ | unknown _ => cases operand

/-- An instruction is known from its opcode, its name and its operand. -/
theorem eq_of_shown (opcode : i.opcode = j.opcode) (mnemonic : i.mnemonic = j.mnemonic)
    (operand : i.operand? = j.operand?) : i = j := by
  cases found : i.operand? with
  | some index =>
    rw [eq_loadConst_of_operand? found,
      eq_loadConst_of_operand? (operand.symm.trans found)]
  | none =>
    by_cases named : i.mnemonic = "UNKNOWN"
    · rw [eq_unknown_of_mnemonic named, opcode,
        ← eq_unknown_of_mnemonic (mnemonic.symm.trans named)]
    · have genuine := genuine_of_mnemonic named
      rw [mnemonic] at named
      rw [← ofOpcode_opcode genuine found, opcode,
        ofOpcode_opcode (genuine_of_mnemonic named) (operand.symm.trans found)]

end Instruction

namespace Disassembly

/-! ## From JSON -/

theorem natJson_inj {m n : Nat} (same : natJson m = natJson n) : m = n :=
  Int.ofNat.inj (Json.Number.integer.inj (Json.Value.number.inj same))

theorem constantJson_inj {c d : Constant} (same : constantJson c = constantJson d) :
    c = d := by
  cases c with
  | int i =>
    cases d with
    | int j =>
      have words := Json.Number.integer.inj (Json.Value.number.inj same)
      rw [Int64.toInt_inj.1 words]
    | str t => cases same
  | str s =>
    cases d with
    | int j => cases same
    | str t => rw [Json.Value.string.inj same]

/-- The constant beside an operand is shown, or that there is none. -/
theorem loadedJson_inj {e e' : OperandEntry} (operand : e.operand = e'.operand)
    (same : loadedJson e = loadedJson e') : e = e' := by
  rcases e with ⟨index, _ | c⟩
  · rcases e' with ⟨index', _ | d⟩
    · rw [OperandEntry.mk.injEq]
      exact ⟨operand, rfl⟩
    · cases d <;> cases same
  · rcases e' with ⟨index', _ | d⟩
    · cases c <;> cases same
    · rw [OperandEntry.mk.injEq]
      exact ⟨operand, congrArg some (constantJson_inj same)⟩

theorem constantEntryJson_inj {e e' : ConstantEntry}
    (same : constantEntryJson e = constantEntryJson e') : e = e' := by
  rcases e with ⟨index, c⟩
  rcases e' with ⟨index', d⟩
  simp only [constantEntryJson, Json.Value.object.injEq, List.cons.injEq,
    Prod.mk.injEq, true_and, and_true] at same
  rw [natJson_inj same.1, constantJson_inj same.2.2]

theorem instructionEntryJson_inj {e e' : InstructionEntry}
    (same : instructionEntryJson e = instructionEntryJson e') : e = e' := by
  rcases e with ⟨pc, offset, opcode, mnemonic, _ | o⟩
  · rcases e' with ⟨pc', offset', opcode', mnemonic', _ | o'⟩
    · simp only [instructionEntryJson, Json.Value.object.injEq, List.cons.injEq,
        Prod.mk.injEq, Json.Value.string.injEq, true_and, and_true] at same
      rcases same with ⟨mnemonics, offsets, opcodes, places⟩
      rw [mnemonics, natJson_inj offsets, Bytes.hexText_inj opcodes, natJson_inj places]
    · simp [instructionEntryJson] at same
  · rcases e' with ⟨pc', offset', opcode', mnemonic', _ | o'⟩
    · simp [instructionEntryJson] at same
    · simp only [instructionEntryJson, Json.Value.object.injEq, List.cons.injEq,
        Prod.mk.injEq, Json.Value.string.injEq, true_and, and_true] at same
      rcases same with ⟨constants, mnemonics, offsets, opcodes, operands, places⟩
      have operand := UInt32.toNat_inj.1 (natJson_inj operands)
      rw [mnemonics, natJson_inj offsets, Bytes.hexText_inj opcodes, natJson_inj places,
        loadedJson_inj operand constants]

theorem toJson_inj {d d' : Disassembly} (same : d.toJson = d'.toJson) : d = d' := by
  rcases d with ⟨constants, instructions⟩
  rcases d' with ⟨constants', instructions'⟩
  simp only [toJson, Json.Value.object.injEq, List.cons.injEq, Prod.mk.injEq,
    Json.Value.array.injEq, true_and, and_true] at same
  rw [(List.map_inj_right fun _ _ => constantEntryJson_inj).1 same.1,
    (List.map_inj_right fun _ _ => instructionEntryJson_inj).1 same.2]

/-! ## Texts -/

theorem integral_constantJson (c : Constant) : (constantJson c).Integral := by
  cases c with
  | int i => exact .integer _
  | str s => exact .string s

theorem integral_loadedJson (e : OperandEntry) : (loadedJson e).Integral := by
  unfold loadedJson
  split
  · exact integral_constantJson _
  · exact .object (List.forall_mem_cons.2 ⟨.string _, List.forall_mem_nil _⟩)

theorem integral_constantEntryJson (e : ConstantEntry) :
    (constantEntryJson e).Integral := by
  refine .object ?_
  simp only [List.forall_mem_cons]
  exact ⟨.integer _, .string _, integral_constantJson _, List.forall_mem_nil _⟩

theorem integral_instructionEntryJson (e : InstructionEntry) :
    (instructionEntryJson e).Integral := by
  unfold instructionEntryJson
  split
  · refine .object ?_
    simp only [List.forall_mem_cons]
    exact ⟨.string _, .integer _, .string _, .integer _, List.forall_mem_nil _⟩
  · refine .object ?_
    simp only [List.forall_mem_cons]
    exact ⟨integral_loadedJson _, .string _, .integer _, .string _, .integer _,
      .integer _, List.forall_mem_nil _⟩

/-- There are no real numbers in a disassembly. -/
theorem integral_toJson (d : Disassembly) : d.toJson.Integral := by
  refine .object ?_
  simp only [List.forall_mem_cons]
  refine ⟨.array ?_, .array ?_, List.forall_mem_nil _⟩
  · exact List.forall_mem_map.2 fun e _ => integral_constantEntryJson e
  · exact List.forall_mem_map.2 fun e _ => integral_instructionEntryJson e

theorem text_inj {d d' : Disassembly} (same : d.text = d'.text) : d = d' :=
  toJson_inj (d.integral_toJson.pretty_inj d'.integral_toJson same)

/-! ## Back to programs -/

theorem map_constant_constantsFrom (index : Nat) (pool : ConstantPool) :
    (constantsFrom index pool).map ConstantEntry.constant = pool := by
  induction pool generalizing index with
  | nil => rfl
  | cons c pool ih => rw [constantsFrom, List.map_cons, ih]

theorem entry_inj {pool pool' : ConstantPool} {pc pc' offset offset' : Nat}
    {i j : Instruction} (same : entry pool pc offset i = entry pool' pc' offset' j) :
    i = j := by
  simp only [entry, InstructionEntry.mk.injEq] at same
  rcases same with ⟨-, -, opcode, mnemonic, operand⟩
  have operands := congrArg (Option.map OperandEntry.operand) operand
  rw [Option.map_map, Option.map_map] at operands
  exact Instruction.eq_of_shown opcode mnemonic
    (by simpa only [Function.comp_def, Option.map_id'] using operands)

theorem code_eq_of_instructions {program program' : Program}
    (same : (ofProgram program).instructions = (ofProgram program').instructions) :
    program.code = program'.code := by
  refine List.ext_getElem? fun pc => ?_
  have here : (ofProgram program).instructions[pc]? =
      (ofProgram program').instructions[pc]? := by rw [same]
  rw [getElem?_ofProgram, getElem?_ofProgram] at here
  cases found : program.code[pc]? with
  | none =>
    rw [found, Option.map_none] at here
    exact (Option.map_eq_none_iff.1 here.symm).symm
  | some i =>
    rw [found, Option.map_some] at here
    rcases Option.map_eq_some_iff.1 here.symm with ⟨j, found', shown⟩
    rw [found', entry_inj shown]

theorem ofProgram_inj {program program' : Program}
    (same : ofProgram program = ofProgram program') : program = program' := by
  have codes := code_eq_of_instructions (congrArg instructions same)
  have pools := congrArg (List.map ConstantEntry.constant) (congrArg constants same)
  simp only [ofProgram, map_constant_constantsFrom] at pools
  rcases program with ⟨constants, code⟩
  rcases program' with ⟨constants', code'⟩
  rw [Program.mk.injEq]
  exact ⟨pools, codes⟩

/-- Programs whose disassemblies have the same text are the same. -/
theorem text_ofProgram_inj {program program' : Program} :
    (ofProgram program).text = (ofProgram program').text ↔ program = program' := by
  constructor
  · intro same
    exact ofProgram_inj (text_inj same)
  · rintro rfl
    rfl

end Disassembly

end Bytecode
