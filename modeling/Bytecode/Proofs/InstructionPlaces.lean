import Bytecode.Disassembly
import Bytecode.Proofs.FileSections

/-!
Where the instructions of a file are, and where a disassembly says they are.

Code is read one instruction after the other, so the place of an instruction is
told by how much of the file is left when its turn comes (`Program.ReadAt`). A
disassembly is made from the program alone. Its offsets count from the end of the
pool as the program would be written, and so they are off by as many bytes as the
text in the file is longer or shorter than that.
-/

namespace Bytecode

/-! ## One instruction after the other -/

namespace Code

/-- The instruction that bytes begin with, and the bytes after it. -/
def next? : Bytes → Option (Instruction × Bytes)
  | [] => none
  | b :: rest =>
    if b = Instruction.loadConstOpcode then
      match rest with
      | w :: x :: y :: z :: rest =>
        some (.loadConst (Bytes.toWord w x y z), rest)
      | _ => none
    else some (Instruction.ofOpcode b, rest)

/-- What is left of bytes once a number of instructions has been read. -/
def leftAfter? : (count : Nat) → Bytes → Option Bytes
  | 0, bytes => some bytes
  | count + 1, bytes => (next? bytes).bind fun read => leftAfter? count read.2

/-- Reading code is reading its first instruction and, unless that is `halt`,
going on with the others. -/
theorem decode?_eq_next? (bytes : Bytes) :
    decode? bytes =
      (next? bytes).bind fun read =>
        if read.1 = .halt then some ([.halt], read.2)
        else push read.1 (decode? read.2) := by
  fun_cases decode? bytes with
  | case1 => rfl
  | case2 w x y z rest => rfl
  | case3 rest short =>
    unfold next?
    dsimp only
    rw [if_pos rfl]
    split
    · next w x y z rest => exact absurd rfl (short w x y z rest)
    · rfl
  | case4 rest notLoad => rfl
  | case5 b rest notLoad notHalt =>
    have goesOn : Instruction.ofOpcode b ≠ .halt := by
      intro same
      have opcode := (Instruction.ofOpcode_spec notLoad).1
      rw [same] at opcode
      exact notHalt opcode.symm
    unfold next?
    dsimp only
    rw [if_neg notLoad, Option.bind_some, if_neg goesOn]

/-- When the turn of an instruction comes, reading the rest gives it and the
instructions after it. -/
theorem leftAfter?_of_decode? {bytes tail : Bytes} {code : Code} {pc : Nat}
    (decoded : decode? bytes = some (code, tail)) (inside : pc < code.length) :
    ∃ left, leftAfter? pc bytes = some left ∧
      decode? left = some (code.drop pc, tail) := by
  induction pc generalizing bytes code with
  | zero => exact ⟨bytes, rfl, decoded⟩
  | succ pc ih =>
    rw [decode?_eq_next?] at decoded
    rcases Option.bind_eq_some_iff.1 decoded with ⟨⟨i, rest⟩, next, read⟩
    dsimp only at read
    split at read
    · -- Nothing comes after a `halt`.
      cases read
      exact absurd inside (Nat.not_lt.2 (Nat.le_add_left 1 pc))
    · rcases push_eq_some.1 read with ⟨others, found, rfl⟩
      rcases ih found (Nat.lt_of_succ_lt_succ inside) with ⟨left, reached, goesOn⟩
      refine ⟨left, ?_, goesOn⟩
      rw [leftAfter?, next]
      exact reached

/-- The bytes of code are those of the instructions before a place, of the one there
and of those after it. -/
theorem encode_of_getElem? {code : Code} {pc : Nat} {i : Instruction}
    (found : code[pc]? = some i) :
    code.encode =
      encode (code.take pc) ++ (i.encode ++ encode (code.drop (pc + 1))) := by
  rcases List.getElem?_eq_some_iff.1 found with ⟨inside, here⟩
  have split : code = code.take pc ++ i :: code.drop (pc + 1) := by
    rw [← here, ← List.drop_eq_getElem_cons inside, List.take_append_drop]
  conv_lhs => rw [split]
  rw [encode_append, encode_cons]

end Code

/-! ## Places -/

namespace Program

/-- Where an instruction of a file is read: as many bytes come before that place
as have been read when its turn comes. -/
def ReadAt (bytes : Bytes) (pc place : Nat) : Prop :=
  ∃ text rest left, Framed bytes text rest ∧
    Code.leftAfter? pc rest = some left ∧ place + left.length = bytes.length

section

variable {bytes text rest tail : Bytes} {code : Code} {pc : Nat}

/-- An instruction is read after the signature, the text of the pool, its null
byte and the instructions before it. -/
theorem readAt_iff (framed : Framed bytes text rest)
    (decoded : Code.decode? rest = some (code, tail)) (inside : pc < code.length)
    (place : Nat) :
    ReadAt bytes pc place ↔
      place = signature.length + text.length + 1 + Code.size (code.take pc) := by
  rcases Code.leftAfter?_of_decode? decoded inside with ⟨left, reached, goesOn⟩
  have whole : bytes.length = signature.length + text.length + 1 + rest.length := by
    rw [framed.parts, List.length_append, List.length_append, List.length_cons]
    omega
  have restLength : rest.length = code.size + tail.length := by
    rw [(Code.decode?_sound decoded).2, List.length_append, Code.length_encode]
  have leftLength : left.length = Code.size (code.drop pc) + tail.length := by
    rw [(Code.decode?_sound goesOn).2, List.length_append, Code.length_encode]
  have sizes : code.size = Code.size (code.take pc) + Code.size (code.drop pc) := by
    rw [← Code.size_append, List.take_append_drop]
  constructor
  · intro read
    rcases read with ⟨text', rest', left', framed', reached', before⟩
    rcases framed.unique framed' with ⟨rfl, rfl⟩
    cases reached.symm.trans reached'
    omega
  · intro placeEq
    exact ⟨text, rest, left, framed, reached, by omega⟩

/-- What stands at the place of an instruction are its bytes. -/
theorem ReadAt.begins {place : Nat} {i : Instruction}
    (read : ReadAt bytes pc place) (framed : Framed bytes text rest)
    (decoded : Code.decode? rest = some (code, tail)) (found : code[pc]? = some i) :
    i.encode <+: bytes.drop place := by
  have inside := (List.getElem?_eq_some_iff.1 found).1
  have placeEq := (readAt_iff framed decoded inside place).1 read
  have before : bytes =
      (signature ++ (text ++ 0x00 :: Code.encode (code.take pc))) ++
        (i.encode ++ (Code.encode (code.drop (pc + 1)) ++ tail)) := by
    rw [framed.parts, (Code.decode?_sound decoded).2, Code.encode_of_getElem? found]
    simp only [List.append_assoc, List.cons_append]
  have length : place =
      (signature ++ (text ++ 0x00 :: Code.encode (code.take pc))).length := by
    rw [placeEq, List.length_append, List.length_append, List.length_cons,
      Code.length_encode]
    omega
  rw [before, length, List.drop_left]
  exact List.prefix_append _ _

end

end Program

/-! ## Offsets -/

namespace Code

theorem length_offsetsFrom (start : Nat) (code : Code) :
    (offsetsFrom start code).length = code.length := by
  induction code generalizing start with
  | nil => rfl
  | cons i code ih => rw [offsetsFrom, List.length_cons, ih, List.length_cons]

/-- An instruction is as far from the start as the sizes before it add up to. -/
theorem getElem?_offsetsFrom (start : Nat) (code : Code) (pc : Nat) :
    (offsetsFrom start code)[pc]? =
      code[pc]?.map fun _ => start + size (code.take pc) := by
  induction code generalizing start pc with
  | nil => rfl
  | cons i code ih =>
    cases pc with
    | zero => rfl
    | succ pc =>
      rw [offsetsFrom, List.getElem?_cons_succ, ih, List.getElem?_cons_succ,
        List.take_succ_cons, size, Nat.add_assoc]

end Code

namespace Disassembly

theorem length_instructions (program : Program) :
    (ofProgram program).instructions.length = program.code.length := by
  unfold ofProgram instructionEntries Code.offsets
  rw [List.length_mapIdx, List.length_zip, Code.length_offsetsFrom, Nat.min_self]

theorem getElem?_ofProgram (program : Program) (pc : Nat) :
    (ofProgram program).instructions[pc]? =
      program.code[pc]?.map (entry program.constants pc
        (codeStart program + Code.size (program.code.take pc))) := by
  unfold ofProgram instructionEntries Code.offsets
  rw [List.getElem?_mapIdx, List.zip_eq_zipWith, List.getElem?_zipWith,
    Code.getElem?_offsetsFrom, Nat.zero_add]
  cases program.code[pc]? with
  | none => rfl
  | some i => rfl

theorem codeStart_eq (program : Program) :
    codeStart program =
      Program.signature.length + program.constants.text.length + 1 := by
  unfold codeStart
  rw [ConstantPool.encode_eq, List.length_append, List.length_map,
    List.length_singleton, Nat.add_assoc]

end Disassembly

namespace Program

/-- The disassembly of the program in a file has an entry for each instruction,
and the instruction has one place in the file. The offset in the entry differs
from that place by as much as the text of the pool as it is written differs in
length from the text in the file; so it is the place exactly when the two texts
have the same length. -/
theorem offset_of_readAt {bytes : Bytes} {program : Program}
    (decoded : decode bytes = .ok program) :
    ∃ text rest, Framed bytes text rest ∧
      ∀ pc i, program.code[pc]? = some i →
        ∃ entry place,
          (Disassembly.ofProgram program).instructions[pc]? = some entry ∧
          (∀ other, ReadAt bytes pc other ↔ other = place) ∧
          i.encode <+: bytes.drop place ∧
          entry.offset + text.length = place + program.constants.text.length ∧
          (entry.offset = place ↔ text.length = program.constants.text.length) := by
  rcases decode_eq_ok_iff.1 decoded with ⟨text, rest, tail, framed, -, code⟩
  refine ⟨text, rest, framed, fun pc i found => ?_⟩
  have inside := (List.getElem?_eq_some_iff.1 found).1
  have places := readAt_iff framed code inside
  have shown := Disassembly.getElem?_ofProgram program pc
  rw [found, Option.map_some] at shown
  refine ⟨_, _, shown, places, ((places _).2 rfl).begins framed code found, ?_⟩
  dsimp only [Disassembly.entry]
  rw [Disassembly.codeStart_eq]
  omega

/-- A text in the file that is shorter than the one written: the letter `é` takes
two bytes in the file, and six when it is escaped. -/
theorem offset_of_readAt_unescaped :
    let bytes := signature ++ [0x5B, 0x22, 0xC3, 0xA9, 0x22, 0x5D, 0x00, 0x07, 0x00]
    let program : Program := ⟨[.str "é"], [.newline, .halt]⟩
    decode bytes = .ok program ∧
      ∃ entry, (Disassembly.ofProgram program).instructions[1]? = some entry ∧
        entry.offset = 17 ∧ ∀ other, ReadAt bytes 1 other ↔ other = 13 := by
  intro bytes program
  have decoded : decode bytes = .ok program := by rfl
  obtain ⟨text, rest, framed, offsets⟩ := offset_of_readAt decoded
  have whole : Framed bytes [0x5B, 0x22, 0xC3, 0xA9, 0x22, 0x5D] [0x07, 0x00] :=
    ⟨rfl, by decide⟩
  obtain ⟨rfl, rfl⟩ := whole.unique framed
  obtain ⟨entry, place, shown, places, -, differs, -⟩ := offsets 1 .halt rfl
  cases shown
  have lengths : 17 + 6 = place + 10 := differs
  have atPlace : place = 13 := by omega
  exact ⟨decoded, _, rfl, by rfl, atPlace ▸ places⟩

/-- Offsets are not places in the file as it is: a space in the pool is counted
in no offset. -/
theorem offset_not_readAt :
    ¬ ∀ bytes program, decode bytes = .ok program →
      ∀ pc entry, (Disassembly.ofProgram program).instructions[pc]? = some entry →
        ReadAt bytes pc entry.offset := by
  intro every
  have decoded : decode (signature ++ [0x5B, 0x20, 0x5D, 0x00, 0x00]) =
      .ok ⟨[], [.halt]⟩ := by rfl
  obtain ⟨text, rest, left, framed, reached, before⟩ := every _ _ decoded 0 _ rfl
  cases reached
  have whole : Framed (signature ++ [0x5B, 0x20, 0x5D, 0x00, 0x00])
      [0x5B, 0x20, 0x5D] [0x00] := ⟨rfl, by decide⟩
  obtain ⟨rfl, rfl⟩ := whole.unique framed
  exact absurd before (by decide)

end Program

end Bytecode
