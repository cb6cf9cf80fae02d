import Bytecode.Code
import Bytecode.Proofs.Utf8Roundtrip

/-!
Code as bytes and back.

A byte that has a meaning stands for one instruction, and so does a byte without
one: the instructions that a file can hold are those whose `unknown` bytes have
no meaning. Such code is read back instruction by instruction up to its first
`halt`, and a zero byte inside an operand is not taken for one. In the other
direction, whatever is read ends with its only `halt`, holds only such
instructions, and takes up exactly the bytes that it would be written as.
-/

namespace Bytecode

/-! ## Words -/

namespace Bytes

theorem toWord_ofWord (word : UInt32) :
    toWord (UInt8.ofNat (word.toNat / 0x1000000))
      (UInt8.ofNat (word.toNat / 0x10000)) (UInt8.ofNat (word.toNat / 0x100))
      (UInt8.ofNat word.toNat) = word := by
  have bound := word.toNat_lt
  unfold toWord
  apply UInt32.toNat_inj.1
  simp only [UInt8.toNat_ofNat', UInt32.toNat_ofNat']
  omega

theorem ofWord_toWord (a b c d : UInt8) :
    ofWord (toWord a b c d) = [a, b, c, d] := by
  have boundA := a.toNat_lt
  have boundB := b.toNat_lt
  have boundC := c.toNat_lt
  have boundD := d.toNat_lt
  have value : (toWord a b c d).toNat =
      a.toNat * 0x1000000 + b.toNat * 0x10000 + c.toNat * 0x100 + d.toNat := by
    unfold toWord
    rw [UInt32.toNat_ofNat']
    omega
  unfold ofWord
  rw [value]
  simp only [List.cons.injEq, ← UInt8.toNat_inj, UInt8.toNat_ofNat', and_true]
  omega

end Bytes

/-! ## Instructions -/

namespace Instruction

/-- An instruction whose opcode has no other meaning than the instruction. -/
def Genuine : Instruction → Prop
  | unknown byte => 0x12 < byte.toNat
  | _ => True

instance (i : Instruction) : Decidable i.Genuine :=
  match i with
  | unknown byte => inferInstanceAs (Decidable (0x12 < byte.toNat))
  | halt | loadConst _ | pop | drop | readInt | readString | print | newline
  | storeIndexed | pushBool | binary _ => .isTrue trivial

theorem encode_loadConst (index : UInt32) :
    (loadConst index).encode = loadConstOpcode :: Bytes.ofWord index := by
  rfl

theorem encode_of_operand?_eq_none {i : Instruction}
    (alone : i.operand? = none) : i.encode = [i.opcode] := by
  unfold encode pieces
  rw [alone]
  rfl

theorem ofOpcode_unknown {byte : UInt8} (unassigned : 0x12 < byte.toNat) :
    ofOpcode byte = unknown byte := by
  unfold ofOpcode
  split
  all_goals first | rfl | omega

/-- An instruction without an operand is found from its opcode. -/
theorem ofOpcode_opcode {i : Instruction} (genuine : i.Genuine)
    (alone : i.operand? = none) : ofOpcode i.opcode = i := by
  cases i with
  | loadConst index => cases alone
  | unknown byte => exact ofOpcode_unknown genuine
  | binary op => cases op <;> rfl
  | halt | pop | drop | readInt | readString | print | newline | storeIndexed
  | pushBool => rfl

theorem opcode_ne_loadConstOpcode {i : Instruction} (genuine : i.Genuine)
    (alone : i.operand? = none) : i.opcode ≠ loadConstOpcode := by
  intro same
  have found := ofOpcode_opcode genuine alone
  rw [same] at found
  subst found
  exact absurd genuine (by decide)

theorem opcode_ne_haltOpcode {i : Instruction} (genuine : i.Genuine)
    (alone : i.operand? = none) (goesOn : i ≠ halt) :
    i.opcode ≠ haltOpcode := by
  intro same
  have found := ofOpcode_opcode genuine alone
  rw [same] at found
  exact goesOn found.symm

/-- Every byte but the one that announces an operand stands for an instruction
that it is the opcode of. -/
theorem ofOpcode_spec {byte : UInt8} (alone : byte ≠ loadConstOpcode) :
    (ofOpcode byte).opcode = byte ∧ (ofOpcode byte).operand? = none ∧
      (ofOpcode byte).Genuine := by
  have notOne : byte.toNat ≠ 1 := fun one => alone (UInt8.toNat_inj.1 one)
  unfold ofOpcode
  split
  -- The last case is the one of the bytes that no case before it names.
  case h_19 =>
    refine ⟨rfl, rfl, ?_⟩
    change 0x12 < byte.toNat
    grind
  all_goals
    next number => exact ⟨UInt8.toNat_inj.1 number.symm, rfl, trivial⟩

end Instruction

/-! ## Code -/

namespace Code

/-- Code in the form that reading gives: `halt` stands at the end and nowhere
else, and every instruction is the meaning of its opcode. -/
structure Canonical (code : Code) : Prop where
  ends : code.getLast? = some .halt
  once : .halt ∉ code.dropLast
  genuine : ∀ i ∈ code, i.Genuine

theorem canonical_concat {code : Code} (goesOn : .halt ∉ code)
    (genuine : ∀ i ∈ code, i.Genuine) : Canonical (code ++ [.halt]) where
  ends := List.getLast?_concat
  once := by rwa [List.dropLast_concat]
  genuine := by
    intro i member
    rcases List.mem_append.1 member with member | member
    · exact genuine i member
    · rw [List.mem_singleton.1 member]
      trivial

/-- Canonical code is some code without a `halt`, and a `halt` after it. -/
theorem Canonical.exists_concat {code : Code} (canonical : Canonical code) :
    ∃ front, code = front ++ [.halt] ∧ .halt ∉ front := by
  rcases List.getLast?_eq_some_iff.1 canonical.ends with ⟨front, rfl⟩
  have once := canonical.once
  rw [List.dropLast_concat] at once
  exact ⟨front, rfl, once⟩

theorem canonical_cons {i : Instruction} {code : Code} (genuine : i.Genuine)
    (goesOn : i ≠ .halt) (canonical : Canonical code) :
    Canonical (i :: code) := by
  rcases canonical.exists_concat with ⟨front, rfl, once⟩
  have others := fun j member => canonical.genuine j (List.mem_append_left _ member)
  rw [← List.cons_append]
  apply canonical_concat
  · intro member
    rcases List.mem_cons.1 member with same | member
    · exact goesOn same.symm
    · exact once member
  · exact List.forall_mem_cons.2 ⟨genuine, others⟩

theorem encode_cons (i : Instruction) (code : Code) :
    encode (i :: code) = i.encode ++ encode code :=
  List.flatMap_cons

theorem encode_append (left right : Code) :
    encode (left ++ right) = encode left ++ encode right :=
  List.flatMap_append

theorem push_eq_some {i : Instruction} {read : Option (Code × Bytes)}
    {code : Code} {rest : Bytes} :
    push i read = some (code, rest) ↔
      ∃ others, read = some (others, rest) ∧ code = i :: others := by
  unfold push
  rw [Option.map_eq_some_iff]
  constructor
  · intro found
    rcases found with ⟨parts, readEq, same⟩
    rcases Prod.mk.inj same with ⟨rfl, rfl⟩
    exact ⟨parts.1, readEq, rfl⟩
  · intro found
    rcases found with ⟨others, readEq, rfl⟩
    exact ⟨(others, rest), readEq, rfl⟩

/-! ## Reading what was written -/

theorem decode?_halt (rest : Bytes) :
    decode? (Instruction.halt.encode ++ rest) = some ([.halt], rest) := by
  rw [Instruction.encode_of_operand?_eq_none rfl, List.cons_append,
    decode?.eq_def]
  rfl

theorem decode?_loadConst (index : UInt32) (rest : Bytes) :
    decode? ((Instruction.loadConst index).encode ++ rest) =
      push (.loadConst index) (decode? rest) := by
  rw [Instruction.encode_loadConst, List.cons_append, decode?.eq_def]
  dsimp only
  rw [if_pos rfl]
  unfold Bytes.ofWord
  simp only [List.cons_append, List.nil_append]
  rw [Bytes.toWord_ofWord]

/-- Reading takes an instruction that goes on off the front of the bytes. -/
theorem decode?_encode_append {i : Instruction} (genuine : i.Genuine)
    (goesOn : i ≠ .halt) (rest : Bytes) :
    decode? (i.encode ++ rest) = push i (decode? rest) := by
  cases alone : i.operand? with
  | some operand =>
    cases i with
    | loadConst index => exact decode?_loadConst index rest
    | halt | pop | drop | readInt | readString | print | newline
    | storeIndexed | pushBool | binary _ | unknown _ => cases alone
  | none =>
    rw [Instruction.encode_of_operand?_eq_none alone, List.cons_append,
      List.nil_append, decode?.eq_def]
    dsimp only
    rw [if_neg (Instruction.opcode_ne_loadConstOpcode genuine alone),
      if_neg (Instruction.opcode_ne_haltOpcode genuine alone goesOn),
      Instruction.ofOpcode_opcode genuine alone]

/-- Code is read back up to its first `halt`, and what is written after that
stays unread. -/
theorem decode?_encode_halt {front : Code} (goesOn : .halt ∉ front)
    (genuine : ∀ i ∈ front, i.Genuine) (rest : Bytes) :
    decode? (encode front ++ (Instruction.halt.encode ++ rest)) =
      some (front ++ [.halt], rest) := by
  induction front with
  | nil => exact decode?_halt rest
  | cons i front ih =>
    rcases List.forall_mem_cons.1 genuine with ⟨first, others⟩
    have notHalt : i ≠ .halt :=
      fun same => goesOn (same ▸ List.mem_cons_self)
    have absent : .halt ∉ front :=
      fun member => goesOn (List.mem_cons_of_mem i member)
    rw [encode_cons, List.append_assoc, decode?_encode_append first notHalt,
      ih absent others]
    rfl

theorem decode?_encode {code : Code} (canonical : Canonical code)
    (rest : Bytes) : decode? (encode code ++ rest) = some (code, rest) := by
  rcases canonical.exists_concat with ⟨front, rfl, once⟩
  have genuine := fun i member => canonical.genuine i (List.mem_append_left _ member)
  have written : encode [Instruction.halt] = Instruction.halt.encode := by rfl
  rw [encode_append, written, List.append_assoc]
  exact decode?_encode_halt once genuine rest

/-! ## What reading gives -/

/-- What is read is canonical, and takes up the bytes it would be written as. -/
theorem decode?_sound {bytes rest : Bytes} {code : Code}
    (decoded : decode? bytes = some (code, rest)) :
    Canonical code ∧ bytes = encode code ++ rest := by
  fun_induction decode? bytes generalizing code with
  | case1 => cases decoded
  | case2 w x y z bytes ih =>
    rcases push_eq_some.1 decoded with ⟨others, found, rfl⟩
    rcases ih found with ⟨canonical, rfl⟩
    refine ⟨canonical_cons trivial (by intro same; cases same) canonical, ?_⟩
    rw [encode_cons, Instruction.encode_loadConst, Bytes.ofWord_toWord]
    rfl
  | case3 bytes short => cases decoded
  | case4 bytes notLoad =>
    rcases Prod.mk.inj (Option.some.inj decoded) with ⟨rfl, rfl⟩
    exact ⟨canonical_concat List.not_mem_nil (List.forall_mem_nil _), rfl⟩
  | case5 byte bytes notLoad notHalt ih =>
    rcases push_eq_some.1 decoded with ⟨others, found, rfl⟩
    rcases ih found with ⟨canonical, rfl⟩
    rcases Instruction.ofOpcode_spec notLoad with ⟨opcode, alone, genuine⟩
    have goesOn : Instruction.ofOpcode byte ≠ .halt := by
      intro same
      rw [same] at opcode
      exact notHalt opcode.symm
    refine ⟨canonical_cons genuine goesOn canonical, ?_⟩
    rw [encode_cons, Instruction.encode_of_operand?_eq_none alone, opcode]
    rfl

end Code

end Bytecode
