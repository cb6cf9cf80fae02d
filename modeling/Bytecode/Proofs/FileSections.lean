import Bytecode.Proofs.FileVerdicts

/-!
The sections of a file that holds a program.

Such a file is the signature, a text that reads as the constant pool, the null
byte that ends it, the bytes that the code would be written as, and anything
after them (`decode_eq_ok_iff`). The null byte is the first one after the
signature and the code has the size of its instructions, so a file can be divided
in this way once only. What follows the code is not looked at, and writing the
program again can change the text of the pool but not the code.
-/

namespace Bytecode

/-! ## Sizes -/

theorem Instruction.length_encode (i : Instruction) : i.encode.length = i.size := by
  cases i with
  | loadConst _ | halt | pop | drop | readInt | readString | print | newline
  | storeIndexed | pushBool | binary _ | unknown _ => rfl

theorem Code.length_encode (code : Code) : (encode code).length = code.size := by
  induction code with
  | nil => rfl
  | cons i code ih =>
    rw [encode_cons, List.length_append, ih, i.length_encode]
    rfl

theorem Code.size_append (left right : Code) :
    size (left ++ right) = left.size + right.size := by
  rw [← length_encode, ← length_encode, ← length_encode, encode_append,
    List.length_append]

namespace Program

/-! ## Reading a file -/

/-- The first null byte after the signature is in one place only. -/
theorem Framed.unique {bytes text text' rest rest' : Bytes}
    (framed : Framed bytes text rest) (other : Framed bytes text' rest') :
    text' = text ∧ rest' = rest := by
  have same := List.append_cancel_left (other.parts.symm.trans framed.parts)
  have cut := Bytes.cut?_eq_some_iff.2 ⟨same, framed.first⟩
  rw [Bytes.cut?_eq_some_iff.2 ⟨rfl, other.first⟩] at cut
  exact Prod.mk.inj (Option.some.inj cut)

theorem signature_of_readSignature {source : Source}
    (found : (readSignature source).1 = .ok ()) : signature <+: source.bytes := by
  unfold readSignature Source.take at found
  dsimp only at found
  by_cases enough : (source.bytes.take signature.length).length = signature.length
  · rw [if_pos enough] at found
    dsimp only at found
    by_cases same : source.bytes.take signature.length = signature
    · rw [← same]
      exact List.take_prefix _ _
    · rw [if_neg same] at found
      cases found
  · rw [if_neg enough] at found
    cases ending : source.ending with
    | closed | failing _ | paused _ _ =>
      rw [ending] at found
      cases found

/-- A program is read from a source exactly when the text there is a text of the
program's pool and the program's code is read from what follows. -/
theorem readParts_eq_ok_iff {source : Source} {program : Program} :
    (readParts source).1 = .ok program ↔
      ∃ text rest tail, Framed source.bytes text rest ∧
        ConstantPool.ofText text = .ok program.constants ∧
        Code.decode? rest = some (program.code, tail) := by
  constructor
  · intro found
    have signed : signature <+: source.bytes := by
      apply signature_of_readSignature
      unfold readParts at found
      split at found
      · cases found
      · next read => rw [read]
    rcases source with ⟨bytes, ending⟩
    rcases signed with ⟨rest, rfl⟩
    by_cases null : 0x00 ∈ rest
    swap
    · unfold readParts at found
      rw [readSignature_append] at found
      dsimp only at found
      rw [ConstantPool.read_unterminated null] at found
      cases found
    rcases List.eq_append_cons_of_mem null with ⟨text, rest, rfl, absent⟩
    have framed : Framed (signature ++ (text ++ 0x00 :: rest)) text rest :=
      ⟨rfl, absent⟩
    rw [readParts_framed framed] at found
    cases pool : ConstantPool.ofText text with
    | error e =>
      rw [pool] at found
      cases found
    | ok constants =>
      rw [pool] at found
      unfold Code.read at found
      cases code : Code.decode? rest with
      | none =>
        rw [code] at found
        cases found
      | some parts =>
        rw [code] at found
        cases found
        exact ⟨text, rest, parts.2, framed, pool, code⟩
  · intro parts
    rcases parts with ⟨text, rest, tail, framed, pool, code⟩
    rw [readParts_framed framed, pool]
    unfold Code.read
    rw [code]
    rfl

theorem decode_eq_ok_iff {bytes : Bytes} {program : Program} :
    decode bytes = .ok program ↔
      ∃ text rest tail, Framed bytes text rest ∧
        ConstantPool.ofText text = .ok program.constants ∧
        Code.decode? rest = some (program.code, tail) := by
  rw [decode_eq_readParts]
  exact readParts_eq_ok_iff

/-! ## Sections -/

/-- The sections of a file after its signature. A null byte stands between the
text of the pool and the code. -/
structure Sections where
  /-- The text of the constant pool. -/
  text : Bytes
  code : Bytes
  /-- What follows the code. -/
  tail : Bytes

/-- The file with given sections. -/
def Sections.bytes (s : Sections) : Bytes :=
  signature ++ (s.text ++ 0x00 :: (s.code ++ s.tail))

/-- A division of a file into sections in which the text ends with the first null
byte and the code has the size of a program's code. -/
structure Divided (program : Program) (bytes : Bytes) (s : Sections) : Prop where
  bytes_eq : bytes = s.bytes
  first : 0x00 ∉ s.text
  size : s.code.length = program.code.size

theorem Divided.framed {program : Program} {bytes : Bytes} {s : Sections}
    (divided : Divided program bytes s) :
    Framed bytes s.text (s.code ++ s.tail) :=
  ⟨divided.bytes_eq, divided.first⟩

theorem Divided.unique {program : Program} {bytes : Bytes} {s s' : Sections}
    (divided : Divided program bytes s) (other : Divided program bytes s') :
    s' = s := by
  rcases s with ⟨text, code, tail⟩
  rcases s' with ⟨text', code', tail'⟩
  rcases divided.framed.unique other.framed with ⟨textEq, rest⟩
  rcases List.append_inj rest (other.size.trans divided.size.symm) with
    ⟨codeEq, tailEq⟩
  dsimp only at textEq codeEq tailEq
  rw [textEq, codeEq, tailEq]

/-- The sections of a written program: the text of its pool and its code. -/
theorem encode_eq_bytes (program : Program) :
    program.encode =
      Sections.bytes ⟨program.constants.text.map Bytes.ascii, program.code.encode,
        []⟩ := by
  unfold encode Sections.bytes
  rw [ConstantPool.encode_eq, List.append_nil, List.append_assoc, List.append_assoc]
  rfl

/-- A file with a text of the pool and the code of a program holds it, whatever
follows. -/
theorem decode_bytes {program : Program} {text : Bytes}
    (pool : ConstantPool.ofText text = .ok program.constants)
    (first : 0x00 ∉ text) (canonical : program.code.Canonical) (tail : Bytes) :
    decode (Sections.bytes ⟨text, program.code.encode, tail⟩) = .ok program :=
  decode_eq_ok_iff.2 ⟨text, _, tail, ⟨rfl, first⟩, pool,
    Code.decode?_encode canonical tail⟩

/-- A file that holds a program has one division into sections. Its code is the
code that the program is written with, what follows the code can be replaced by
anything, and the program written again differs in the text of the pool only,
which stands for the same pool. -/
theorem decode_divides {bytes : Bytes} {program : Program}
    (decoded : decode bytes = .ok program) :
    ∃ s : Sections, (∀ s', Divided program bytes s' ↔ s' = s) ∧
      ConstantPool.ofText s.text = .ok program.constants ∧
      s.code = program.code.encode ∧
      (∀ tail, decode { s with tail := tail }.bytes = .ok program) ∧
      ∃ text, program.encode = { s with text := text, tail := [] }.bytes ∧
        0x00 ∉ text ∧ ConstantPool.ofText text = .ok program.constants := by
  rcases decode_eq_ok_iff.1 decoded with ⟨text, rest, tail, framed, pool, code⟩
  rcases Code.decode?_sound code with ⟨canonical, rfl⟩
  have divided : Divided program bytes ⟨text, program.code.encode, tail⟩ :=
    ⟨framed.parts, framed.first, program.code.length_encode⟩
  refine ⟨⟨text, program.code.encode, tail⟩, fun s' => ⟨divided.unique, ?_⟩, pool,
    rfl, decode_bytes pool framed.first canonical, ?_⟩
  · intro same
    rw [same]
    exact divided
  · exact ⟨_, encode_eq_bytes program, program.constants.terminator_not_mem_text,
      ConstantPool.ofText_eq_ok_iff.2 (ConstantPool.text_poolText _)⟩

/-- A file with spaces in its pool, zero bytes in an operand, a byte without a
meaning, and what looks like code after its end: the text that is written again
has no spaces. -/
theorem decode_divides_spaced :
    let text := [0x5B, 0x20, 0x37, 0x20, 0x5D]
    let code := [0x01, 0x00, 0x00, 0x00, 0x00, 0xFF, 0x00]
    let bytes := signature ++ (text ++ 0x00 :: (code ++ [0x06, 0x00]))
    let program : Program := ⟨[.int 7], [.loadConst 0, .unknown 0xFF, .halt]⟩
    decode bytes = .ok program ∧
      (∀ s, Divided program bytes s ↔ s = ⟨text, code, [0x06, 0x00]⟩) ∧
      decode (Sections.bytes ⟨text, code, [0x13]⟩) = .ok program ∧
      program.encode = Sections.bytes ⟨[0x5B, 0x37, 0x5D], code, []⟩ := by
  intro text code bytes program
  have decoded : decode bytes = .ok program := by rfl
  have divided : Divided program bytes ⟨text, code, [0x06, 0x00]⟩ :=
    ⟨rfl, by decide, rfl⟩
  obtain ⟨s, only, pool, codeEq, tails, again⟩ := decode_divides decoded
  obtain rfl := (only _).1 divided
  exact ⟨decoded, only, tails [0x13], by rfl⟩

end Program

end Bytecode
