import Bytecode.Proofs.FileSections

/-!
Where a program can begin in a row of files.

The signature ends with a null byte, and none of the four bytes before it is null
or announces an operand. In a file as it is written such a null byte ends the
signature or the code: the text of the pool has no null byte and does not end
like the signature, and a null byte in an operand has the opcode of its
instruction at most four bytes before it. Where code ends like the signature, the
next file follows, and no pool begins like a file. Hence a program can be read
from a place in a row of written files only if one of them begins there
(`boundary_of_decode`).
-/

namespace Bytecode

/-! ## Null bytes -/

/-- A null byte in an instruction that does not end the code is part of its
operand. -/
theorem Instruction.null_of_getElem? {i : Instruction} (genuine : i.Genuine)
    (goesOn : i ≠ halt) {place : Nat} (null : i.encode[place]? = some 0x00) :
    0 < place ∧ place ≤ 4 ∧ i.encode[0]? = some loadConstOpcode := by
  have inside := (List.getElem?_eq_some_iff.1 null).1
  rw [i.length_encode] at inside
  cases operand : i.operand? with
  | none =>
    have opcode := opcode_ne_haltOpcode genuine operand goesOn
    rw [encode_of_operand?_eq_none operand, List.getElem?_singleton] at null
    split at null
    · exact absurd (Option.some.inj null) opcode
    · cases null
  | some index =>
    cases i with
    | loadConst index =>
      have later : place ≠ 0 := by
        rintro rfl
        rw [encode_loadConst] at null
        cases null
      have size : (loadConst index).size = 5 := rfl
      exact ⟨by omega, by omega, rfl⟩
    | _ => cases operand

theorem Code.null_of_getElem? {code : Code} (goesOn : .halt ∉ code)
    (genuine : ∀ i ∈ code, i.Genuine) {place : Nat}
    (null : (encode (code ++ [.halt]))[place]? = some 0x00) :
    place + 1 = (encode (code ++ [.halt])).length ∨
      ∃ start, start < place ∧ place ≤ start + 4 ∧
        (encode (code ++ [.halt]))[start]? = some Instruction.loadConstOpcode := by
  induction code generalizing place with
  | nil =>
    left
    have inside := (List.getElem?_eq_some_iff.1 null).1
    have one : (encode ([] ++ [Instruction.halt])).length = 1 := rfl
    omega
  | cons i code ih =>
    rw [List.mem_cons, not_or] at goesOn
    rw [List.forall_mem_cons] at genuine
    rw [List.cons_append, encode_cons] at null ⊢
    rw [List.length_append]
    by_cases later : i.encode.length ≤ place
    · rw [List.getElem?_append_right later] at null
      rcases ih goesOn.2 genuine.2 null with last | ⟨start, before, near, found⟩
      · left
        omega
      · right
        refine ⟨i.encode.length + start, by omega, by omega, ?_⟩
        rw [List.getElem?_append_right (Nat.le_add_right _ _), Nat.add_sub_cancel_left,
          found]
    · rw [List.getElem?_append_left (by omega)] at null
      rcases Instruction.null_of_getElem? genuine.1 (Ne.symm goesOn.1) null with
        ⟨before, near, found⟩
      refine .inr ⟨0, before, by omega, ?_⟩
      rw [List.getElem?_append_left (by omega), found]

/-- A null byte in the code is its last byte, or part of an operand. -/
theorem Code.Canonical.null_of_getElem? {code : Code} (canonical : code.Canonical)
    {place : Nat} (null : code.encode[place]? = some 0x00) :
    place + 1 = code.encode.length ∨
      ∃ start, start < place ∧ place ≤ start + 4 ∧
        code.encode[start]? = some Instruction.loadConstOpcode := by
  rcases canonical.exists_concat with ⟨front, rfl, once⟩
  have genuine := fun i member => canonical.genuine i (List.mem_append_left _ member)
  exact Code.null_of_getElem? once genuine null

namespace Program

/-! ## Signatures -/

/-- The text of a written pool ends with a bracket. -/
theorem getLast?_text (pool : ConstantPool) :
    (pool.text.map Bytes.ascii).getLast? = some 0x5D := by
  rw [List.getLast?_map]
  cases pool with
  | nil => rfl
  | cons c rest =>
    rw [ConstantPool.text, List.getLast?_concat]
    rfl

theorem getElem?_of_signature {bytes : Bytes} {place : Nat}
    (signed : signature <+: bytes.drop place) {i : Nat} (inside : i < 5) :
    bytes[place + i]? = signature[i]? := by
  rcases signed with ⟨rest, parts⟩
  rw [← List.getElem?_drop, ← parts, List.getElem?_append_left inside]

/-- A signature that begins before a null byte ends there at the latest. -/
theorem signature_of_append {bytes tail : Bytes} (null : 0x00 ∈ bytes)
    (signed : signature <+: bytes ++ tail) : signature <+: bytes := by
  rcases List.prefix_or_prefix_of_prefix signed (List.prefix_append bytes tail) with
    whole | ⟨rest, parts⟩
  · exact whole
  · -- The null byte of the signature is its last.
    cases rest with
    | nil =>
      rw [List.append_nil] at parts
      exact parts ▸ List.prefix_rfl
    | cons b rest =>
      have front : bytes <+: signature.dropLast := by
        rw [← parts, List.dropLast_append_of_ne_nil (List.cons_ne_nil b rest)]
        exact List.prefix_append _ _
      exact absurd (front.subset null) (by decide)

theorem getElem?_after_text (text rest : Bytes) (place : Nat) :
    (text ++ 0x00 :: rest)[text.length + (place + 1)]? = rest[place]? := by
  rw [List.getElem?_append_right (Nat.le_add_right _ _), Nat.add_sub_cancel_left,
    List.getElem?_cons_succ]

/-- Inside of a written file the signature can only be the end of the code. -/
theorem place_of_signature {text : Bytes} {code : Code} (first : 0x00 ∉ text)
    (bracket : text.getLast? = some 0x5D) (canonical : code.Canonical)
    {place : Nat} (later : 0 < place)
    (signed : signature <+:
      (signature ++ (text ++ 0x00 :: code.encode)).drop place) :
    place + 5 = (signature ++ (text ++ 0x00 :: code.encode)).length := by
  have five : signature.length = 5 := rfl
  have letters : ∀ i < 5, 5 ≤ place + i →
      (text ++ 0x00 :: code.encode)[place + i - 5]? = signature[i]? := by
    intro i inside after
    have letter := getElem?_of_signature signed inside
    rwa [List.getElem?_append_right after, five] at letter
  have null := letters 4 (by decide) (by omega)
  rw [List.length_append, List.length_append, List.length_cons, five]
  rcases Nat.lt_trichotomy (place + 4 - 5) text.length with inText | ends | inCode
  · rw [List.getElem?_append_left inText] at null
    exact absurd (List.mem_of_getElem? null) first
  · have some : 0 < text.length := by
      rw [List.getLast?_eq_getElem?] at bracket
      have inside := (List.getElem?_eq_some_iff.1 bracket).1
      omega
    have letter := letters 3 (by decide) (by omega)
    have last : place + 3 - 5 = text.length - 1 := by omega
    rw [last, List.getElem?_append_left (by omega), ← List.getLast?_eq_getElem?,
      bracket] at letter
    exact absurd letter (by decide)
  · obtain ⟨offset, rfl⟩ : ∃ offset, place = text.length + 2 + offset :=
      ⟨place - text.length - 2, by omega⟩
    rw [show text.length + 2 + offset + 4 - 5 = text.length + (offset + 1) by omega,
      getElem?_after_text] at null
    rcases canonical.null_of_getElem? null with last | ⟨start, before, near, found⟩
    · omega
    · -- The opcode would be one of the letters.
      have letter := letters (start + 4 - offset) (by omega) (by omega)
      rw [show text.length + 2 + offset + (start + 4 - offset) - 5 =
        text.length + (start + 1) by omega, getElem?_after_text, found] at letter
      have none : ∀ i < 5, some Instruction.loadConstOpcode ≠ signature[i]? := by decide
      exact absurd letter (none _ (by omega))

/-! ## Rows of files -/

theorem getLast?_encode {program : Program} (canonical : program.code.Canonical) :
    program.encode.getLast? = some 0x00 := by
  rcases canonical.exists_concat with ⟨front, code, -⟩
  have halt : Code.encode [.halt] = [0x00] := rfl
  rw [encode, code, Code.encode_append, halt, ← List.append_assoc, List.getLast?_concat]

/-- After the signature, a row of files is no file: no pool begins like one. -/
theorem decode_signature_row (programs : List Program) (result : Program) :
    decode (signature ++ programs.flatMap encode) ≠ .ok result := by
  intro decoded
  rcases decode_eq_ok_iff.1 decoded with ⟨text, rest, -, framed, pool, -⟩
  cases programs with
  | nil =>
    have parts := List.append_cancel_left framed.parts
    exact absurd parts.symm (List.append_ne_nil_of_right_ne_nil _ (List.cons_ne_nil _ _))
  | cons p programs =>
    have doubled : Framed (signature ++ (p :: programs).flatMap encode)
        signature.dropLast
        (p.constants.encode ++ p.code.encode ++ programs.flatMap encode) := by
      refine ⟨?_, by decide⟩
      rw [List.flatMap_cons, encode, List.append_assoc signature,
        List.append_assoc signature]
      rfl
    rcases framed.unique doubled with ⟨same, -⟩
    rw [← same] at pool
    cases pool

/-- No program is found inside of a file in a row. -/
theorem decode_inside {program : Program} (canonical : program.code.Canonical)
    {place : Nat} (later : 0 < place) (inside : place < program.encode.length)
    (others : List Program) (result : Program) :
    decode ((program.encode ++ others.flatMap encode).drop place) ≠ .ok result := by
  intro decoded
  rcases decode_eq_ok_iff.1 decoded with ⟨text, rest, -, framed, -, -⟩
  rw [List.drop_append_of_le_length (Nat.le_of_lt inside)] at decoded framed
  have signed : signature <+: program.encode.drop place := by
    apply signature_of_append (List.mem_of_getLast? _) ⟨_, framed.parts.symm⟩
    rw [List.getLast?_drop, if_neg (Nat.not_le_of_lt inside), getLast?_encode canonical]
  have ends : place + 5 = program.encode.length := by
    rw [encode_eq_bytes, Sections.bytes, List.append_nil] at signed ⊢
    exact place_of_signature program.constants.terminator_not_mem_text
      (getLast?_text _) canonical later signed
  have whole : signature = program.encode.drop place := by
    apply signed.eq_of_length
    rw [List.length_drop, ← ends, Nat.add_sub_cancel_left]
    rfl
  rw [← whole] at decoded
  exact decode_signature_row others result decoded

/-- A program can be read from a place in a row of files only if one of them begins
there. -/
theorem boundary_of_decode {programs : List Program} {place : Nat} {result : Program}
    (canonical : ∀ p ∈ programs, p.code.Canonical)
    (decoded : decode ((programs.flatMap encode).drop place) = .ok result) :
    ∃ before first after, programs = before ++ first :: after ∧
      place = (before.flatMap encode).length := by
  induction programs generalizing place with
  | nil =>
    rw [List.flatMap_nil, List.drop_nil] at decoded
    cases decoded
  | cons p programs ih =>
    rw [List.forall_mem_cons] at canonical
    rcases Nat.eq_zero_or_pos place with rfl | later
    · exact ⟨[], p, programs, rfl, rfl⟩
    rcases Nat.lt_or_ge place p.encode.length with inside | past
    · rw [List.flatMap_cons] at decoded
      exact absurd decoded (decode_inside canonical.1 later inside programs result)
    · rw [List.flatMap_cons, List.drop_append, List.drop_eq_nil_of_le past,
        List.nil_append] at decoded
      rcases ih canonical.2 decoded with ⟨before, first, after, rfl, start⟩
      refine ⟨p :: before, first, after, rfl, ?_⟩
      rw [List.flatMap_cons, List.length_append]
      omega

end Program

end Bytecode
