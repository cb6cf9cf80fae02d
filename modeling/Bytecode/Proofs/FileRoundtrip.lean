import Bytecode.Program
import Bytecode.Proofs.CodeRoundtrip
import Bytecode.Proofs.PoolWriting

/-!
Program files that were written and are read again.

The signature and the constant pool of a file are always read back as they were
written, so the constants never change; what becomes of the code is decided by
`Code.decode?` alone. Hence a program comes back as it was exactly when its code
is canonical, and bytes after the file make no difference.
-/

namespace Bytecode

namespace Program

theorem readSignature_append (rest : Bytes) (ending : Ending) :
    readSignature ⟨signature ++ rest, ending⟩ = (.ok (), ⟨rest, ending⟩) := by
  have taken : Source.take signature.length ⟨signature ++ rest, ending⟩ =
      (.ok signature, ⟨rest, ending⟩) := by
    unfold Source.take
    dsimp only
    rw [List.take_left, if_pos rfl, List.drop_left]
  unfold readSignature
  rw [taken]
  dsimp only
  rw [if_pos rfl]

/-- Reading a file that was written comes down to reading its code. -/
theorem readParts_encode (program : Program) (tail : Bytes) (ending : Ending) :
    readParts ⟨program.encode ++ tail, ending⟩ =
      (Code.read ⟨program.code.encode ++ tail, ending⟩).map
        (Except.map fun code => ⟨program.constants, code⟩) id := by
  have bytesEq : program.encode ++ tail =
      signature ++ (program.constants.encode ++ (program.code.encode ++ tail)) := by
    unfold encode
    rw [List.append_assoc, List.append_assoc]
  unfold readParts
  rw [bytesEq, readSignature_append]
  dsimp only
  rw [ConstantPool.read_encode]
  dsimp only
  rcases Code.read ⟨program.code.encode ++ tail, ending⟩ with ⟨result, source⟩
  cases result with
  | ok code => rfl
  | error e => rfl

/-- How a file is judged does not depend on the blocks it is read in. -/
theorem decode_eq_readParts (bytes : Bytes) :
    decode bytes = (readParts (Source.ofBytes bytes)).1 := by
  unfold decode read
  rcases readParts (Source.ofBytes bytes) with ⟨result, left⟩
  rfl

theorem decode_encode_eq_ok_iff (program decoded : Program) (tail : Bytes) :
    decode (program.encode ++ tail) = .ok decoded ↔
      decoded.constants = program.constants ∧
        ∃ rest, Code.decode? (program.code.encode ++ tail) =
          some (decoded.code, rest) := by
  rw [decode_eq_readParts, Source.ofBytes, readParts_encode]
  unfold Code.read
  cases found : Code.decode? (program.code.encode ++ tail) with
  | none =>
    constructor
    · intro ok
      cases ok
    · intro parts
      rcases parts with ⟨-, rest, impossible⟩
      cases impossible
  | some parts =>
    rcases parts with ⟨code, rest⟩
    constructor
    · intro ok
      cases ok
      exact ⟨rfl, rest, rfl⟩
    · intro parts
      rcases parts with ⟨constants, rest', same⟩
      rcases Prod.mk.inj (Option.some.inj same) with ⟨rfl, rfl⟩
      exact congrArg (fun pool => Except.ok (⟨pool, decoded.code⟩ : Program))
        constants.symm

/-- Whatever a file holds, the code read from it is canonical. -/
theorem canonical_of_decode {bytes : Bytes} {program : Program}
    (decoded : decode bytes = .ok program) : program.code.Canonical := by
  rw [decode_eq_readParts] at decoded
  unfold readParts at decoded
  split at decoded
  · cases decoded
  · split at decoded
    · cases decoded
    · next constants rest _ =>
      unfold Code.read at decoded
      split at decoded
      · next failed => cases decoded
      · next code left read =>
        cases decoded
        split at read
        · next found =>
          cases read
          exact (Code.decode?_sound found).1
        · cases read

/-- A program is read back from its file as it was, whatever follows the file,
exactly when its code is canonical. -/
theorem decode_encode_iff_canonical (program : Program) (tail : Bytes) :
    decode (program.encode ++ tail) = .ok program ↔ program.code.Canonical := by
  rw [decode_encode_eq_ok_iff]
  constructor
  · intro same
    rcases same with ⟨-, rest, decoded⟩
    exact (Code.decode?_sound decoded).1
  · intro canonical
    exact ⟨rfl, tail, Code.decode?_encode canonical tail⟩

end Program

end Bytecode
