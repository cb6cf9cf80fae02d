import Bytecode.Proofs.FileBoundaries

/-!
Programs read one after the other from one source.

The parts of a program are read up to its last instruction and no further, but a
source is asked for whole blocks, and what has come with the last block is gone
once the program has been read. A reader therefore finds the bytes after a
program only if there are none or the program fills its blocks. Programs in a row
can be read one after the other exactly if all but the last do so: a reader that
has lost the beginning of one finds the next at best (`boundary_of_decode`), and
there are not enough of them.
-/

namespace Bytecode

namespace Program

/-! ## Blocks -/

theorem le_wholeBlocks (n : Nat) : n ≤ wholeBlocks n := by
  unfold wholeBlocks blockSize
  omega

theorem wholeBlocks_eq_iff {n : Nat} : wholeBlocks n = n ↔ blockSize ∣ n := by
  unfold wholeBlocks blockSize
  omega

/-! ## One program -/

/-- A file that holds a program and nothing after it. -/
structure HeldAlone (program : Program) (bytes : Bytes) : Prop where
  decoded : decode bytes = .ok program
  ends : ∃ text, Framed bytes text program.code.encode

theorem heldAlone_encode {program : Program} (canonical : program.code.Canonical) :
    HeldAlone program program.encode := by
  have pool := ConstantPool.ofText_eq_ok_iff.2
    (ConstantPool.text_poolText program.constants)
  have first := program.constants.terminator_not_mem_text
  have written := encode_eq_bytes program
  constructor
  · rw [written]
    exact decode_bytes pool first canonical []
  · refine ⟨_, ?_, first⟩
    rw [written, Sections.bytes, List.append_nil]

section

variable {program : Program} {bytes : Bytes}

/-- The parts of a program are read up to its last instruction. -/
theorem HeldAlone.readParts (alone : HeldAlone program bytes) (tail : Bytes)
    (ending : Ending) :
    readParts ⟨bytes ++ tail, ending⟩ = (.ok program, ⟨tail, ending⟩) := by
  rcases decode_eq_ok_iff.1 alone.decoded with ⟨text, rest, left, framed, pool, code⟩
  rcases alone.ends with ⟨text', framed'⟩
  rcases framed.unique framed' with ⟨rfl, restEq⟩
  have longer : Framed (bytes ++ tail) text' (program.code.encode ++ tail) := by
    refine ⟨?_, framed.first⟩
    rw [framed'.parts, List.append_assoc, List.append_assoc, List.cons_append]
  rw [readParts_framed longer, pool]
  dsimp only
  unfold Code.read
  rw [Code.decode?_encode (canonical_of_decode alone.decoded)]
  rfl

/-- Reading a program uses up the blocks that it is in. -/
theorem HeldAlone.read (alone : HeldAlone program bytes) (tail : Bytes)
    (ending : Ending) :
    read ⟨bytes ++ tail, ending⟩ =
      (.ok program,
        ⟨tail.drop (wholeBlocks bytes.length - bytes.length), ending⟩) := by
  unfold Program.read
  rw [alone.readParts]
  dsimp only
  have used : (bytes ++ tail).length - tail.length = bytes.length := by
    rw [List.length_append, Nat.add_sub_cancel]
  rw [if_pos rfl, used, List.drop_append,
    List.drop_eq_nil_of_le (le_wholeBlocks _), List.nil_append]

/-- What follows a program is left for the next reader exactly when there is
nothing or the program fills its blocks. -/
theorem HeldAlone.read_leaves_iff (alone : HeldAlone program bytes) (tail : Bytes)
    (ending : Ending) :
    (Program.read ⟨bytes ++ tail, ending⟩).2 = ⟨tail, ending⟩ ↔
      tail = [] ∨ blockSize ∣ bytes.length := by
  have least := le_wholeBlocks bytes.length
  rw [alone.read, ← wholeBlocks_eq_iff]
  dsimp only
  constructor
  · intro left
    have lengths := congrArg (fun source => source.bytes.length) left
    dsimp only at lengths
    rw [List.length_drop] at lengths
    rcases Nat.eq_zero_or_pos tail.length with none | some
    · exact .inl (List.length_eq_zero_iff.1 none)
    · exact .inr (by omega)
  · intro fits
    rcases fits with rfl | fills
    · rw [List.drop_nil]
    · rw [fills, Nat.sub_self, List.drop_zero]

end

/-! ## One program after the other -/

/-- The results of reading programs from one source, each from where the one
before has left it. -/
def readSeries : (count : Nat) → Source → List (Except FormatError Program)
  | 0, _ => []
  | count + 1, source => (read source).1 :: readSeries count (read source).2

/-- Programs of which all but the last fill their blocks are read in order. -/
theorem readSeries_encode {programs : List Program}
    (canonical : ∀ p ∈ programs, p.code.Canonical)
    (fill : ∀ p ∈ programs.dropLast, blockSize ∣ p.encode.length)
    (ending : Ending) :
    readSeries programs.length ⟨programs.flatMap encode, ending⟩ =
      programs.map .ok := by
  induction programs with
  | nil => rfl
  | cons p programs ih =>
    rw [List.forall_mem_cons] at canonical
    have alone := heldAlone_encode canonical.1
    have leaves : programs.flatMap encode = [] ∨ blockSize ∣ p.encode.length := by
      cases programs with
      | nil => exact .inl rfl
      | cons q programs => exact .inr (fill p List.mem_cons_self)
    have others : ∀ q ∈ programs.dropLast, blockSize ∣ q.encode.length := by
      intro q member
      cases programs with
      | nil => cases member
      | cons r programs => exact fill q (List.mem_cons_of_mem p member)
    have next := (alone.read_leaves_iff (programs.flatMap encode) ending).2 leaves
    rw [List.length_cons, readSeries, List.flatMap_cons, next,
      ih canonical.2 others, alone.read, List.map_cons]

/-- What has been passed over cannot be made up for: as many programs as are read
begin after the place where the reading starts. -/
theorem length_le_of_readSeries {programs results : List Program}
    (canonical : ∀ p ∈ programs, p.code.Canonical) {place : Nat} {ending : Ending}
    (found : readSeries results.length ⟨(programs.flatMap encode).drop place, ending⟩ =
      results.map .ok) (some : results ≠ []) :
    ∃ before after, programs = before ++ after ∧
      place = (before.flatMap encode).length ∧ results.length ≤ after.length := by
  induction results generalizing programs place with
  | nil => exact absurd rfl some
  | cons r results ih =>
    rw [List.length_cons, readSeries, List.map_cons, List.cons.injEq] at found
    have decoded := decode_eq_ok_iff.2 (readParts_eq_ok_iff.1 found.1)
    rcases boundary_of_decode canonical decoded with ⟨before, first, after, rfl, rfl⟩
    refine ⟨before, first :: after, rfl, rfl, ?_⟩
    rw [List.length_cons, List.length_cons]
    rcases results with - | ⟨r', results⟩
    · exact Nat.le_add_left _ _
    have later : ∀ p ∈ first :: after, p.code.Canonical :=
      fun p member => canonical p (List.mem_append_right before member)
    rw [List.forall_mem_cons] at later
    rw [List.flatMap_append, List.drop_left, List.flatMap_cons,
      (heldAlone_encode later.1).read] at found
    rcases ih later.2 found.2 (List.cons_ne_nil _ _) with
      ⟨before', after', rfl, -, fewer⟩
    rw [List.length_append]
    omega

/-- Programs are read in order only if all but the last fill their blocks. -/
theorem fills_of_readSeries {programs : List Program}
    (canonical : ∀ p ∈ programs, p.code.Canonical) {ending : Ending}
    (found : readSeries programs.length ⟨programs.flatMap encode, ending⟩ =
      programs.map .ok) :
    ∀ p ∈ programs.dropLast, blockSize ∣ p.encode.length := by
  induction programs with
  | nil => exact List.forall_mem_nil _
  | cons p programs ih =>
    rw [List.forall_mem_cons] at canonical
    rcases programs with - | ⟨q, programs⟩
    · exact List.forall_mem_nil _
    rw [List.length_cons, readSeries, List.map_cons, List.cons.injEq,
      List.flatMap_cons, (heldAlone_encode canonical.1).read] at found
    rcases length_le_of_readSeries canonical.2 found.2 (List.cons_ne_nil _ _) with
      ⟨before, after, parts, place, fewer⟩
    -- No program can have been passed over, or there would be too few left.
    have none : before = [] := by
      rw [parts, List.length_append] at fewer
      exact List.length_eq_zero_iff.1 (by omega)
    rw [none, List.flatMap_nil, List.length_nil] at place
    rw [place, List.drop_zero] at found
    have least := le_wholeBlocks p.encode.length
    rw [List.dropLast_cons_of_ne_nil (List.cons_ne_nil q programs)]
    exact List.forall_mem_cons.2
      ⟨wholeBlocks_eq_iff.1 (by omega), ih canonical.2 found.2⟩

/-- A program is read from the front of whatever holds it, and what follows it is
left for the next reader exactly when there is nothing or the program fills its
blocks. Programs in a row are read in order exactly when all but the last fill
their blocks. -/
theorem read_in_blocks {program : Program} {bytes : Bytes}
    (alone : HeldAlone program bytes) (tail : Bytes) (ending : Ending)
    {programs : List Program} (canonical : ∀ p ∈ programs, p.code.Canonical) :
    (read ⟨bytes ++ tail, ending⟩).1 = .ok program ∧
      ((read ⟨bytes ++ tail, ending⟩).2 = ⟨tail, ending⟩ ↔
        tail = [] ∨ blockSize ∣ bytes.length) ∧
      (readSeries programs.length ⟨programs.flatMap encode, ending⟩ =
          programs.map .ok ↔
        ∀ p ∈ programs.dropLast, blockSize ∣ p.encode.length) := by
  refine ⟨?_, alone.read_leaves_iff tail ending, fills_of_readSeries canonical,
    fun fill => readSeries_encode canonical fill ending⟩
  rw [alone.read]

theorem size_newlines (n : Nat) :
    Code.size (List.replicate n .newline ++ [.halt]) = n + 1 := by
  induction n with
  | zero => rfl
  | succ n ih =>
    rw [List.replicate_succ, List.cons_append, Code.size, ih]
    exact Nat.add_comm 1 (n + 1)

theorem canonical_halt : Code.Canonical [.halt] :=
  ⟨rfl, List.not_mem_nil, List.forall_mem_singleton.2 trivial⟩

theorem canonical_newlines (n : Nat) :
    Code.Canonical (List.replicate n .newline ++ [.halt]) := by
  apply Code.canonical_concat
  · intro member
    cases (List.mem_replicate.1 member).2
  · intro i member
    rw [(List.mem_replicate.1 member).2]
    trivial

/-- A program of one block and one of nine bytes: the second is read after the
first, and leaves nothing of what follows it. -/
theorem read_in_blocks_nine :
    let long : Program := ⟨[], List.replicate 8183 .newline ++ [.halt]⟩
    let short : Program := ⟨[], [.halt]⟩
    readSeries 2 (Source.ofBytes ([long, short].flatMap encode)) =
        [.ok long, .ok short] ∧
      (read (Source.ofBytes (short.encode ++ [0x07]))).1 = .ok short ∧
      (read (Source.ofBytes (short.encode ++ [0x07]))).2 ≠ Source.ofBytes [0x07] := by
  intro long short
  have front : (signature ++ ConstantPool.encode []).length = 8 := by rfl
  have fills : blockSize ∣ long.encode.length := by
    unfold encode
    rw [List.length_append, Code.length_encode, size_newlines, front]
    exact Nat.dvd_refl blockSize
  have canonical : ∀ p ∈ [long, short], p.code.Canonical :=
    List.forall_mem_cons.2
      ⟨canonical_newlines 8183, List.forall_mem_singleton.2 canonical_halt⟩
  have alone : HeldAlone short short.encode := heldAlone_encode canonical_halt
  obtain ⟨first, leaves, inOrder⟩ := read_in_blocks alone [0x07] .closed canonical
  refine ⟨inOrder.2 (List.forall_mem_singleton.2 fills), first, ?_⟩
  intro left
  exact absurd (leaves.1 left) (by decide)

/-- A reader does not find what follows a program, and programs cannot be read in
a row: two of nine bytes come with one block. -/
theorem read_loses_next :
    (¬ ∀ program bytes, HeldAlone program bytes → ∀ tail ending,
      read ⟨bytes ++ tail, ending⟩ = (.ok program, ⟨tail, ending⟩)) ∧
    ¬ ∀ programs : List Program, (∀ p ∈ programs, p.code.Canonical) →
      ∀ ending, readSeries programs.length ⟨programs.flatMap encode, ending⟩ =
        programs.map .ok := by
  let program : Program := ⟨[], [.halt]⟩
  have alone : HeldAlone program program.encode := heldAlone_encode canonical_halt
  constructor
  · intro every
    have left := congrArg Prod.snd (every program _ alone [0x07] .closed)
    exact absurd ((alone.read_leaves_iff [0x07] .closed).1 left) (by decide)
  · intro every
    have canonical : ∀ p ∈ [program, program], p.code.Canonical :=
      List.forall_mem_cons.2
        ⟨canonical_halt, List.forall_mem_singleton.2 canonical_halt⟩
    have fills := fills_of_readSeries canonical (every _ canonical .closed)
    exact absurd (fills program List.mem_cons_self) (by decide)

end Program

end Bytecode
