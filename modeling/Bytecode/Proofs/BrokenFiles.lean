import Bytecode.Proofs.FileSections

/-!
Files that break off, while they are read or while they are written.

A reader that needs more bytes than there are runs out in one of the three parts
of a file (`Program.RunsOutIn`), and what it then reports is decided by that part
and by how the stream ends. A file in which no part runs out is judged by its
bytes alone, whatever would come after them. So a stream that fails shows only
where more bytes are needed (`read_failing`).

A sink with too little room takes the front of what is written, and it makes no
difference in which pieces that comes. The front of a program's file is never
itself a file: reading it runs out in the part in which it was cut
(`write_torn`).
-/

namespace Bytecode

/-! ## Pieces -/

theorem Code.flatten_pieces (code : Code) : code.pieces.flatten = code.encode := by
  induction code with
  | nil => rfl
  | cons i code ih =>
    rw [encode_cons, ← ih]
    unfold pieces
    rw [List.flatMap_cons, List.flatten_append]
    rfl

/-- No front of canonical code is code: what was read from it would be read from
the whole as well, with the rest left over. -/
theorem Code.decode?_take {code : Code} (canonical : Canonical code) {n : Nat}
    (cut : n < code.encode.length) : decode? (code.encode.take n) = none := by
  cases found : decode? (code.encode.take n) with
  | none => rfl
  | some parts =>
    rcases parts with ⟨front, rest⟩
    rcases decode?_sound found with ⟨frontCanonical, taken⟩
    have whole : code.encode ++ [] = front.encode ++ (rest ++ code.encode.drop n) := by
      rw [List.append_nil, ← List.append_assoc, ← taken, List.take_append_drop]
    have first := decode?_encode canonical []
    rw [whole, decode?_encode frontCanonical] at first
    have none := (Prod.mk.inj (Option.some.inj first)).2
    have past := List.drop_eq_nil_iff.1 (List.append_eq_nil_iff.1 none).2
    omega

namespace Program

theorem flatten_pieces (program : Program) : program.pieces.flatten = program.encode := by
  unfold pieces encode ConstantPool.encode
  rw [List.flatten_append, List.flatten_cons, Code.flatten_pieces]

theorem write_eq_write_encode (program : Program) (sink : Sink) :
    program.write sink = sink.write program.encode := by
  unfold write
  rw [Sink.writeAll_eq_write, flatten_pieces]

/-! ## Where bytes run out -/

/-- The parts of a file, in the order in which they are read. -/
inductive Part where
  | header
  | pool
  | code

/-- The error of a reader that runs out of bytes in a part. -/
def Part.shortage : Part → Ending → FormatError
  | _, .failing reason => .stream reason
  | header, _ => .malformedHeader
  | pool, _ => .malformedPool .unterminated
  | code, _ => .truncated

/-- Bytes that run out in a part, all parts before it being right. -/
inductive RunsOutIn (bytes : Bytes) : Part → Prop
  /-- There are too few bytes for the signature. -/
  | header : bytes.length < 5 → RunsOutIn bytes .header
  /-- No null byte follows the signature. -/
  | pool {rest : Bytes} :
    bytes = signature ++ rest → 0x00 ∉ rest → RunsOutIn bytes .pool
  /-- The pool can be read, and the code after it breaks off. -/
  | code {text rest : Bytes} {pool : ConstantPool} :
    Framed bytes text rest → ConstantPool.ofText text = .ok pool →
    Code.RunsOut rest → RunsOutIn bytes .code

theorem readSignature_short {bytes : Bytes} (short : bytes.length < 5)
    (ending : Ending) :
    (readSignature ⟨bytes, ending⟩).1 = .error (Part.header.shortage ending) := by
  have tooFew : (bytes.take signature.length).length ≠ signature.length := by
    have size : signature.length = 5 := rfl
    rw [List.length_take]
    omega
  unfold readSignature Source.take
  dsimp only
  rw [if_neg tooFew]
  cases ending with
  | closed | failing _ | paused _ _ => rfl

theorem readSignature_wrong {bytes : Bytes} (long : 5 ≤ bytes.length)
    (absent : ¬ signature <+: bytes) (ending : Ending) :
    (readSignature ⟨bytes, ending⟩).1 = .error .malformedHeader := by
  have enough : (bytes.take signature.length).length = signature.length :=
    List.length_take_of_le long
  have differs : bytes.take signature.length ≠ signature := by
    intro same
    rw [← same] at absent
    exact absent (List.take_prefix _ _)
  unfold readSignature Source.take
  dsimp only
  rw [if_pos enough]
  dsimp only
  rw [if_neg differs]

/-- An error in the signature is the error of the file. -/
theorem readParts_of_signature {source : Source} {e : FormatError}
    (failed : (readSignature source).1 = .error e) :
    (readParts source).1 = .error e := by
  unfold readParts
  generalize readSignature source = signed at failed
  rcases signed with ⟨result, left⟩
  cases failed
  rfl

/-- Where bytes run out, the part and the end of the stream decide the error. -/
theorem RunsOutIn.readParts {bytes : Bytes} {part : Part}
    (runsOut : RunsOutIn bytes part) (ending : Ending) :
    (readParts ⟨bytes, ending⟩).1 = .error (part.shortage ending) := by
  cases runsOut with
  | header short => exact readParts_of_signature (readSignature_short short ending)
  | pool bytesEq absent =>
    subst bytesEq
    unfold Program.readParts
    rw [readSignature_append]
    dsimp only
    rw [ConstantPool.read_unterminated absent]
    cases ending with
    | closed | failing _ | paused _ _ => rfl
  | code framed pool runsOut =>
    rw [readParts_framed framed, pool]
    unfold Code.read
    rw [Code.runsOut_iff.1 runsOut]
    cases ending with
    | closed | failing _ | paused _ _ => rfl

/-- Where no part runs out, the end of the stream makes no difference. -/
theorem readParts_of_enough {bytes : Bytes} (enough : ∀ part, ¬ RunsOutIn bytes part)
    (ending : Ending) : (readParts ⟨bytes, ending⟩).1 = decode bytes := by
  have long : 5 ≤ bytes.length :=
    Nat.le_of_not_lt fun short => enough .header (.header short)
  by_cases signed : signature <+: bytes
  swap
  · rw [decode_of_unsigned signed]
    exact readParts_of_signature (readSignature_wrong long signed ending)
  rcases signed with ⟨rest, rfl⟩
  have null : 0x00 ∈ rest := by
    by_contra absent
    exact enough .pool (.pool rfl absent)
  rcases List.eq_append_cons_of_mem null with ⟨text, rest, rfl, first⟩
  have framed : Framed (signature ++ (text ++ 0x00 :: rest)) text rest := ⟨rfl, first⟩
  rw [readParts_framed framed]
  cases pool : ConstantPool.ofText text with
  | error e => rw [decode_of_bad_pool framed pool]
  | ok constants =>
    rw [decode_of_pool framed pool]
    unfold Code.read
    cases code : Code.decode? rest with
    | none => exact absurd (.code framed pool (Code.runsOut_iff.2 code)) (enough .code)
    | some parts => rfl

/-! ## Streams that fail -/

/-- A stream that fails after some bytes gives its own error exactly where they
run out in a part of the file; in all other cases the file is judged as if it
ended there. -/
theorem read_failing (bytes : Bytes) (reason : String) :
    ((∃ part, RunsOutIn bytes part) →
      (read ⟨bytes, .failing reason⟩).1 = .error (.stream reason)) ∧
    ((¬ ∃ part, RunsOutIn bytes part) →
      (read ⟨bytes, .failing reason⟩).1 = decode bytes) := by
  have parts : (read ⟨bytes, .failing reason⟩).1 =
      (readParts ⟨bytes, .failing reason⟩).1 := rfl
  rw [parts]
  constructor
  · rintro ⟨part, runsOut⟩
    rw [runsOut.readParts]
    cases part with
    | header | pool | code => rfl
  · intro enough
    exact readParts_of_enough (fun part runsOut => enough ⟨part, runsOut⟩) _

/-- An operand that is cut short is needed and shows the failure; what lies after
the last instruction is not, and a text that is no list is wrong at once. -/
theorem read_failing_operand :
    let cut := signature ++ [0x5B, 0x37, 0x5D, 0x00, 0x01, 0x00, 0x00]
    let whole := cut ++ [0x00, 0x00, 0x00, 0x06]
    let wrong := signature ++ [0x5B, 0x00, 0x01]
    (read ⟨cut, .failing "gone"⟩).1 = .error (.stream "gone") ∧
      (read ⟨whole, .failing "gone"⟩).1 = .ok ⟨[.int 7], [.loadConst 0, .halt]⟩ ∧
      (read ⟨wrong, .failing "gone"⟩).1 = decode wrong := by
  intro cut whole wrong
  have framed : Framed cut [0x5B, 0x37, 0x5D] [0x01, 0x00, 0x00] :=
    ⟨rfl, by decide⟩
  have runsOut : RunsOutIn cut .code := .code framed rfl (by decide)
  have enough : ¬ ∃ part, RunsOutIn whole part := by
    rintro ⟨part, short⟩
    have read := short.readParts .closed
    cases part with
    | header | pool | code => cases read
  have bad : ¬ ∃ part, RunsOutIn wrong part := by
    rintro ⟨part, short⟩
    have read := short.readParts .closed
    cases part with
    | header | pool | code => cases read
  exact ⟨(read_failing cut "gone").1 ⟨.code, runsOut⟩,
    (read_failing whole "gone").2 enough, (read_failing wrong "gone").2 bad⟩

/-! ## Sinks that are too small -/

/-- The part of a program's file in which a cut after some bytes falls. -/
def partAt (program : Program) (n : Nat) : Part :=
  if n < 5 then .header
  else if n < 5 + program.constants.encode.length then .pool
  else .code

/-- The file of a program, cut anywhere, runs out in the part of the cut. -/
theorem runsOutIn_take {program : Program} (canonical : program.code.Canonical)
    {n : Nat} (cut : n < program.encode.length) :
    RunsOutIn (program.encode.take n) (program.partAt n) := by
  have absent := program.constants.terminator_not_mem_text
  have pool := ConstantPool.ofText_eq_ok_iff.2
    (ConstantPool.text_poolText program.constants)
  have poolSize : program.constants.encode.length =
      (program.constants.text.map Bytes.ascii).length + 1 := by
    rw [ConstantPool.encode_eq, List.length_append, List.length_singleton]
  have bytesEq : program.encode = signature ++
      (program.constants.text.map Bytes.ascii ++ 0x00 :: program.code.encode) := by
    rw [encode_eq_bytes, Sections.bytes, List.append_nil]
  generalize program.constants.text.map Bytes.ascii = text at absent pool poolSize bytesEq
  have size : signature.length = 5 := rfl
  rw [bytesEq, List.length_append, List.length_append, List.length_cons, size] at cut
  unfold partAt
  split
  · next short =>
    apply RunsOutIn.header
    rw [List.length_take]
    omega
  next long =>
  rw [bytesEq, List.take_append, List.take_of_length_le (by omega), size]
  split
  · next inPool =>
    refine .pool rfl fun member => absent ?_
    rw [List.take_append_of_le_length (by omega)] at member
    exact List.mem_of_mem_take member
  · next inCode =>
    have left : n - 5 - text.length =
        n - (5 + program.constants.encode.length) + 1 := by omega
    rw [List.take_append, List.take_of_length_le (by omega), left,
      List.take_succ_cons]
    exact .code ⟨rfl, absent⟩ pool
      (Code.runsOut_iff.2 (Code.decode?_take canonical (by omega)))

/-- Writing a program to a sink with too little room fails with the reason of the
sink, leaves the front of the file, and that is no file: what is wrong with it
tells in which part it was cut. With enough room the whole file is written. In
which pieces it is written makes no difference. -/
theorem write_torn {program : Program} (canonical : program.code.Canonical)
    (n : Nat) (reason : String) (flushes : Flushes) :
    let sink : Sink := ⟨some ⟨n, reason⟩, flushes⟩
    let w := program.write sink
    (program.encode.length ≤ n → w.result = .ok () ∧ w.accepted = program.encode) ∧
    (n < program.encode.length →
      w.result = .error reason ∧ w.accepted = program.encode.take n ∧
      (n < 5 → decode w.accepted = .error .malformedHeader) ∧
      (5 ≤ n → n < 5 + program.constants.encode.length →
        ∃ e, decode w.accepted = .error (.malformedPool e) ∧
          e.message = "missing null terminator") ∧
      (5 + program.constants.encode.length ≤ n →
        decode w.accepted = .error .truncated)) ∧
    ∀ pieces : List Bytes, pieces.flatten = program.encode →
      sink.writeAll pieces = w := by
  intro sink w
  have written : w = sink.write program.encode := program.write_eq_write_encode sink
  refine ⟨fun room => ?_, fun cut => ?_, fun pieces whole => ?_⟩
  · have fits : w = ⟨program.encode, .ok (), _⟩ := written.trans (if_pos room)
    rw [fits]
    exact ⟨rfl, rfl⟩
  · have torn : w = ⟨program.encode.take n, .error reason, _⟩ :=
      written.trans (if_neg (Nat.not_le_of_lt cut))
    have judged : decode w.accepted = .error ((program.partAt n).shortage .closed) := by
      rw [torn, decode_eq_readParts]
      exact (runsOutIn_take canonical cut).readParts .closed
    unfold partAt at judged
    refine ⟨by rw [torn], by rw [torn], fun short => ?_, fun long inPool => ?_,
      fun inCode => ?_⟩
    · rw [judged, if_pos short]
      rfl
    · rw [judged, if_neg (Nat.not_lt_of_le long), if_pos inPool]
      exact ⟨_, rfl, rfl⟩
    · rw [judged, if_neg (by omega), if_neg (Nat.not_lt_of_le inCode)]
      rfl
  · rw [written, Sink.writeAll_eq_write, whole]

/-- A file of 22 bytes that is cut inside an operand, inside an escaped character,
and not at all. -/
theorem write_torn_operand :
    let program : Program := ⟨[.str "é"], [.loadConst 258, .halt]⟩
    let torn (n : Nat) : Written := program.write ⟨some ⟨n, "full"⟩, .steady⟩
    program.code.Canonical ∧
      (torn 19).result = .error "full" ∧
      (torn 19).accepted = program.encode.take 19 ∧
      decode (torn 19).accepted = .error .truncated ∧
      (∃ e, decode (torn 9).accepted = .error (.malformedPool e) ∧
        e.message = "missing null terminator") ∧
      (torn 22).result = .ok () ∧ (torn 22).accepted = program.encode := by
  intro program torn
  have canonical : program.code.Canonical := ⟨rfl, by decide, by decide⟩
  have size : program.encode.length = 22 := by rfl
  have poolSize : program.constants.encode.length = 11 := by rfl
  have cut n := write_torn canonical n "full" .steady
  obtain ⟨failed, accepted, -, -, inCode⟩ := (cut 19).2.1 (by omega)
  obtain ⟨-, -, -, inPool, -⟩ := (cut 9).2.1 (by omega)
  obtain ⟨written, whole⟩ := (cut 22).1 (by omega)
  exact ⟨canonical, failed, accepted, inCode (by omega),
    inPool (by omega) (by omega), written, whole⟩

end Program

end Bytecode
