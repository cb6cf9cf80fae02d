import Mathlib.Order.Nat
import Bytecode.Proofs.FileRoundtrip

/-!
How the bytes of a file are judged.

A file is judged section by section: the signature, the null byte that ends the
constant pool, the text before that null byte as JSON, the elements of the list,
and last the code. The first section that is wrong decides the error, and a
section is looked at as a whole, so a text that breaks off late is reported
before an element that is wrong early.

`Verdict.Fits` says which files a verdict is about, in terms of their bytes, and
`Verdict.Told` how a caller sees it, where a verdict on the pool is known by its
wording alone. Every file fits exactly one verdict, and what is told about a
file is the verdict that it fits (`decode_told_iff_fits`).
-/

namespace Bytecode

open Disassembly

/-! ## Code that breaks off -/

namespace Code

/-- Bytes in which no instruction is a `halt`. They are gone through one opcode
after the other, where `0x01` has an operand of four bytes and any other opcode
has none; the last operand may be short. -/
inductive RunsOut : Bytes → Prop
  | nothing : RunsOut []
  | insideOperand {operand : Bytes} :
    operand.length < 4 → RunsOut (0x01 :: operand)
  | operand {operand rest : Bytes} :
    operand.length = 4 → RunsOut rest → RunsOut (0x01 :: (operand ++ rest))
  | opcode {b : UInt8} {rest : Bytes} :
    b ≠ 0x00 → b ≠ 0x01 → RunsOut rest → RunsOut (b :: rest)

theorem push_eq_none {i : Instruction} {read : Option (Code × Bytes)} :
    push i read = none ↔ read = none :=
  Option.map_eq_none_iff

theorem decode?_eq_none_of_runsOut {bytes : Bytes} (runsOut : RunsOut bytes) :
    decode? bytes = none := by
  induction runsOut with
  | nothing => rfl
  | @insideOperand operand short =>
    match operand, short with
    | [], _ | [_], _ | [_, _], _ | [_, _, _], _ => rfl
  | @operand operand rest four _ ih =>
    match operand, four with
    | [w, x, y, z], _ => exact push_eq_none.2 ih
  | @opcode b rest notHalt notLoad _ ih =>
    have notLoad : b ≠ Instruction.loadConstOpcode := notLoad
    have notHalt : b ≠ Instruction.haltOpcode := notHalt
    unfold decode?
    rw [if_neg notLoad, if_neg notHalt]
    exact push_eq_none.2 ih

theorem runsOut_of_decode?_eq_none {bytes : Bytes} (failed : decode? bytes = none) :
    RunsOut bytes := by
  fun_induction decode? bytes with
  | case1 => exact .nothing
  | case2 w x y z rest ih =>
    exact @RunsOut.operand [w, x, y, z] rest rfl (ih (push_eq_none.1 failed))
  | case3 operand notFour =>
    apply RunsOut.insideOperand
    rcases operand with _ | ⟨w, _ | ⟨x, _ | ⟨y, _ | ⟨z, rest⟩⟩⟩⟩
    · simp
    · simp
    · simp
    · simp
    · exact absurd rfl (notFour w x y z rest)
  | case4 rest notLoad => cases failed
  | case5 b rest notLoad notHalt ih =>
    exact .opcode notHalt notLoad (ih (push_eq_none.1 failed))

theorem runsOut_iff {bytes : Bytes} : RunsOut bytes ↔ decode? bytes = none :=
  ⟨decode?_eq_none_of_runsOut, runsOut_of_decode?_eq_none⟩

instance (bytes : Bytes) : Decidable (RunsOut bytes) :=
  decidable_of_iff (decode? bytes = none) runsOut_iff.symm

example : RunsOut [0x01, 0x00, 0x00, 0x00] ∧
    ¬ RunsOut [0x01, 0x00, 0x00, 0x00, 0x00, 0x00] := by
  decide

end Code

/-! ## Elements that are no constants -/

/-- A JSON value that can become a constant: a string, or an integer of 64
bits. -/
def Json.Value.IsConstant : Json.Value → Prop
  | .string _ => True
  | .number (.integer i) => -0x8000000000000000 ≤ i ∧ i ≤ 0x7FFFFFFFFFFFFFFF
  | _ => False

theorem Json.Value.isConstant_iff {v : Json.Value} :
    v.IsConstant ↔ ∃ c, v = constantJson c := by
  constructor
  · intro constant
    unfold IsConstant at constant
    split at constant
    · next s => exact ⟨.str s, rfl⟩
    · next i =>
      have back : (Int64.ofInt i).toInt = i :=
        Int64.toInt_ofInt_of_le (by omega) (by omega)
      refine ⟨.int (Int64.ofInt i), ?_⟩
      rw [constantJson, back]
    · cases constant
  · intro found
    rcases found with ⟨c, rfl⟩
    cases c with
    | int w => exact ⟨w.le_toInt, Int.le_of_lt_add_one w.toInt_lt⟩
    | str s => trivial

/-- The places in a list where a value stands that can become no constant. -/
def Json.flaws (values : List Json.Value) : Set Nat :=
  {i | ∃ v, values[i]? = some v ∧ ¬ v.IsConstant}

namespace ConstantPool

/-- Elements that can become constants do, and the others are read after them,
counted on. -/
theorem ofElements_append {front : List Json.Value}
    (constants : ∀ v ∈ front, v.IsConstant) (index : Nat)
    (back : List Json.Value) :
    ∃ pool : ConstantPool, ofElements index (front ++ back) =
      (ofElements (index + front.length) back).map (pool ++ ·) := by
  induction front generalizing index with
  | nil =>
    refine ⟨[], ?_⟩
    rw [List.nil_append, List.length_nil, Nat.add_zero]
    cases ofElements index back with
    | error e => rfl
    | ok pool => rfl
  | cons v front ih =>
    rw [List.forall_mem_cons] at constants
    rcases Json.Value.isConstant_iff.1 constants.1 with ⟨c, value⟩
    rcases ih constants.2 (index + 1) with ⟨pool, others⟩
    refine ⟨c :: pool, ?_⟩
    rw [List.cons_append, ofElements, ofElement_eq_ok_iff.2 value, others,
      List.length_cons, Nat.add_right_comm index 1, Nat.add_assoc index]
    cases ofElements (index + (front.length + 1)) back with
    | error e => rfl
    | ok rest => rfl

/-- A list of values that can become constants is a pool. -/
theorem exists_pool {text : Bytes} {values : List Json.Value}
    (list : Json.document text = .ok values)
    (constants : ∀ v ∈ values, v.IsConstant) : ∃ pool, ofText text = .ok pool := by
  rcases ofElements_append constants 0 [] with ⟨pool, read⟩
  rw [List.append_nil] at read
  refine ⟨pool ++ [], ?_⟩
  rw [ofText, list]
  exact read

theorem exists_error_of_flaw {v : Json.Value} (flaw : ¬ v.IsConstant)
    (index : Nat) : ∃ e, ofElement index v = .error e := by
  cases read : ofElement index v with
  | error e => exact ⟨e, rfl⟩
  | ok c =>
    have constant := ofElement_eq_ok_iff.1 read
    exact absurd (Json.Value.isConstant_iff.2 ⟨c, constant⟩) flaw

/-- The first element that can become no constant decides the error. -/
theorem ofElements_of_isLeast {values : List Json.Value} {index : Nat}
    (least : IsLeast (Json.flaws values) index) :
    ∃ v e, ofElement index v = .error e ∧ ofElements 0 values = .error e := by
  rcases least with ⟨⟨v, found, flaw⟩, first⟩
  rcases List.getElem?_eq_some_iff.1 found with ⟨inside, here⟩
  -- What stands before the flaw can become constants, so the flaw is reached.
  have parts : values = values.take index ++ v :: values.drop (index + 1) := by
    rw [← here, ← List.drop_eq_getElem_cons inside, List.take_append_drop]
  have constants : ∀ w ∈ values.take index, w.IsConstant := by
    intro w member
    rcases List.mem_iff_getElem?.1 member with ⟨i, place⟩
    rw [List.getElem?_take] at place
    split at place
    · next before =>
      by_contra bad
      exact absurd (first ⟨w, place, bad⟩) (Nat.not_le.2 before)
    · cases place
  have counted : 0 + (values.take index).length = index := by
    rw [Nat.zero_add, List.length_take_of_le (Nat.le_of_lt inside)]
  rcases exists_error_of_flaw flaw index with ⟨e, error⟩
  rcases ofElements_append constants 0 (v :: values.drop (index + 1)) with
    ⟨pool, read⟩
  refine ⟨v, e, error, ?_⟩
  rw [parts, read, counted, ofElements, error]
  rfl

end ConstantPool

/-! ## Verdicts -/

namespace Program

/-- The parts of a file with the right signature and a null byte after it: the
text up to the first such null byte, and what follows. -/
structure Framed (bytes text rest : Bytes) : Prop where
  parts : bytes = signature ++ (text ++ 0x00 :: rest)
  first : 0x00 ∉ text

/-- What can be said about a file. -/
inductive Verdict where
  /-- It does not begin with the signature. -/
  | noSignature
  /-- Nothing ends the constant pool. -/
  | noTerminator
  /-- The text of the pool is not a JSON list. -/
  | notList (wording : String)
  /-- The first element that can become no constant has this index. -/
  | badElement (index : Nat)
  /-- The code breaks off. -/
  | cutShort
  /-- It holds a program. -/
  | accepted

/-- The files that a verdict is about. -/
def Verdict.Fits (bytes : Bytes) : Verdict → Prop
  | noSignature => ¬ signature <+: bytes
  | noTerminator => ∃ rest, bytes = signature ++ rest ∧ 0x00 ∉ rest
  | notList wording => ∃ text rest error, Framed bytes text rest ∧
      Json.document text = .error error ∧ wording = error.message
  | badElement index => ∃ text rest values, Framed bytes text rest ∧
      Json.document text = .ok values ∧ IsLeast (Json.flaws values) index
  | cutShort => ∃ text rest values, Framed bytes text rest ∧
      Json.document text = .ok values ∧ (∀ v ∈ values, v.IsConstant) ∧
        Code.RunsOut rest
  | accepted => ∃ text rest values, Framed bytes text rest ∧
      Json.document text = .ok values ∧ (∀ v ∈ values, v.IsConstant) ∧
        ¬ Code.RunsOut rest

/-- How a verdict is told. The verdicts on a pool come as one kind of error, so
they are told apart by the wording. -/
def Verdict.Told (result : Except FormatError Program) : Verdict → Prop
  | noSignature => result = .error .malformedHeader
  | noTerminator => ∃ e, result = .error (.malformedPool e) ∧
      e.message = "missing null terminator"
  | notList wording => ∃ e, result = .error (.malformedPool e) ∧
      e.message = wording ∧ ∃ error : Json.SyntaxError, wording = error.message
  | badElement index => ∃ e, result = .error (.malformedPool e) ∧
      ∃ remark, e.message = s!"element {index} " ++ remark
  | cutShort => result = .error .truncated
  | accepted => ∃ program, result = .ok program

end Program

/-! ## Wordings -/

namespace PoolError

theorem toList_element (index : Nat) (remark : String) :
    (s!"element {index} " ++ remark).toList =
      "element ".toList ++ (Numeral.natural index ++ ' ' :: remark.toList) := by
  change ("element " ++ toString index ++ " " ++ remark).toList = _
  simp only [String.toList_append, Nat.toString_eq_repr, Nat.toList_repr,
    List.append_assoc]
  rfl

theorem element_inj {i j : Nat} {remark remark' : String}
    (same : s!"element {i} " ++ remark = s!"element {j} " ++ remark') :
    i = j := by
  -- The digits of an index end at the space after them.
  have cut : ∀ (n : Nat) (remark : String),
      (Numeral.natural n ++ ' ' :: remark.toList).takeWhile Char.isDigit =
        Nat.toDigits 10 n := by
    intro n remark
    have digits : ∀ c ∈ Nat.toDigits 10 n, c.isDigit = true := fun c member =>
      Nat.isDigit_of_mem_toDigits (by decide) (by decide) member
    exact (List.takeWhile_append_of_pos digits).trans (List.append_nil _)
  have lists := congrArg String.toList same
  rw [toList_element, toList_element] at lists
  have numerals := congrArg (List.takeWhile Char.isDigit)
    (List.append_cancel_left lists)
  rw [cut, cut] at numerals
  have values := congrArg (Nat.ofDigitChars 10 · 0) numerals
  simpa [Nat.ofDigitChars_toDigits] using values

/-- The first two characters of a wording. They already tell apart what can be
wrong with a pool. -/
def opening (wording : String) : List Char :=
  wording.toList.take 2

/-- How the wordings begin that are not about a JSON text. -/
def ownOpenings : List (List Char) :=
  [['m', 'i'], ['e', 'l']]

theorem opening_ofList (a b : Char) (letters : List Char) (tail : String) :
    opening (String.ofList (a :: b :: letters) ++ tail) = [a, b] := by
  rw [opening, String.toList_append, String.toList_ofList]
  rfl

theorem opening_element (index : Nat) (remark : String) :
    opening (s!"element {index} " ++ remark) = ['e', 'l'] := by
  rw [opening, toList_element]
  rfl

theorem opening_cause (cause : Json.Cause) (tail : String) :
    opening (cause.message ++ tail) ∉ ownOpenings := by
  -- Each wording is taken for the list of its characters, which spares the
  -- conversion of the others.
  cases cause with
  | notList found =>
    change opening ("invalid type: " ++ found.kindText ++
      ", expected a sequence" ++ tail) ∉ ownOpenings
    simp only [String.append_assoc]
    change opening (String.ofList (_ :: _ :: _) ++ _) ∉ ownOpenings
    rw [opening_ofList]
    decide
  | _ =>
    change opening (String.ofList (_ :: _ :: _) ++ _) ∉ ownOpenings
    rw [opening_ofList]
    decide

theorem opening_syntaxError (error : Json.SyntaxError) :
    opening error.message ∉ ownOpenings := by
  change opening (error.cause.message ++ " at line " ++ toString error.line ++
    " column " ++ toString error.column) ∉ ownOpenings
  simp only [String.append_assoc]
  exact opening_cause _ _

theorem opening_missing : opening "missing null terminator" = ['m', 'i'] := by
  simp [opening]

theorem missing_ne_syntaxError (error : Json.SyntaxError) :
    "missing null terminator" ≠ error.message := by
  intro same
  apply opening_syntaxError error
  rw [← same, opening_missing]
  decide

theorem missing_ne_element (index : Nat) (remark : String) :
    "missing null terminator" ≠ s!"element {index} " ++ remark := by
  intro same
  have openings := congrArg opening same
  rw [opening_missing, opening_element] at openings
  exact absurd openings (by decide)

theorem syntaxError_ne_element (error : Json.SyntaxError) (index : Nat)
    (remark : String) : error.message ≠ s!"element {index} " ++ remark := by
  intro same
  apply opening_syntaxError error
  rw [same, opening_element]
  decide

/-- The verdict of an error in a pool. -/
def verdict : PoolError → Program.Verdict
  | unterminated => .noTerminator
  | notJson error => .notList error.message
  | notInteger index _ | notScalar index _ => .badElement index

theorem verdict_of_ofElement {index : Nat} {v : Json.Value} {e : PoolError}
    (error : ConstantPool.ofElement index v = .error e) :
    e.verdict = .badElement index := by
  unfold ConstantPool.ofElement at error
  split at error
  · cases error
  · split at error
    · cases error
    · cases error
      rfl
  · cases error
    rfl
  · cases error
    rfl

/-- Each error is worded as its verdict is told. -/
theorem told_verdict (e : PoolError) :
    e.verdict.Told (.error (.malformedPool e)) := by
  have wording : ∀ (index : Nat) (remark detail : String),
      "element " ++ toString index ++ (" " ++ remark) ++ detail =
        s!"element {index} " ++ (remark ++ detail) := by
    intro index remark detail
    change _ = "element " ++ toString index ++ " " ++ (remark ++ detail)
    simp only [String.append_assoc]
  cases e with
  | unterminated => exact ⟨_, rfl, rfl⟩
  | notJson error => exact ⟨_, rfl, rfl, error, rfl⟩
  | notInteger index number =>
    exact ⟨_, rfl, _, wording index "is not a 64-bit integer: " _⟩
  | notScalar index value =>
    exact ⟨_, rfl, _, wording index "is neither a string nor an integer: " _⟩

theorem worded_of_told {e : PoolError} {v : Program.Verdict}
    (told : v.Told (.error (.malformedPool e))) :
    (v = .noTerminator ∧ e.message = "missing null terminator") ∨
      (∃ error : Json.SyntaxError, v = .notList e.message ∧
        e.message = error.message) ∨
      ∃ index remark, v = .badElement index ∧
        e.message = s!"element {index} " ++ remark := by
  cases v with
  | noSignature | cutShort => cases told
  | accepted =>
    rcases told with ⟨program, impossible⟩
    cases impossible
  | noTerminator =>
    rcases told with ⟨e, same, wording⟩
    cases same
    exact .inl ⟨rfl, wording⟩
  | notList wording =>
    rcases told with ⟨e, same, rfl, error, wording⟩
    cases same
    exact .inr (.inl ⟨error, rfl, wording⟩)
  | badElement index =>
    rcases told with ⟨e, same, remark, wording⟩
    cases same
    exact .inr (.inr ⟨index, remark, rfl, wording⟩)

/-- No two verdicts have a wording in common. -/
theorem eq_of_told {e : PoolError} {v v' : Program.Verdict}
    (told : v.Told (.error (.malformedPool e)))
    (told' : v'.Told (.error (.malformedPool e))) : v = v' := by
  rcases worded_of_told told with ⟨rfl, missing⟩ | ⟨error, rfl, parse⟩ |
    ⟨index, remark, rfl, element⟩
  · rcases worded_of_told told' with ⟨rfl, -⟩ | ⟨error, rfl, parse⟩ |
      ⟨index, remark, rfl, element⟩
    · rfl
    · exact absurd (missing.symm.trans parse) (missing_ne_syntaxError error)
    · exact absurd (missing.symm.trans element) (missing_ne_element index remark)
  · rcases worded_of_told told' with ⟨rfl, missing⟩ | ⟨_, rfl, -⟩ |
      ⟨index, remark, rfl, element⟩
    · exact absurd (missing.symm.trans parse) (missing_ne_syntaxError error)
    · rfl
    · exact absurd (parse.symm.trans element) (syntaxError_ne_element error index remark)
  · rcases worded_of_told told' with ⟨rfl, missing⟩ | ⟨error, rfl, parse⟩ |
      ⟨index', remark', rfl, element'⟩
    · exact absurd (missing.symm.trans element) (missing_ne_element index remark)
    · exact absurd (parse.symm.trans element) (syntaxError_ne_element error index remark)
    · rw [element_inj (element.symm.trans element')]

end PoolError

namespace Program

/-- The verdict that a result tells, if it tells one. -/
def verdict? : Except FormatError Program → Option Verdict
  | .ok _ => some .accepted
  | .error .malformedHeader => some .noSignature
  | .error (.malformedPool e) => some e.verdict
  | .error .truncated => some .cutShort
  | .error (.stream _) | .error (.invalidIndex _) => none

theorem verdict?_of_told {result : Except FormatError Program} {v : Verdict}
    (told : v.Told result) : verdict? result = some v := by
  have ofPool : ∀ {e : PoolError}, v.Told (.error (.malformedPool e)) →
      verdict? (.error (.malformedPool e)) = some v := fun told =>
    congrArg some (PoolError.eq_of_told (PoolError.told_verdict _) told)
  cases v with
  | noSignature =>
    cases told
    rfl
  | noTerminator =>
    rcases told with ⟨e, rfl, wording⟩
    exact ofPool ⟨e, rfl, wording⟩
  | notList message =>
    rcases told with ⟨e, rfl, wording⟩
    exact ofPool ⟨e, rfl, wording⟩
  | badElement index =>
    rcases told with ⟨e, rfl, wording⟩
    exact ofPool ⟨e, rfl, wording⟩
  | cutShort =>
    cases told
    rfl
  | accepted =>
    rcases told with ⟨program, rfl⟩
    rfl

/-! ## Reading section by section -/

theorem decode_of_unsigned {bytes : Bytes} (absent : ¬ signature <+: bytes) :
    decode bytes = .error .malformedHeader := by
  have differs : bytes.take signature.length ≠ signature := by
    intro same
    apply absent
    rw [← same]
    exact List.take_prefix _ _
  rw [decode_eq_readParts]
  unfold readParts readSignature Source.take Source.ofBytes
  dsimp only
  by_cases enough : (bytes.take signature.length).length = signature.length
  · rw [if_pos enough]
    dsimp only
    rw [if_neg differs]
  · rw [if_neg enough]

theorem decode_of_unterminated {rest : Bytes} (absent : 0x00 ∉ rest) :
    decode (signature ++ rest) = .error (.malformedPool .unterminated) := by
  rw [decode_eq_readParts]
  unfold readParts
  rw [Source.ofBytes, readSignature_append]
  dsimp only
  rw [ConstantPool.read_unterminated absent]
  rfl

/-- Once the pool is found, its text decides whether the code is looked at. -/
theorem readParts_framed {text rest : Bytes} {source : Source}
    (framed : Framed source.bytes text rest) :
    readParts source =
      match ConstantPool.ofText text with
      | .error e => (.error (.malformedPool e), { source with bytes := rest })
      | .ok pool =>
        (Code.read { source with bytes := rest }).map
          (Except.map fun code => ⟨pool, code⟩) id := by
  rcases source with ⟨bytes, ending⟩
  rcases framed with ⟨rfl, absent⟩
  unfold readParts
  rw [readSignature_append]
  dsimp only
  rw [ConstantPool.read_terminated rfl absent]
  cases ConstantPool.ofText text with
  | error e => rfl
  | ok pool =>
    dsimp only
    rcases Code.read ⟨rest, ending⟩ with ⟨result, source⟩
    cases result with
    | ok code => rfl
    | error e => rfl

theorem decode_of_bad_pool {bytes text rest : Bytes} {e : PoolError}
    (framed : Framed bytes text rest) (bad : ConstantPool.ofText text = .error e) :
    decode bytes = .error (.malformedPool e) := by
  rw [decode_eq_readParts, readParts_framed framed, bad]

theorem decode_of_pool {bytes text rest : Bytes} {pool : ConstantPool}
    (framed : Framed bytes text rest) (read : ConstantPool.ofText text = .ok pool) :
    decode bytes =
      match Code.decode? rest with
      | some (code, _) => .ok ⟨pool, code⟩
      | none => .error .truncated := by
  rw [decode_eq_readParts, readParts_framed framed, read]
  unfold Code.read Source.ofBytes
  dsimp only
  rcases Code.decode? rest with _ | ⟨code, after⟩
  · rfl
  · rfl

theorem told_of_pool_error {e : PoolError} {bytes text rest : Bytes} {v : Verdict}
    (framed : Framed bytes text rest) (bad : ConstantPool.ofText text = .error e)
    (verdict : e.verdict = v) : v.Told (decode bytes) := by
  rw [decode_of_bad_pool framed bad, ← verdict]
  exact e.told_verdict

/-- A file is told the verdict that it fits. -/
theorem told_of_fits {bytes : Bytes} {v : Verdict} (fits : v.Fits bytes) :
    v.Told (decode bytes) := by
  cases v with
  | noSignature => exact decode_of_unsigned fits
  | noTerminator =>
    rcases fits with ⟨rest, rfl, absent⟩
    exact ⟨_, decode_of_unterminated absent, rfl⟩
  | notList wording =>
    rcases fits with ⟨text, rest, error, framed, failed, rfl⟩
    have bad : ConstantPool.ofText text = .error (.notJson error) := by
      rw [ConstantPool.ofText, failed]
    exact told_of_pool_error framed bad rfl
  | badElement index =>
    rcases fits with ⟨text, rest, values, framed, list, least⟩
    rcases ConstantPool.ofElements_of_isLeast least with ⟨v, e, error, failed⟩
    have bad : ConstantPool.ofText text = .error e := by
      rw [ConstantPool.ofText, list, ← failed]
    exact told_of_pool_error framed bad (PoolError.verdict_of_ofElement error)
  | cutShort =>
    rcases fits with ⟨text, rest, values, framed, list, constants, runsOut⟩
    rcases ConstantPool.exists_pool list constants with ⟨pool, read⟩
    change decode bytes = _
    rw [decode_of_pool framed read, Code.runsOut_iff.1 runsOut]
  | accepted =>
    rcases fits with ⟨text, rest, values, framed, list, constants, goesOn⟩
    rcases ConstantPool.exists_pool list constants with ⟨pool, read⟩
    rcases Option.ne_none_iff_exists'.1 (mt Code.runsOut_iff.2 goesOn) with
      ⟨⟨code, after⟩, found⟩
    refine ⟨⟨pool, code⟩, ?_⟩
    rw [decode_of_pool framed read, found]

/-- Every file fits a verdict: the sections are gone through in their order. -/
theorem exists_fits (bytes : Bytes) : ∃ v : Verdict, v.Fits bytes := by
  by_cases signed : signature <+: bytes
  swap
  · exact ⟨.noSignature, signed⟩
  rcases signed with ⟨rest, rfl⟩
  by_cases null : 0x00 ∈ rest
  swap
  · exact ⟨.noTerminator, rest, rfl, null⟩
  rcases List.eq_append_cons_of_mem null with ⟨text, rest, rfl, absent⟩
  have framed : Framed (signature ++ (text ++ 0x00 :: rest)) text rest :=
    ⟨rfl, absent⟩
  cases list : Json.document text with
  | error error =>
    exact ⟨.notList error.message, text, rest, error, framed, list, rfl⟩
  | ok values =>
    by_cases flawed : (Json.flaws values).Nonempty
    · classical
      exact ⟨.badElement (Nat.find flawed), text, rest, values, framed, list,
        Nat.isLeast_find flawed⟩
    have constants : ∀ v ∈ values, v.IsConstant := by
      intro v member
      by_contra bad
      rcases List.mem_iff_getElem?.1 member with ⟨i, place⟩
      exact flawed ⟨i, v, place, bad⟩
    by_cases runsOut : Code.RunsOut rest
    · exact ⟨.cutShort, text, rest, values, framed, list, constants, runsOut⟩
    · exact ⟨.accepted, text, rest, values, framed, list, constants, runsOut⟩

/-- Every file fits exactly one verdict, and it is the one that is told: each
error is given for the files that it is meant for and for no others, and a file
that no error is meant for holds a program. -/
theorem decode_told_iff_fits (bytes : Bytes) :
    (∃! v : Verdict, v.Fits bytes) ∧
      ∀ v : Verdict, v.Told (decode bytes) ↔ v.Fits bytes := by
  have only : ∀ {v v' : Verdict}, v.Told (decode bytes) → v'.Fits bytes →
      v = v' := by
    intro v v' told fits
    have first := verdict?_of_told told
    rw [verdict?_of_told (told_of_fits fits)] at first
    exact (Option.some.inj first).symm
  rcases exists_fits bytes with ⟨v, fits⟩
  constructor
  · refine ⟨v, fits, ?_⟩
    intro v' fits'
    exact only (told_of_fits fits') fits
  · intro v'
    constructor
    · intro told
      rw [only told fits]
      exact fits
    · exact told_of_fits

end Program

end Bytecode
