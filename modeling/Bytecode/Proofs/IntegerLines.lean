import Mathlib.Algebra.Group.Int.Defs
import Bytecode.Proofs.LineReading
import Bytecode.Proofs.OutputLimit

/-!
Lines that hold an integer.

`HoldsInteger` says which texts denote an integer: decimal digits after an optional
sign, with white space around them. `lineInteger?` finds the integer of such a text
if it is a word, and nothing in any other text. So an instruction that reads an
integer from a line pushes the one that the line holds, or fails and reports the
line as it was. What is printed for an integer is such a text again.
-/

namespace Bytecode

/-! ## Numerals -/

namespace Numeral

/-- Decimal digits, and the number that they denote. -/
inductive Digits : List Char → Nat → Prop
  | one {d : Nat} : d < 10 → Digits [d.digitChar] d
  | more {digits : List Char} {n d : Nat} :
    Digits digits n → d < 10 → Digits (digits ++ [d.digitChar]) (n * 10 + d)

/-- Digits with a sign or without one, and the integer that they denote. -/
inductive Signed : List Char → Int → Prop
  | unsigned {digits : List Char} {n : Nat} : Digits digits n → Signed digits n
  | plus {digits : List Char} {n : Nat} : Digits digits n → Signed ('+' :: digits) n
  | minus {digits : List Char} {n : Nat} : Digits digits n → Signed ('-' :: digits) (-n)

variable {digits text : List Char} {n : Nat} {i : Int}

theorem exists_digitChar {c : Char} (digit : c.isDigit) :
    ∃ d < 10, c = d.digitChar := by
  obtain ⟨low, high⟩ := Char.isDigit_iff_toNat.1 digit
  change 48 ≤ c.toNat at low
  change c.toNat ≤ 57 at high
  have small : c.toNat - 48 < 10 := by omega
  refine ⟨c.toNat - 48, small, Char.toNat_inj.1 ?_⟩
  rw [Nat.toNat_digitChar_of_lt_ten small]
  omega

theorem Digits.isDigit (denoted : Digits digits n) : ∀ c ∈ digits, c.isDigit := by
  induction denoted with
  | one small =>
    intro c member
    rw [List.mem_singleton.1 member, Nat.isDigit_digitChar]
    exact decide_eq_true small
  | more _ small ih =>
    intro c member
    rcases List.mem_append.1 member with member | member
    · exact ih c member
    · rw [List.mem_singleton.1 member, Nat.isDigit_digitChar]
      exact decide_eq_true small

theorem Digits.ne_nil (denoted : Digits digits n) : digits ≠ [] := by
  cases denoted with
  | one _ => exact List.cons_ne_nil _ _
  | more _ _ => exact List.append_ne_nil_of_right_ne_nil _ (List.cons_ne_nil _ _)

theorem ofDigitChars_digit {d : Nat} (small : d < 10) (rest : List Char) (n : Nat) :
    Nat.ofDigitChars 10 (d.digitChar :: rest) n = Nat.ofDigitChars 10 rest (n * 10 + d) := by
  have digit := Nat.toNat_digitChar_of_lt_ten small
  have value : 10 * n + (d.digitChar.toNat - '0'.toNat) = n * 10 + d := by
    rw [digit]
    change 10 * n + (48 + d - 48) = _
    omega
  rw [Nat.ofDigitChars_cons, value]

theorem Digits.value (denoted : Digits digits n) : Nat.ofDigitChars 10 digits 0 = n := by
  induction denoted with
  | one small => rw [ofDigitChars_digit small, Nat.zero_mul, Nat.zero_add]; rfl
  | more _ small ih =>
    rw [Nat.ofDigitChars_append, ih, ofDigitChars_digit small]
    rfl

/-- Digits may follow digits. -/
theorem Digits.append (denoted : Digits digits n) {rest : List Char}
    (all : ∀ c ∈ rest, c.isDigit) :
    Digits (digits ++ rest) (Nat.ofDigitChars 10 rest n) := by
  induction rest generalizing digits n with
  | nil =>
    rw [List.append_nil]
    exact denoted
  | cons c rest ih =>
    obtain ⟨first, others⟩ := List.forall_mem_cons.1 all
    obtain ⟨d, small, rfl⟩ := exists_digitChar first
    have longer := ih (denoted.more small) others
    rw [List.append_assoc] at longer
    rw [ofDigitChars_digit small]
    exact longer

theorem natural?_eq_some_iff : natural? digits = some n ↔ Digits digits n := by
  unfold natural?
  constructor
  · intro found
    split at found
    · next proper =>
      cases found
      cases digits with
      | nil => exact absurd rfl proper.1
      | cons c rest =>
        obtain ⟨first, others⟩ := List.forall_mem_cons.1 (List.all_eq_true.1 proper.2)
        obtain ⟨d, small, rfl⟩ := exists_digitChar first
        rw [ofDigitChars_digit small, Nat.zero_mul, Nat.zero_add]
        exact (Digits.one small).append others
    · cases found
  · intro denoted
    rw [if_pos ⟨denoted.ne_nil, List.all_eq_true.2 denoted.isDigit⟩, denoted.value]

theorem integer?_eq_some_iff : integer? text = some i ↔ Signed text i := by
  unfold integer?
  constructor
  · intro found
    split at found
    · obtain ⟨n, natural, rfl⟩ := Option.map_eq_some_iff.1 found
      exact .plus (natural?_eq_some_iff.1 natural)
    · obtain ⟨n, natural, rfl⟩ := Option.map_eq_some_iff.1 found
      exact .minus (natural?_eq_some_iff.1 natural)
    · obtain ⟨n, natural, rfl⟩ := Option.map_eq_some_iff.1 found
      exact .unsigned (natural?_eq_some_iff.1 natural)
  · intro signed
    cases signed with
    | unsigned denoted =>
      have digits := denoted.isDigit
      split
      · exact absurd (digits '+' List.mem_cons_self) (by decide)
      · exact absurd (digits '-' List.mem_cons_self) (by decide)
      · rw [natural?_eq_some_iff.2 denoted]
        rfl
    | plus denoted =>
      exact congrArg (Option.map Int.ofNat) (natural?_eq_some_iff.2 denoted)
    | minus denoted =>
      exact congrArg (Option.map fun n => -Int.ofNat n) (natural?_eq_some_iff.2 denoted)

/-- What is written for an integer denotes it. -/
theorem signed_integer (i : Int) : Signed (integer i) i := by
  have denoted : Digits (natural i.natAbs) i.natAbs := by
    apply natural?_eq_some_iff.1
    unfold natural? natural
    have all : ∀ c ∈ Nat.toDigits 10 i.natAbs, c.isDigit := fun c member =>
      Nat.isDigit_of_mem_toDigits (by decide) (by decide) member
    rw [if_pos ⟨Nat.toDigits_ne_nil, List.all_eq_true.2 all⟩, Nat.ofDigitChars_ten_toDigits]
  unfold integer
  by_cases negative : i < 0
  · have value : -(i.natAbs : Int) = i := by omega
    have signed := Signed.minus denoted
    rw [if_pos negative]
    rwa [value] at signed
  · have value : (i.natAbs : Int) = i := by omega
    have signed := Signed.unsigned denoted
    rw [if_neg negative]
    rwa [value] at signed

/-- No part of a numeral is white space. -/
theorem Signed.not_blank (signed : Signed text i) : ∀ c ∈ text, isBlank c = false := by
  have digit : ∀ c : Char, c.isDigit → isBlank c = false := by
    intro c isDigit
    obtain ⟨d, small, rfl⟩ := exists_digitChar isDigit
    revert d
    decide
  cases signed with
  | unsigned denoted => exact fun c member => digit c (denoted.isDigit c member)
  | plus denoted | minus denoted =>
    refine List.forall_mem_cons.2 ⟨by decide, fun c member => ?_⟩
    exact digit c (denoted.isDigit c member)

theorem Signed.ne_nil (signed : Signed text i) : text ≠ [] := by
  cases signed with
  | unsigned denoted => exact denoted.ne_nil
  | plus _ | minus _ => exact List.cons_ne_nil _ _

end Numeral

/-! ## White space around a text -/

theorem dropWhile_blank {before text : List Char}
    (blank : ∀ c ∈ before, isBlank c) (some : text ≠ [])
    (solid : ∀ c ∈ text, isBlank c = false) (after : List Char) :
    (before ++ (text ++ after)).dropWhile isBlank = text ++ after := by
  cases text with
  | nil => exact absurd rfl some
  | cons c rest =>
    rw [List.dropWhile_append_of_pos blank, List.cons_append,
      List.dropWhile_cons_of_neg (Bool.eq_false_iff.1 (solid c List.mem_cons_self))]

/-- White space around a text without any is what trimming takes away. -/
theorem trim_padded {before text after : List Char}
    (blankBefore : ∀ c ∈ before, isBlank c) (blankAfter : ∀ c ∈ after, isBlank c)
    (some : text ≠ []) (solid : ∀ c ∈ text, isBlank c = false) :
    trim (before ++ text ++ after) = text := by
  have blankReverse : ∀ c ∈ after.reverse, isBlank c := fun c member =>
    blankAfter c (List.mem_reverse.1 member)
  have solidReverse : ∀ c ∈ text.reverse, isBlank c = false := fun c member =>
    solid c (List.mem_reverse.1 member)
  have someReverse : text.reverse ≠ [] := fun empty => some (List.reverse_eq_nil_iff.1 empty)
  have back := dropWhile_blank blankReverse someReverse solidReverse []
  rw [List.append_nil] at back
  unfold trim
  rw [List.append_assoc, dropWhile_blank blankBefore some solid, List.reverse_append, back,
    List.reverse_reverse]

/-- Trimming takes away white space only. -/
theorem exists_padding (text : List Char) :
    ∃ before after, text = before ++ trim text ++ after ∧
      (∀ c ∈ before, isBlank c) ∧ ∀ c ∈ after, isBlank c := by
  refine ⟨text.takeWhile isBlank,
    ((text.dropWhile isBlank).reverse.takeWhile isBlank).reverse, ?_, ?_, ?_⟩
  · unfold trim
    rw [List.append_assoc, ← List.reverse_append, List.takeWhile_append_dropWhile,
      List.reverse_reverse, List.takeWhile_append_dropWhile]
  · exact List.all_eq_true.1 List.all_takeWhile
  · intro c member
    exact List.all_eq_true.1 List.all_takeWhile c (List.mem_reverse.1 member)

/-- A text that denotes an integer, with white space around the numeral or not. -/
def HoldsInteger (text : List Char) (i : Int) : Prop :=
  ∃ before numeral after, text = before ++ numeral ++ after ∧
    (∀ c ∈ before, isBlank c) ∧ (∀ c ∈ after, isBlank c) ∧ Numeral.Signed numeral i

theorem integer?_trim_eq_some_iff {text : List Char} {i : Int} :
    Numeral.integer? (trim text) = some i ↔ HoldsInteger text i := by
  constructor
  · intro found
    obtain ⟨before, after, split, blankBefore, blankAfter⟩ := exists_padding text
    exact ⟨before, trim text, after, split, blankBefore, blankAfter,
      Numeral.integer?_eq_some_iff.1 found⟩
  · rintro ⟨before, numeral, after, rfl, blankBefore, blankAfter, signed⟩
    rw [trim_padded blankBefore blankAfter signed.ne_nil signed.not_blank]
    exact Numeral.integer?_eq_some_iff.2 signed

theorem lineInteger?_eq_some_iff {text : List Char} {n : Int64} :
    lineInteger? text = some n ↔ HoldsInteger text n.toInt := by
  unfold lineInteger?
  rw [Option.bind_eq_bind, Option.bind_eq_some_iff]
  constructor
  · rintro ⟨i, found, word⟩
    rw [Numeral.word?_eq_some_iff.1 word]
    exact integer?_trim_eq_some_iff.1 found
  · intro holds
    exact ⟨n.toInt, integer?_trim_eq_some_iff.2 holds, Numeral.word?_eq_some_iff.2 rfl⟩

/-! ## Lines of an input -/

/-- A source whose next line is made of these bytes and a line feed, or a carriage
return and a line feed, or ends where the source does, if that is no failure. -/
inductive Source.Offers : Source → Bytes → Prop
  | lf {line rest : Bytes} {ending : Ending} :
    lineEnd ∉ line → line.getLast? ≠ some 0x0D →
    Offers ⟨line ++ lineEnd :: rest, ending⟩ line
  | crlf {line rest : Bytes} {ending : Ending} :
    lineEnd ∉ line → Offers ⟨line ++ 0x0D :: lineEnd :: rest, ending⟩ line
  | last {line : Bytes} {ending : Ending} :
    lineEnd ∉ line → line ≠ [] → (∀ reason, ending ≠ .failing reason) →
    Offers ⟨line, ending⟩ line

theorem Source.takeLine_ended {line : Bytes} (absent : lineEnd ∉ line) (rest : Bytes)
    (ending : Ending) :
    takeLine ⟨line ++ lineEnd :: rest, ending⟩ = (.ok (line ++ [lineEnd]), ⟨rest, ending⟩) := by
  unfold takeLine
  rw [Bytes.cut?_eq_some_iff.2 ⟨rfl, absent⟩]

namespace Console

theorem withoutLineEnd_crlf (text : List Char) :
    withoutLineEnd (text ++ ['\r', '\n']) = text := by
  unfold withoutLineEnd
  rw [List.reverse_append]
  exact List.reverse_reverse text

theorem withoutLineEnd_lf {text : List Char} (noReturn : text.getLast? ≠ some '\r') :
    withoutLineEnd (text ++ ['\n']) = text := by
  unfold withoutLineEnd
  rw [List.reverse_append]
  split
  · next rest reversed =>
    rw [List.reverse_singleton, List.singleton_append] at reversed
    rw [← List.head?_reverse, (List.cons.inj reversed).2] at noReturn
    exact absurd rfl noReturn
  · next rest _ reversed =>
    rw [List.reverse_singleton, List.singleton_append] at reversed
    rw [← (List.cons.inj reversed).2, List.reverse_reverse]
  · next notFeed => exact absurd rfl (notFeed text.reverse)

theorem withoutLineEnd_unended {text : List Char} (absent : '\n' ∉ text) :
    withoutLineEnd text = text := by
  have notLast : ∀ rest, text.reverse ≠ '\n' :: rest := by
    intro rest reversed
    apply absent
    rw [← List.mem_reverse, reversed]
    exact List.mem_cons_self
  unfold withoutLineEnd
  split
  · next rest reversed => exact absurd reversed (notLast _)
  · next rest _ reversed => exact absurd reversed (notLast _)
  · rfl

end Console

/-- Such a line is taken from the source, and reads as its text without the line
end. -/
theorem Source.Offers.takeLine {source : Source} {text : List Char}
    (offers : source.Offers (text.flatMap String.utf8EncodeChar)) :
    ∃ line left, source.takeLine = (.ok line, left) ∧
      Console.lineAnswer line = .ok text := by
  have answer : ∀ more : List Char, Console.withoutLineEnd (text ++ more) = text →
      Console.lineAnswer (text.flatMap String.utf8EncodeChar ++
        more.flatMap String.utf8EncodeChar) = .ok text := by
    intro more without
    rw [← List.flatMap_append]
    unfold Console.lineAnswer
    rw [Utf8.decode?_eq_some_iff.2 rfl]
    dsimp only
    rw [without]
  generalize encoded : text.flatMap String.utf8EncodeChar = bytes at offers answer
  cases offers with
  | @lf _ rest ending absent noReturn =>
    refine ⟨_, _, takeLine_ended absent rest ending, answer ['\n'] ?_⟩
    apply Console.withoutLineEnd_lf
    intro last
    obtain ⟨front, rfl⟩ := List.getLast?_eq_some_iff.1 last
    rw [← encoded, List.flatMap_append] at noReturn
    exact noReturn List.getLast?_concat
  | @crlf _ rest ending absent =>
    have absentToo : lineEnd ∉ bytes ++ [0x0D] := by
      rw [List.mem_append]
      exact fun member => member.elim absent (by decide)
    have taken := takeLine_ended absentToo rest ending
    rw [List.append_assoc, List.append_assoc] at taken
    exact ⟨_, _, taken, answer ['\r', '\n'] (Console.withoutLineEnd_crlf text)⟩
  | @last _ ending absent some noFailure =>
    have taken : Source.takeLine ⟨bytes, ending⟩ =
        (.ok bytes, Source.drained ⟨bytes, ending⟩) := by
      unfold Source.takeLine
      rw [Bytes.cut?_eq_none_iff.2 absent]
      cases bytes with
      | nil => exact absurd rfl some
      | cons _ _ =>
        cases ending with
        | failing reason => exact absurd rfl (noFailure reason)
        | closed | paused _ _ => rfl
    have noFeed : '\n' ∉ text := by
      intro member
      apply absent
      rw [← encoded, List.mem_flatMap]
      exact ⟨'\n', member, List.mem_singleton.2 rfl⟩
    have whole := answer []
    rw [List.append_nil, List.flatMap_nil, List.append_nil] at whole
    exact ⟨_, _, taken, whole (Console.withoutLineEnd_unended noFeed)⟩

/-! ## Reading and printing -/

namespace Machine

/-- A machine that is about to read an integer, with streams that offer it a line and
can be flushed before it is read. -/
structure ReadsInteger (m : Machine) (console : Console) (line : Bytes) : Prop where
  attempted : m.attempted? = some .readInt
  flushed : console.flush.1 = .ok ()
  offered : console.input.Offers line

/-- The next step pushes a value, and the program goes on. -/
structure Pushes (m : Machine) (console : Console) (v : Value) : Prop where
  goesOn : (m.step console).result = .ok .running
  machine : (m.step console).machine = m.advance (v :: m.stack) .running

/-- The next step fails because of a line, and leaves the machine as it was. -/
structure Rejects (m : Machine) (console : Console) (text : List Char) : Prop where
  fault : (m.step console).result =
    .error (m.fault (.notInteger (String.ofList text)) (some .readInt))
  unchanged : (m.step console).machine = m

variable {m : Machine} {console : Console} {text : List Char}

/-- Reading an integer from a line depends on the text of the line alone. -/
theorem ReadsInteger.step_eq
    (reads : m.ReadsInteger console (text.flatMap String.utf8EncodeChar)) :
    ∃ console', m.step console = m.settle .readInt
      (match lineInteger? text with
      | some n => .done (.int n :: m.stack) console'
      | none => .failed (.notInteger (String.ofList text)) m.stack console') := by
  obtain ⟨line, left, taken, answer⟩ := reads.offered.takeLine
  have asked := Console.ask_taken reads.flushed taken
  rw [answer] at asked
  refine ⟨console.ask.2, ?_⟩
  rw [step_attempted reads.attempted]
  congr 1
  unfold Instruction.demand Demand.meet
  dsimp only
  rw [asked]
  dsimp only
  cases lineInteger? text <;> rfl

theorem ReadsInteger.pushes_iff
    (reads : m.ReadsInteger console (text.flatMap String.utf8EncodeChar)) {n : Int64} :
    m.Pushes console (.int n) ↔ HoldsInteger text n.toInt := by
  obtain ⟨console', step⟩ := reads.step_eq
  rw [← lineInteger?_eq_some_iff]
  cases found : lineInteger? text with
  | none =>
    rw [found] at step
    refine ⟨fun pushes => ?_, nofun⟩
    have goesOn := pushes.goesOn
    rw [step] at goesOn
    cases goesOn
  | some other =>
    rw [found] at step
    constructor
    · intro pushes
      have machine := pushes.machine
      rw [step] at machine
      cases congrArg Machine.stack machine
      rfl
    · intro same
      cases same
      exact ⟨congrArg Outcome.result step, congrArg Outcome.machine step⟩

/-- A line that holds no integer in the range of a word is refused as a whole. -/
theorem ReadsInteger.rejects
    (reads : m.ReadsInteger console (text.flatMap String.utf8EncodeChar))
    (none : ∀ i, HoldsInteger text i → i < -2 ^ 63 ∨ 2 ^ 63 ≤ i) :
    m.Rejects console text := by
  obtain ⟨console', step⟩ := reads.step_eq
  cases found : lineInteger? text with
  | some n =>
    have low := n.le_toInt
    have high := n.toInt_lt
    have outside := none n.toInt (lineInteger?_eq_some_iff.1 found)
    omega
  | none =>
    rw [found] at step
    exact ⟨congrArg Outcome.result step, congrArg Outcome.machine step⟩

/-- An integer on top of the stack is printed as its numeral. -/
theorem step_print_int {n : Int64} {below : Stack} (attempted : m.attempted? = some .print)
    (top : m.stack = .int n :: below) (unlimited : console.output = .unlimited) :
    (m.step console).console.written =
      console.written ++ (Numeral.word n).flatMap String.utf8EncodeChar := by
  have printed : Utf8.encode (Value.int n).text =
      (Numeral.word n).flatMap String.utf8EncodeChar := by
    unfold Utf8.encode Utf8.encodeChars Value.text
    rw [String.toList_ofList, funext Utf8.encodeChar_eq_utf8EncodeChar]
  have demanded : Instruction.print.demand m.program.constants m.stack =
      .output (Utf8.encode (Value.int n).text) := by
    rw [top]
    rfl
  rw [step_streams, attempted]
  dsimp only
  rw [demanded, Demand.meet_streams]
  dsimp only
  rw [Console.write_unlimited unlimited, Console.written_accept, printed]

/-- A machine that reads an integer from a line of text pushes the one that the text
holds; if it holds none in the range of a word, the step fails, reports the whole text
and changes nothing. Whatever is printed for an integer is read as that integer, with
any white space around it. -/
theorem readInt_exact :
    (∀ (m : Machine) (console : Console) (text : List Char),
      m.ReadsInteger console (text.flatMap String.utf8EncodeChar) →
      (∀ n : Int64, m.Pushes console (.int n) ↔ HoldsInteger text n.toInt) ∧
      ((∀ i, HoldsInteger text i → i < -2 ^ 63 ∨ 2 ^ 63 ≤ i) →
        m.Rejects console text)) ∧
    ∀ (w : Machine) (out : Console) (n : Int64) (below : Stack),
      w.attempted? = some .print → w.stack = .int n :: below →
      out.output = .unlimited →
      ∃ printed, (w.step out).console.written = out.written ++ printed ∧
        ∀ (m : Machine) (console : Console) (before after : List Char),
          (∀ c ∈ before, isBlank c) → (∀ c ∈ after, isBlank c) →
          m.ReadsInteger console
            (before.flatMap String.utf8EncodeChar ++ printed ++
              after.flatMap String.utf8EncodeChar) →
          m.Pushes console (.int n) := by
  refine ⟨fun m console text reads => ⟨fun n => reads.pushes_iff, reads.rejects⟩, ?_⟩
  intro w out n below attempted top unlimited
  refine ⟨_, step_print_int attempted top unlimited, ?_⟩
  intro m console before after blankBefore blankAfter reads
  rw [← List.flatMap_append, ← List.flatMap_append] at reads
  exact reads.pushes_iff.2 ⟨before, Numeral.word n, after, rfl, blankBefore, blankAfter,
    Numeral.signed_integer n.toInt⟩

/-- The least integer, printed and read back between a tab and a stray carriage
return; and a line with the integer after the greatest one. -/
theorem readInt_exact_limits :
    let w : Machine := ⟨⟨[], [.print]⟩, [.int Int64.minValue], 0, 0, false⟩
    let m : Machine := ⟨⟨[], [.readInt]⟩, [.str "x"], 0, 0, false⟩
    let out := Console.fresh (.ofBytes []) .unlimited
    let printed := (w.step out).console.written
    let beyond := ['+', '0', '9', '2', '2', '3', '3', '7', '2', '0', '3', '6', '8', '5',
      '4', '7', '7', '5', '8', '0', '8', ' ']
    m.Pushes (.fresh (.ofBytes (0x09 :: printed ++ [0x0D, 0x0D, 0x0A])) .unlimited)
        (.int Int64.minValue) ∧
      m.Rejects (.fresh (.ofBytes (beyond.map Bytes.ascii)) .unlimited) beyond := by
  intro w m out printed beyond
  obtain ⟨readers, printers⟩ := readInt_exact
  constructor
  · obtain ⟨bytes, written, readBack⟩ :=
      printers w out Int64.minValue [] rfl rfl rfl
    have same : printed = bytes := written
    have tab : ∀ c ∈ ['\t'], isBlank c := List.forall_mem_singleton.2 rfl
    have carriageReturn : ∀ c ∈ ['\r'], isBlank c := List.forall_mem_singleton.2 rfl
    refine readBack m _ ['\t'] ['\r'] tab carriageReturn ⟨rfl, rfl, ?_⟩
    rw [← same]
    exact @Source.Offers.crlf (0x09 :: printed ++ [0x0D]) [] .closed (by decide)
  · refine (readers m _ beyond ⟨rfl, rfl, .last (by decide) (by decide) (by nofun)⟩).2 ?_
    intro i holds
    have value : Numeral.integer? (trim beyond) = some (2 ^ 63) := by decide
    rw [integer?_trim_eq_some_iff.2 holds] at value
    cases value
    decide

end Machine

end Bytecode
