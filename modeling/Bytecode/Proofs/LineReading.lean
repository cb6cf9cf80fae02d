import Bytecode.Proofs.MachineUse
import Bytecode.Proofs.Streams
import Bytecode.Proofs.Utf8Roundtrip

/-!
Input that is read line by line.

`Bytes.lines` cuts an input into its lines. However often a machine is stepped,
and whatever its steps come to, it has used up so many whole lines from the front
of its input, one for each time that a line was asked for and there was something
to read (`Rig.linesTaken`). The next time it gets the next line:
`Machine.TakesLine` says what comes of that, and `Bytes.LineText` which text a line
stands for. A step that fails is no exception, so an instruction that is tried
again after a line it could not use gets the line after it.

The output only has to let itself be flushed; it may run full.
-/

namespace Bytecode

/-! ## Lines -/

/-- The lines of some bytes, each with its line end, which the last may lack. -/
def Bytes.lines : Bytes → List Bytes
  | [] => []
  | b :: rest =>
    if b = Source.lineEnd then [b] :: lines rest
    else
      match lines rest with
      | [] => [[b]]
      | line :: others => (b :: line) :: others

namespace Bytes

variable {bytes before line : Bytes} {rest : List Bytes}

/-- Nothing is lost between the lines. -/
theorem flatten_lines (bytes : Bytes) : bytes.lines.flatten = bytes := by
  fun_induction lines bytes with
  | case1 => rfl
  | case2 bytes ih => simp only [List.flatten_cons, ih, List.singleton_append]
  | case3 b bytes notEnd noMore ih =>
    rw [noMore] at ih
    rw [← ih]
    rfl
  | case4 b bytes notEnd line others more ih =>
    rw [more] at ih
    rw [← ih]
    rfl

theorem lines_eq_nil_iff : bytes.lines = [] ↔ bytes = [] := by
  constructor
  · intro noLines
    rw [← flatten_lines bytes, noLines]
    rfl
  · intro empty
    rw [empty]
    rfl

/-- The first line goes up to the first line end. -/
theorem lines_terminated (absent : Source.lineEnd ∉ before) (after : Bytes) :
    lines (before ++ Source.lineEnd :: after) =
      (before ++ [Source.lineEnd]) :: lines after := by
  induction before with
  | nil => simp only [List.nil_append, lines, if_true]
  | cons b before ih =>
    have notEnd : b ≠ Source.lineEnd := (List.ne_of_not_mem_cons absent).symm
    rw [List.cons_append, lines, if_neg notEnd,
      ih (List.not_mem_of_not_mem_cons absent)]
    rfl

/-- Without a line end there is one line at most. -/
theorem lines_unterminated (absent : Source.lineEnd ∉ bytes) (some : bytes ≠ []) :
    bytes.lines = [bytes] := by
  induction bytes with
  | nil => exact absurd rfl some
  | cons b bytes ih =>
    have notEnd : b ≠ Source.lineEnd := (List.ne_of_not_mem_cons absent).symm
    rw [lines, if_neg notEnd]
    by_cases more : bytes = []
    · rw [more]
      rfl
    · rw [ih (List.not_mem_of_not_mem_cons absent) more]

/-- What comes after the first line has the other lines. -/
theorem lines_flatten_rest (cut : bytes.lines = line :: rest) :
    lines rest.flatten = rest := by
  by_cases member : Source.lineEnd ∈ bytes
  · obtain ⟨before, after, rfl, absent⟩ := List.eq_append_cons_of_mem member
    rw [lines_terminated absent] at cut
    rw [← (List.cons.inj cut).2, flatten_lines]
  · have some : bytes ≠ [] := by
      intro empty
      rw [lines_eq_nil_iff.2 empty] at cut
      cases cut
    rw [lines_unterminated member some] at cut
    rw [← (List.cons.inj cut).2]
    rfl

end Bytes

namespace Source

theorem takeLine_nil : takeLine (.ofBytes []) = (.error .closed, .ofBytes []) :=
  rfl

/-- A closed source gives its lines one after the other. -/
theorem takeLine_lines {bytes line : Bytes} {rest : List Bytes}
    (cut : bytes.lines = line :: rest) :
    takeLine (.ofBytes bytes) = (.ok line, .ofBytes rest.flatten) := by
  unfold takeLine ofBytes
  dsimp only
  by_cases member : lineEnd ∈ bytes
  · obtain ⟨before, after, rfl, absent⟩ := List.eq_append_cons_of_mem member
    rw [Bytes.lines_terminated absent] at cut
    obtain ⟨rfl, rfl⟩ := List.cons.inj cut
    rw [Bytes.cut?_eq_some_iff.2 ⟨rfl, absent⟩, Bytes.flatten_lines]
  · rw [Bytes.cut?_eq_none_iff.2 member]
    cases bytes with
    | nil => cases cut
    | cons b bytes =>
      rw [Bytes.lines_unterminated member (List.cons_ne_nil b bytes)] at cut
      obtain ⟨rfl, rfl⟩ := List.cons.inj cut
      rfl

end Source

/-! ## The text on a line -/

/-- The text that a line stands for: its characters without the line end, which is
a line feed with or without one carriage return before it. Without a line feed at
the end nothing is taken away. -/
inductive Bytes.LineText : Bytes → List Char → Prop
  | crlf (text : List Char) :
    LineText ((text ++ ['\r', '\n']).flatMap String.utf8EncodeChar) text
  | lf {text : List Char} :
    text.getLast? ≠ some '\r' →
    LineText ((text ++ ['\n']).flatMap String.utf8EncodeChar) text
  | unended {text : List Char} :
    text.getLast? ≠ some '\n' →
    LineText (text.flatMap String.utf8EncodeChar) text

/-- The bytes of a text. -/
def Bytes.IsUtf8 (bytes : Bytes) : Prop :=
  ∃ text : List Char, bytes = text.flatMap String.utf8EncodeChar

theorem Utf8.decode?_eq_some_iff {bytes : Bytes} {text : List Char} :
    decode? bytes = some text ↔ bytes = text.flatMap String.utf8EncodeChar := by
  have encoded : encodeChars text = text.flatMap String.utf8EncodeChar := by
    unfold encodeChars
    rw [funext encodeChar_eq_utf8EncodeChar]
  rw [← encoded, ← split_eq_nil_iff]
  unfold decode?
  constructor
  · intro found
    split at found
    · next cs whole =>
      cases found
      exact whole
    · cases found
  · intro whole
    rw [whole]

/-- A line that is a text stands for what is left of it without its line end. -/
theorem Console.withoutLineEnd_lineText (text : List Char) :
    Bytes.LineText (text.flatMap String.utf8EncodeChar) (withoutLineEnd text) := by
  unfold withoutLineEnd
  split
  · next rest reversed =>
    have whole : text = rest.reverse ++ ['\r', '\n'] := by
      rw [← List.reverse_reverse text, reversed]
      simp
    rw [whole]
    exact .crlf _
  · next rest notReturn reversed =>
    have whole : text = rest.reverse ++ ['\n'] := by
      rw [← List.reverse_reverse text, reversed]
      simp
    rw [whole]
    refine .lf fun last => ?_
    rw [List.getLast?_reverse] at last
    obtain ⟨more, rfl⟩ := List.head?_eq_some_iff.1 last
    exact notReturn more rfl
  · next notFeed =>
    refine .unended fun last => ?_
    rw [← List.head?_reverse] at last
    obtain ⟨more, reversed⟩ := List.head?_eq_some_iff.1 last
    exact notFeed more reversed

/-! ## Asking for a line -/

namespace Console

variable {console : Console}

/-- What asking gives when the next line is this one. -/
def lineAnswer (line : Bytes) : Except Trap (List Char) :=
  match Utf8.decode? line with
  | some text => .ok (withoutLineEnd text)
  | none => .error (.stream notUtf8)

theorem ask_nil (steady : console.output.flushes = .steady)
    (input : console.input = .ofBytes []) :
    console.ask =
      (.error .endOfInput,
        { console with events := console.events ++ [.flush, .read] }) := by
  unfold ask
  rw [flush_steady steady]
  unfold readLine
  dsimp only
  rw [input, Source.takeLine_nil, List.append_assoc]
  rfl

/-- Asking gives the line that is taken from the input. -/
theorem ask_taken {line : Bytes} {left : Source} (flushed : console.flush.1 = .ok ())
    (taken : console.input.takeLine = (.ok line, left)) :
    console.ask =
      (lineAnswer line,
        { console.flush.2 with
          input := left
          events := console.flush.2.events ++ [.read] }) := by
  rw [← console.flush_keeps.2] at taken
  unfold ask
  rcases flushEq : console.flush with ⟨result, console'⟩
  rw [flushEq] at flushed taken
  cases flushed
  unfold readLine lineAnswer
  dsimp only at taken ⊢
  rw [taken]
  dsimp only
  cases Utf8.decode? line <;> rfl

theorem ask_line {bytes line : Bytes} {rest : List Bytes}
    (steady : console.output.flushes = .steady)
    (input : console.input = .ofBytes bytes) (cut : bytes.lines = line :: rest) :
    console.ask =
      (lineAnswer line,
        { console with
          input := .ofBytes rest.flatten
          events := console.events ++ [.flush, .read] }) := by
  have flushed := flush_steady steady
  have taken : console.input.takeLine = (.ok line, .ofBytes rest.flatten) := by
    rw [input]
    exact Source.takeLine_lines cut
  rw [ask_taken (congrArg Prod.fst flushed) taken, flushed, List.append_assoc]
  rfl

end Console

/-! ## Instructions -/

/-- Whether an instruction asks for a line. -/
def Instruction.reads : Instruction → Bool
  | readInt | readString => true
  | halt | loadConst _ | pop | drop | print | newline | storeIndexed | pushBool
  | binary _ | unknown _ => false

/-- Only a demand for a line uses input. -/
theorem Demand.input_meet {demand : Demand} (other : ∀ use, demand ≠ .input use)
    (stack : Stack) (console : Console) :
    (demand.meet stack console).console.input = console.input := by
  rw [meet_streams]
  cases demand with
  | quiet _ | output _ => rfl
  | input use => exact absurd rfl (other use)
  | ending => exact console.flush_keeps.2

theorem Instruction.demand_ne_input {i : Instruction} (other : i.reads = false)
    (constants : ConstantPool) (stack : Stack) (use : List Char → Option Stack) :
    i.demand constants stack ≠ .input use := by
  unfold demand
  cases i with
  | readInt | readString => cases other
  | halt | newline | storeIndexed | pushBool | binary _ | unknown _ => nofun
  | loadConst index =>
    dsimp only
    split <;> nofun
  | pop | drop | print =>
    dsimp only
    split <;> nofun

namespace Machine

variable {m : Machine} {i : Instruction} {console : Console}

/-- What comes of an instruction that gets a line: how the step ends, and the
machine after it. -/
inductive TakesLine (m : Machine) (line : Bytes) :
    Instruction → Except Fault Progress → Machine → Prop
  | notUtf8 {i : Instruction} :
    ¬ line.IsUtf8 →
    TakesLine m line i
      (.error (m.fault (.stream "stream did not contain valid UTF-8") (some i))) m
  | string {text : List Char} :
    line.LineText text →
    TakesLine m line .readString (.ok .running)
      (m.advance (.str (String.ofList text) :: m.stack) .running)
  | integer {text : List Char} {n : Int64} :
    line.LineText text → lineInteger? text = some n →
    TakesLine m line .readInt (.ok .running)
      (m.advance (.int n :: m.stack) .running)
  | notInteger {text : List Char} :
    line.LineText text → lineInteger? text = none →
    TakesLine m line .readInt
      (.error (m.fault (.notInteger (String.ofList text)) (some .readInt))) m

/-- A step that attempts anything but a read leaves the input alone. -/
theorem input_step (other : ∀ i, m.attempted? = some i → i.reads = false)
    (console : Console) : (m.step console).console.input = console.input := by
  rw [step_streams]
  split
  · next i attempted =>
    exact Demand.input_meet (Instruction.demand_ne_input (other i attempted) _ _) _ _
  · rfl

/-- A read that finds nothing left fails and takes nothing. -/
theorem step_reads_nil (attempted : m.attempted? = some i) (reads : i.reads = true)
    (steady : console.output.flushes = .steady)
    (input : console.input = .ofBytes []) :
    (m.step console).result = .error (m.fault .endOfInput (some i)) ∧
      (m.step console).machine = m ∧
        (m.step console).console.input = console.input := by
  rw [step_attempted attempted]
  cases i with
  | readInt | readString =>
    unfold Instruction.demand Demand.meet
    dsimp only
    rw [Console.ask_nil steady input]
    exact ⟨rfl, rfl, rfl⟩
  | halt | loadConst _ | pop | drop | print | newline | storeIndexed | pushBool
  | binary _ | unknown _ => cases reads

/-- A read takes the first line that is left, whether it can be used or not. -/
theorem step_reads_line {bytes line : Bytes} {rest : List Bytes}
    (attempted : m.attempted? = some i) (reads : i.reads = true)
    (steady : console.output.flushes = .steady)
    (input : console.input = .ofBytes bytes) (cut : bytes.lines = line :: rest) :
    m.TakesLine line i (m.step console).result (m.step console).machine ∧
      (m.step console).console.input = .ofBytes rest.flatten := by
  have asked := Console.ask_line steady input cut
  rw [step_attempted attempted]
  unfold Console.lineAnswer at asked
  cases decoded : Utf8.decode? line with
  | none =>
    have notUtf8 : ¬ line.IsUtf8 := by
      rintro ⟨text, bytesEq⟩
      rw [Utf8.decode?_eq_some_iff.2 bytesEq] at decoded
      cases decoded
    rw [decoded] at asked
    cases i with
    | readInt | readString =>
      unfold Instruction.demand Demand.meet
      dsimp only
      rw [asked]
      exact ⟨.notUtf8 notUtf8, rfl⟩
    | halt | loadConst _ | pop | drop | print | newline | storeIndexed | pushBool
    | binary _ | unknown _ => cases reads
  | some chars =>
    have text : line.LineText (Console.withoutLineEnd chars) := by
      rw [Utf8.decode?_eq_some_iff.1 decoded]
      exact Console.withoutLineEnd_lineText chars
    rw [decoded] at asked
    cases i with
    | readInt =>
      unfold Instruction.demand Demand.meet
      dsimp only
      rw [asked]
      cases number : lineInteger? (Console.withoutLineEnd chars) with
      | none =>
        simp only [number, Option.map_none]
        exact ⟨.notInteger text number, rfl⟩
      | some n =>
        simp only [number, Option.map_some]
        exact ⟨.integer text number, rfl⟩
    | readString =>
      unfold Instruction.demand Demand.meet
      dsimp only
      rw [asked]
      exact ⟨.string text, rfl⟩
    | halt | loadConst _ | pop | drop | print | newline | storeIndexed | pushBool
    | binary _ | unknown _ => cases reads

end Machine

/-! ## Steps one after the other -/

namespace Rig

/-- The rig after a number of steps, whatever they came to. -/
def stepped (rig : Rig) : Nat → Rig
  | 0 => rig
  | n + 1 => (rig.stepped n).use .step

/-- Whether the next step asks for a line while there is something to read. -/
def draws (rig : Rig) : Bool :=
  rig.machine.attempted?.any Instruction.reads && !rig.console.input.bytes.isEmpty

/-- How often a line was asked for, in a number of steps, while there was something
to read. -/
def linesTaken (rig : Rig) (n : Nat) : Nat :=
  (List.range n).countP fun k => (rig.stepped k).draws

theorem stepped_add (rig : Rig) (a b : Nat) :
    rig.stepped (a + b) = (rig.stepped a).stepped b := by
  induction b with
  | zero => rfl
  | succ b ih => exact congrArg (use · .step) ih

/-- A run is a number of steps. -/
theorem use_run (rig : Rig) : ∃ n, rig.use .run = rig.stepped n := by
  rcases rig with ⟨m, console⟩
  induction m, console using Machine.run_induction with
  | stops m console stopping =>
    refine ⟨1, ?_⟩
    unfold use
    dsimp only
    rw [Machine.run_of_stopping stopping]
    rfl
  | goesOn m console running ih =>
    obtain ⟨n, rest⟩ := ih
    refine ⟨1 + n, ?_⟩
    rw [stepped_add]
    unfold use
    dsimp only
    rw [Machine.run_of_running running]
    exact rest

theorem after_eq_stepped (rig : Rig) {uses : List Use}
    (plain : ∀ u ∈ uses, u = .step ∨ u = .run) :
    ∃ n, rig.after uses = rig.stepped n := by
  induction uses generalizing rig with
  | nil => exact ⟨0, rfl⟩
  | cons u uses ih =>
    obtain ⟨first, others⟩ := List.forall_mem_cons.1 plain
    have steps : ∃ a, rig.use u = rig.stepped a := by
      rcases first with rfl | rfl
      · exact ⟨1, rfl⟩
      · exact rig.use_run
    obtain ⟨a, here⟩ := steps
    obtain ⟨b, rest⟩ := ih (rig.use u) others
    refine ⟨a + b, ?_⟩
    rw [stepped_add, ← here]
    exact rest

/-- What the next step does about the input, given the lines that are left. -/
structure ReadsFrom (left : List Bytes) (rig : Rig) : Prop where
  /-- Nothing but an instruction that asks for a line uses input. -/
  other : (∀ i, rig.machine.attempted? = some i → i.reads = false) →
    (rig.use .step).console.input = rig.console.input
  exhausted : ∀ i, rig.machine.attempted? = some i → i.reads = true → left = [] →
    (rig.machine.step rig.console).result =
        .error (rig.machine.fault .endOfInput (some i)) ∧
      (rig.use .step).machine = rig.machine ∧
      (rig.use .step).console.input = rig.console.input
  next : ∀ i line rest, rig.machine.attempted? = some i → i.reads = true →
    left = line :: rest →
    rig.machine.TakesLine line i (rig.machine.step rig.console).result
        (rig.use .step).machine ∧
      (rig.use .step).console.input = .ofBytes rest.flatten

/-- A rig with these lines to read, and an output that can be flushed. -/
structure Holds (left : List Bytes) (rig : Rig) : Prop where
  input : rig.console.input = .ofBytes left.flatten
  cut : Bytes.lines left.flatten = left
  steady : rig.console.output.flushes = .steady

theorem Holds.readsFrom {left : List Bytes} {rig : Rig} (holds : rig.Holds left) :
    rig.ReadsFrom left where
  other := fun other => Machine.input_step other rig.console
  exhausted := by
    rintro i attempted reads rfl
    exact Machine.step_reads_nil attempted reads holds.steady holds.input
  next := by
    rintro i line rest attempted reads rfl
    exact Machine.step_reads_line attempted reads holds.steady holds.input holds.cut

/-- A step takes one line if it asks for one and there is one, and otherwise
none. -/
theorem Holds.step {left : List Bytes} {rig : Rig} (holds : rig.Holds left) :
    (rig.draws = true → left ≠ []) ∧
      (rig.use .step).Holds (if rig.draws then left.tail else left) := by
  have readsFrom := holds.readsFrom
  have steady := rig.machine.steady_step holds.steady
  by_cases asks : ∃ i, rig.machine.attempted? = some i ∧ i.reads = true
  · obtain ⟨i, attempted, reads⟩ := asks
    cases left with
    | nil =>
      have idle : rig.draws = false := by
        simp [draws, attempted, holds.input, Source.ofBytes]
      obtain ⟨-, -, kept⟩ := readsFrom.exhausted i attempted reads rfl
      simp only [idle, Bool.false_eq_true, false_implies, if_false, true_and]
      exact ⟨kept.trans holds.input, holds.cut, steady⟩
    | cons line rest =>
      have more : (line :: rest).flatten ≠ [] := by
        intro empty
        have none := Bytes.lines_eq_nil_iff.2 empty
        rw [holds.cut] at none
        cases none
      have draws : rig.draws = true := by
        simp only [Rig.draws, attempted, holds.input, Source.ofBytes, Option.any_some,
          reads, Bool.true_and, Bool.not_eq_true', List.isEmpty_eq_false_iff]
        exact more
      obtain ⟨-, taken⟩ := readsFrom.next i line rest attempted reads rfl
      refine ⟨fun _ => List.cons_ne_nil line rest, ?_⟩
      rw [draws, if_pos rfl]
      exact ⟨taken, Bytes.lines_flatten_rest holds.cut, steady⟩
  · have other : ∀ i, rig.machine.attempted? = some i → i.reads = false := by
      intro i attempted
      rw [Bool.eq_false_iff]
      exact fun reads => asks ⟨i, attempted, reads⟩
    have idle : rig.draws = false := by
      unfold draws
      cases attempted : rig.machine.attempted? with
      | none => rfl
      | some i => simp [other i attempted]
    have kept := readsFrom.other other
    simp only [idle, Bool.false_eq_true, false_implies, if_false, true_and]
    exact ⟨kept.trans holds.input, holds.cut, steady⟩

/-- After a number of steps the lines that were taken are gone from the front, and
no others. -/
theorem Holds.stepped {left : List Bytes} {rig : Rig} (holds : rig.Holds left)
    (n : Nat) :
    rig.linesTaken n ≤ left.length ∧
      (rig.stepped n).Holds (left.drop (rig.linesTaken n)) := by
  induction n with
  | zero => exact ⟨Nat.zero_le _, holds⟩
  | succ n ih =>
    obtain ⟨few, there⟩ := ih
    obtain ⟨more, next⟩ := there.step
    have count : rig.linesTaken (n + 1) =
        rig.linesTaken n + if (rig.stepped n).draws then 1 else 0 := by
      simp [linesTaken, List.range_succ]
    rw [count]
    cases draws : (rig.stepped n).draws with
    | false =>
      rw [draws] at next
      exact ⟨few, next⟩
    | true =>
      have notAll : rig.linesTaken n < left.length := by
        have nonempty := more draws
        rw [Ne, List.drop_eq_nil_iff] at nonempty
        omega
      rw [draws, if_pos rfl, List.tail_drop] at next
      exact ⟨notAll, next⟩

/-- A machine takes its input in whole lines, from the first to the last. After any
number of steps the part of the input that is gone is the first so many lines, one
for each time that a line was asked for while there was something to read, and the
next step goes on from there. Steps are all that counts: whatever is done with the
machine by steps and runs is a number of steps. -/
theorem input_in_lines (program : Program) (bytes : Bytes) (room : Option Limit) :
    let start : Rig :=
      ⟨Machine.start program, .fresh (.ofBytes bytes) ⟨room, .steady⟩⟩
    (∀ n, start.linesTaken n ≤ bytes.lines.length ∧
      bytes = (bytes.lines.take (start.linesTaken n)).flatten ++
        (start.stepped n).console.input.bytes ∧
      (start.stepped n).ReadsFrom (bytes.lines.drop (start.linesTaken n))) ∧
    ∀ uses, (∀ u ∈ uses, u = .step ∨ u = .run) →
      ∃ n, start.after uses = start.stepped n := by
  intro start
  have holds : start.Holds bytes.lines := by
    refine ⟨?_, ?_, rfl⟩
    · rw [Bytes.flatten_lines]
      rfl
    · rw [Bytes.flatten_lines]
  refine ⟨fun n => ?_, fun uses plain => start.after_eq_stepped plain⟩
  obtain ⟨few, there⟩ := holds.stepped n
  refine ⟨few, ?_, there.readsFrom⟩
  rw [there.input]
  change bytes = _ ++ (bytes.lines.drop (start.linesTaken n)).flatten
  rw [← List.flatten_append, List.take_append_drop, Bytes.flatten_lines]

/-- An integer is asked for until a line holds one: a line with a carriage return
before its end, one that is not a text, and a last one without a line end. -/
theorem input_in_lines_retried :
    let program : Program := ⟨[], [.readInt, .readString, .halt]⟩
    let bytes : Bytes := [0x78, 0x0D, 0x0A, 0xFF, 0x0A, 0x37]
    let start : Rig :=
      ⟨Machine.start program, .fresh (.ofBytes bytes) .unlimited⟩
    bytes.lines = [[0x78, 0x0D, 0x0A], [0xFF, 0x0A], [0x37]] ∧
      (start.stepped 1).ReadsFrom [[0xFF, 0x0A], [0x37]] ∧
      (start.stepped 2).ReadsFrom [[0x37]] ∧
      (start.stepped 3).ReadsFrom [] ∧
      ∃ n, start.after [.run, .step, .run] = start.stepped n := by
  intro program bytes start
  have lines : bytes.lines = [[0x78, 0x0D, 0x0A], [0xFF, 0x0A], [0x37]] := by rfl
  obtain ⟨steps, uses⟩ := input_in_lines program bytes none
  have first := (steps 1).2.2
  have second := (steps 2).2.2
  have third := (steps 3).2.2
  rw [lines] at first second third
  exact ⟨lines, first, second, third, uses [.run, .step, .run] (by simp)⟩

end Rig

end Bytecode
