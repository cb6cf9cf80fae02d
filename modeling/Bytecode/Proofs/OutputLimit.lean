import Bytecode.Proofs.Streams

/-!
Executions with a limited output.

An output that takes `n` bytes and then fails is compared with one that takes
everything. `Console.limit` translates the streams of the second into those of the
first at the same place of a run. As long as no more than `n` bytes have been
written, the steps of the two runs correspond; the first step that writes past
the limit fails in the limited run, with the machine and the input as they were
before it and the output filled to the last byte. So the limit cuts a run at one
step, or makes no difference.
-/

namespace Bytecode

/-- A sink with room for a number of bytes, whose flushes succeed. -/
def Sink.limited (n : Nat) (reason : String) : Sink :=
  ⟨some ⟨n, reason⟩, .steady⟩

/-! ## Streams below the limit -/

namespace Console

/-- The streams with a limit on all that is written, counted from the start. -/
def limit (n : Nat) (reason : String) (console : Console) : Console :=
  { console with output := .limited (n - console.written.length) reason }

/-- Streams without a limit to which no more than `n` bytes have been written. -/
structure Within (n : Nat) (console : Console) : Prop where
  unlimited : console.output = .unlimited
  short : console.written.length ≤ n

variable {n : Nat} {reason : String} {console : Console}

theorem Within.steady (within : console.Within n) :
    console.output.flushes = .steady := by
  rw [within.unlimited]
  rfl

theorem flush_limit (n : Nat) (reason : String)
    (steady : console.output.flushes = .steady) :
    (console.limit n reason).flush =
      (console.flush.1, console.flush.2.limit n reason) := by
  have written := console.flush_keeps.1
  rw [flush_steady steady] at written ⊢
  unfold limit
  rw [written]
  rfl

theorem Within.flush (within : console.Within n) :
    console.flush.2.Within n where
  unlimited := by
    rw [flush_steady within.steady]
    exact within.unlimited
  short := by
    rw [console.flush_keeps.1]
    exact within.short

theorem readLine_limit (n : Nat) (reason : String) (console : Console) :
    (console.limit n reason).readLine =
      (console.readLine.1, console.readLine.2.limit n reason) := by
  have written := console.readLine_keeps.1
  unfold limit
  rw [written]
  unfold readLine
  dsimp only
  rcases console.input.takeLine with ⟨result, input⟩
  cases result with
  | error ending => rfl
  | ok bytes =>
    dsimp only
    split
    · rfl
    · rfl

theorem Within.readLine (within : console.Within n) :
    console.readLine.2.Within n where
  unlimited := console.readLine_keeps.2.trans within.unlimited
  short := by
    rw [console.readLine_keeps.1]
    exact within.short

theorem ask_limit (n : Nat) (reason : String)
    (steady : console.output.flushes = .steady) :
    (console.limit n reason).ask = (console.ask.1, console.ask.2.limit n reason) :=
  ask_through (flush_limit n reason steady) fun _ => readLine_limit n reason _

theorem Within.ask (within : console.Within n) : console.ask.2.Within n := by
  have read := within.flush.readLine
  rw [ask_streams]
  split
  · exact read
  · exact within.flush

/-! ## Writing up to the limit and past it -/

/-- The streams with a record of bytes that were accepted. -/
def accept (bytes : Bytes) (console : Console) : Console :=
  { console with
    events := if bytes = [] then console.events
      else console.events ++ [.write bytes] }

theorem written_accept (bytes : Bytes) (console : Console) :
    (console.accept bytes).written = console.written ++ bytes := by
  unfold accept
  split
  · next empty =>
    rw [empty, List.append_nil]
  · exact written_concat _ _ _ _

theorem write_unlimited (unlimited : console.output = .unlimited)
    (bytes : Bytes) : console.write bytes = (.ok (), console.accept bytes) := by
  rcases console with ⟨input, output, events⟩
  cases unlimited
  rfl

/-- Below the limit, a write goes the same way as without one. -/
theorem write_limit (console : Console) (reason : String) {bytes : Bytes}
    (fits : console.written.length + bytes.length ≤ n) :
    (console.limit n reason).write bytes =
      (.ok (), (console.accept bytes).limit n reason) := by
  have room : bytes.length ≤ n - console.written.length := by omega
  have left : n - (console.written ++ bytes).length =
      n - console.written.length - bytes.length := by
    rw [List.length_append]
    omega
  unfold limit
  rw [written_accept, left]
  unfold write Sink.write Sink.limited
  dsimp only
  rw [if_pos room]
  rfl

/-- A write past the limit fills the output to the last byte, and fails. -/
theorem write_past (reason : String) {bytes : Bytes}
    (short : console.written.length ≤ n)
    (past : n < console.written.length + bytes.length) :
    (console.limit n reason).write bytes =
      (.error reason,
        { console.accept (bytes.take (n - console.written.length)) with
          output := .limited 0 reason }) := by
  have noRoom : ¬ bytes.length ≤ n - console.written.length := by omega
  unfold limit write Sink.write Sink.limited
  dsimp only
  rw [if_neg noRoom]
  rfl

theorem Within.accept (within : console.Within n) {bytes : Bytes}
    (fits : console.written.length + bytes.length ≤ n) :
    (console.accept bytes).Within n where
  unlimited := within.unlimited
  short := by
    rw [written_accept, List.length_append]
    exact fits

end Console

/-! ## Instructions -/

section

variable {n : Nat} {console : Console}

/-- A demand for no more than there is room for leaves the streams below the
limit. -/
theorem Demand.within_meet (demand : Demand) (stack : Stack)
    (within : console.Within n)
    (fits : ∀ bytes, demand = .output bytes →
      console.written.length + bytes.length ≤ n) :
    (demand.meet stack console).console.Within n := by
  rw [meet_streams]
  cases demand with
  | quiet _ => exact within
  | output bytes =>
    dsimp only
    rw [Console.write_unlimited within.unlimited]
    exact within.accept (fits bytes rfl)
  | input _ => exact within.ask
  | ending => exact within.flush

/-- A demand is met below the limit as it is without one, unless it asks for a
write past the limit. -/
theorem Demand.meet_limit (demand : Demand) (stack : Stack) (reason : String)
    (within : console.Within n) :
    (demand.meet stack (console.limit n reason) =
        (demand.meet stack console).through (.limit n reason) ∧
      (demand.meet stack console).console.Within n) ∨
    ∃ bytes, demand = .output bytes ∧ n < console.written.length + bytes.length := by
  by_cases fits : ∀ bytes, demand = .output bytes →
      console.written.length + bytes.length ≤ n
  · refine .inl ⟨?_, demand.within_meet stack within fits⟩
    apply demand.meet_through stack
    · intro bytes output
      rw [Console.write_limit console reason (fits bytes output),
        Console.write_unlimited within.unlimited]
    · exact fun _ _ => Console.ask_limit n reason within.steady
    · exact fun _ => Console.flush_limit n reason within.steady
  · simp only [Classical.not_forall, Nat.not_le] at fits
    rcases fits with ⟨bytes, output, past⟩
    exact .inr ⟨bytes, output, past⟩

theorem Instruction.writes_of_output {i : Instruction} {constants : ConstantPool}
    {stack : Stack} {bytes : Bytes}
    (output : i.demand constants stack = .output bytes) :
    i = .print ∨ i = .newline := by
  unfold demand at output
  cases i with
  | print => exact .inl rfl
  | newline => exact .inr rfl
  | halt | readInt | readString | storeIndexed | pushBool | binary _
  | unknown _ => cases output
  | loadConst index =>
    dsimp only at output
    split at output <;> cases output
  | pop | drop =>
    dsimp only at output
    split at output <;> cases output

end

/-! ## Steps -/

namespace Machine

variable {n : Nat} {m : Machine} {console : Console}

/-- The next step writes past the limit. -/
structure Overruns (n : Nat) (m : Machine) (console : Console)
    (i : Instruction) (bytes : Bytes) : Prop where
  running : m.halted = false
  found : m.program.code[m.pc]? = some i
  output : i.demand m.program.constants m.stack = .output bytes
  past : n < console.written.length + bytes.length

theorem step_limit (m : Machine) (reason : String) (within : console.Within n) :
    (m.step (console.limit n reason) =
        (m.step console).through (.limit n reason) ∧
      (m.step console).console.Within n) ∨
    ∃ i bytes, m.Overruns n console i bytes := by
  unfold step
  cases ended : m.halted with
  | true => exact .inl ⟨rfl, within⟩
  | false =>
    rw [if_neg Bool.false_ne_true, if_neg Bool.false_ne_true]
    cases found : m.program.code[m.pc]? with
    | none => exact .inl ⟨rfl, within⟩
    | some i =>
      dsimp only
      rw [i.execute_eq_meet, i.execute_eq_meet]
      rcases Demand.meet_limit (i.demand m.program.constants m.stack) m.stack reason
        within with ⟨same, stillWithin⟩ | ⟨bytes, output, past⟩
      · rw [same, settle_through, settle_console]
        exact .inl ⟨rfl, stillWithin⟩
      · exact .inr ⟨i, bytes, ended, found, output, past⟩

namespace Overruns

variable {i : Instruction} {bytes : Bytes}

/-- Without a limit the step writes its bytes, and the program goes on. -/
theorem step_unlimited (overruns : m.Overruns n console i bytes)
    (unlimited : console.output = .unlimited) :
    (m.step console).result = .ok .running ∧
      (m.step console).console.written = console.written ++ bytes := by
  have effect : i.execute m.program.constants m.stack console =
      .done m.stack (console.accept bytes) := by
    rw [i.execute_eq_meet, overruns.output]
    unfold Demand.meet Effect.write
    dsimp only
    rw [Console.write_unlimited unlimited]
  have notHalt : i ≠ .halt := by
    rcases Instruction.writes_of_output overruns.output with rfl | rfl
    · nofun
    · nofun
  rw [(Stepped.goesOn overruns.running overruns.found notHalt effect).eq_step]
  exact ⟨rfl, console.written_accept bytes⟩

/-- With the limit the step fails, and leaves the output full. -/
theorem step_limited (overruns : m.Overruns n console i bytes) (reason : String)
    (short : console.written.length ≤ n) :
    ∃ console', m.step (console.limit n reason) =
        ⟨.error (m.fault (.stream reason) (some i)), m, console', [m.record i]⟩ ∧
      console'.written = (console.written ++ bytes).take n ∧
        console'.input = console.input := by
  have effect : i.execute m.program.constants m.stack (console.limit n reason) =
      .failed (.stream reason) m.stack
        { console.accept (bytes.take (n - console.written.length)) with
          output := .limited 0 reason } := by
    rw [i.execute_eq_meet, overruns.output]
    unfold Demand.meet Effect.write
    dsimp only
    rw [Console.write_past reason short overruns.past]
  refine ⟨_, (Stepped.failed overruns.running overruns.found effect).eq_step, ?_, rfl⟩
  rw [List.take_append, List.take_of_length_le short]
  exact console.written_accept _

end Overruns

/-! ## Runs -/

/-- A run below a limit is the run without one, or gets to the step that overruns
the limit in the same way. -/
theorem run_limit (m : Machine) (reason : String) (within : console.Within n) :
    (m.run (console.limit n reason) =
        (m.run console).through (.limit n reason) ∧
      (m.run console).console.Within n) ∨
    ∃ calls m' console' i bytes, Leads calls m console m' console' ∧
      Leads calls m (console.limit n reason) m' (console'.limit n reason) ∧
        console'.Within n ∧ m'.Overruns n console' i bytes := by
  -- A step that corresponds cannot have overrun the limit.
  have keeps : ∀ (m : Machine) console, console.Within n →
      m.step (console.limit n reason) =
        (m.step console).through (.limit n reason) →
      (m.step console).console.Within n := by
    intro m console within same
    rcases m.step_limit reason within with ⟨-, stillWithin⟩ | ⟨i, bytes, overruns⟩
    · exact stillWithin
    · obtain ⟨goesOn, -⟩ := overruns.step_unlimited within.unlimited
      obtain ⟨_, fails, -⟩ := overruns.step_limited reason within.short
      rw [fails] at same
      cases (congrArg Outcome.result same).trans goesOn
  rcases lockstep (.limit n reason) keeps m console within with same | departure
  · exact .inl same
  · obtain ⟨calls, m', console', leads, leadsLimited, there, parts⟩ := departure
    rcases m'.step_limit reason there with ⟨same, -⟩ | ⟨i, bytes, overruns⟩
    · exact absurd same parts
    · exact .inr ⟨calls, m', console', i, bytes, leads, leadsLimited, there, overruns⟩

/-- A run that gets to a step that overruns the limit ends there. -/
theorem Overruns.run_limited {calls : Nat} {m' : Machine} {console' : Console}
    {i : Instruction} {bytes : Bytes} {reason : String}
    (overruns : m'.Overruns n console' i bytes) (within : console'.Within n)
    (leads : Leads calls m console m' console')
    (leadsLimited :
      Leads calls m (console.limit n reason) m' (console'.limit n reason)) :
    (m.run (console.limit n reason)).result =
        .error (m'.fault (.stream reason) (some i)) ∧
      (m.run (console.limit n reason)).machine = m' ∧
      (m.run (console.limit n reason)).console.written =
        (m.run console).console.written.take n ∧
      (m.run (console.limit n reason)).console.input = console'.input := by
  obtain ⟨goesOn, written⟩ := overruns.step_unlimited within.unlimited
  obtain ⟨full, fails, fullWritten, fullInput⟩ :=
    overruns.step_limited reason within.short
  obtain ⟨log, cutEq⟩ := leadsLimited.run
  have stopping : (m'.step (console'.limit n reason)).result ≠ .ok .running := by
    rw [fails]
    nofun
  rw [run_of_stopping stopping, fails] at cutEq
  -- The unlimited run goes on from the bytes that do not fit.
  obtain ⟨rest, whole⟩ := (leads.trans (.step goesOn .here)).written_run
  rw [written] at whole
  have filled : (m.run console).console.written.take n =
      (console'.written ++ bytes).take n := by
    rw [← whole]
    apply List.take_append_of_le_length
    rw [List.length_append]
    exact Nat.le_of_lt overruns.past
  rw [cutEq, filled]
  exact ⟨rfl, rfl, fullWritten, fullInput⟩

end Machine

/-! ## Executions -/

/-- Two outcomes that are the same but for the room that the output has left. -/
structure Outcome.SameButRoom (o o' : Outcome Unit) : Prop where
  result : o'.result = o.result
  machine : o'.machine = o.machine
  events : o'.console.events = o.console.events
  input : o'.console.input = o.console.input
  log : o'.log = o.log

/-- The step of an unlimited execution that takes its output past a limit: after
no more than `calls` steps the output is within the limit, after more it is not. -/
structure Program.Overflows (program : Program) (input : Source) (n calls : Nat)
    (m : Machine) (console : Console) (i : Instruction) : Prop where
  leads : Machine.Leads calls (Machine.start program)
    (.fresh input .unlimited) m console
  found : program.code[m.pc]? = some i
  writes : i = .print ∨ i = .newline
  past : n < (m.step console).console.written.length
  first : ∀ k m' console', Machine.Leads k (Machine.start program)
    (.fresh input .unlimited) m' console' →
      (console'.written.length ≤ n ↔ k ≤ calls)

/-- The place where a course overruns the limit is the first one past it. -/
theorem Machine.Leads.overflows {program : Program} {input : Source}
    {n calls : Nat} {m : Machine} {console : Console} {i : Instruction}
    {bytes : Bytes}
    (leads : Leads calls (Machine.start program) (.fresh input .unlimited) m console)
    (loaded : m.program = program) (within : console.Within n)
    (overruns : m.Overruns n console i bytes) :
    program.Overflows input n calls m console i := by
  obtain ⟨goesOn, written⟩ := overruns.step_unlimited within.unlimited
  have past : n < (m.step console).console.written.length := by
    rw [written, List.length_append]
    exact overruns.past
  refine ⟨leads, loaded ▸ overruns.found,
    Instruction.writes_of_output overruns.output, past, ?_⟩
  intro k m' console' other
  rcases Nat.lt_or_ge calls k with later | notLater
  · -- The output at a later place begins with the one that is too long.
    obtain ⟨more, rfl⟩ := Nat.exists_eq_add_of_lt later
    rw [Nat.add_right_comm] at other
    have rest := (leads.trans (.step goesOn .here)).rest other
    have longer := (Console.written_of_grown rest.grown).length_le
    omega
  · obtain ⟨more, rfl⟩ := Nat.exists_eq_add_of_le notLater
    have shorter := (Console.written_of_grown (other.rest leads).grown).length_le
    have short := within.short
    omega

/-- Where the runs correspond, so do the executions. -/
theorem execute_limit {program : Program} {console : Console} {n : Nat}
    {reason : String}
    (same : (Machine.start program).run (console.limit n reason) =
      ((Machine.start program).run console).through (.limit n reason))
    (within : ((Machine.start program).run console).console.Within n) :
    execute program (console.limit n reason) =
      (execute program console).through (.limit n reason) := by
  unfold execute
  rw [same]
  generalize (Machine.start program).run console = o at within
  rcases o with ⟨result, machine, console', log⟩
  cases result with
  | ok _ => rfl
  | error fault =>
    dsimp only [Outcome.through]
    rw [Console.flush_limit n reason within.steady,
      Console.flush_steady within.steady]

/-- An execution whose output has room for `n` bytes is the one with an unlimited
output, if that writes no more; otherwise it fails at the first instruction that
writes more, with the first `n` bytes written, and the machine and the input are
as the unlimited execution had them just before that instruction. -/
theorem execute_limited (program : Program) (input : Source) (n : Nat)
    (reason : String) :
    let whole := execute program (.fresh input .unlimited)
    let cut := execute program (.fresh input (.limited n reason))
    (whole.console.written.length ≤ n → whole.SameButRoom cut) ∧
    (n < whole.console.written.length →
      ∃ calls m console i, program.Overflows input n calls m console i ∧
        cut.result = .error ⟨.stream reason, m.pc, some i, m.stack.depth⟩ ∧
        cut.machine = m ∧
        cut.console.written = whole.console.written.take n ∧
        cut.console.input = console.input) := by
  intro whole cut
  have start : (Console.fresh input .unlimited).Within n :=
    ⟨rfl, Nat.zero_le n⟩
  have wholeWritten : whole.console.written = _ :=
    (execute_streams program (.fresh input .unlimited)).1
  rcases (Machine.start program).run_limit reason start with
    ⟨same, within⟩ | ⟨calls, m, console, i, bytes, leads, leadsLimited, within, overruns⟩
  · have executions : cut = whole.through (.limit n reason) :=
      execute_limit same within
    refine ⟨fun _ => ?_, fun past => ?_⟩
    · rw [executions]
      exact ⟨rfl, rfl, rfl, rfl, rfl⟩
    · have short := within.short
      rw [← wholeWritten] at short
      omega
  · have overflows := leads.overflows leads.program_eq within overruns
    obtain ⟨result, machine, written, inputLeft⟩ :=
      overruns.run_limited within leads leadsLimited
    obtain ⟨cutResult, cutMachine⟩ :=
      execute_reports program (.fresh input (.limited n reason))
    obtain ⟨cutWritten, cutInput⟩ :=
      execute_streams program (.fresh input (.limited n reason))
    refine ⟨fun short => ?_, fun _ => ⟨calls, m, console, i, overflows, ?_, ?_, ?_, ?_⟩⟩
    · obtain ⟨goesOn, -⟩ := overruns.step_unlimited within.unlimited
      have longer := (leads.trans (.step goesOn .here)).written_run.length_le
      have past := overflows.past
      rw [← wholeWritten] at longer
      omega
    · exact cutResult.trans result
    · exact cutMachine.trans machine
    · rw [wholeWritten]
      exact cutWritten.trans written
    · exact cutInput.trans inputLeft

/-- Three bytes of output, and nothing written after them: room for three makes no
difference, and room for two cuts the second character in half. -/
theorem execute_limited_inside_character :
    let program : Program := ⟨[.str "aé", .str ""],
      [.loadConst 0, .print, .loadConst 1, .print, .halt]⟩
    let input := Source.ofBytes []
    let whole := execute program (.fresh input .unlimited)
    let full := execute program (.fresh input (.limited 3 "full"))
    let cut := execute program (.fresh input (.limited 2 "full"))
    whole.console.written = [0x61, 0xC3, 0xA9] ∧
      whole.SameButRoom full ∧
      ∃ calls m console i, program.Overflows input 2 calls m console i ∧
        cut.result = .error ⟨.stream "full", m.pc, some i, m.stack.depth⟩ ∧
        cut.machine = m ∧ cut.console.written = [0x61, 0xC3] ∧
        cut.console.input = console.input := by
  intro program input whole full cut
  have written : whole.console.written = [0x61, 0xC3, 0xA9] := by decide
  have fits : whole.console.written.length ≤ 3 := by rw [written]; decide
  have past : 2 < whole.console.written.length := by rw [written]; decide
  obtain ⟨same, -⟩ := execute_limited program input 3 "full"
  obtain ⟨-, cuts⟩ := execute_limited program input 2 "full"
  obtain ⟨calls, m, console, i, overflows, result, machine, half, rest⟩ := cuts past
  have halfWritten : cut.console.written = [0x61, 0xC3] :=
    half.trans (congrArg (List.take 2) written)
  exact ⟨written, same fits, calls, m, console, i, overflows, result, machine,
    halfWritten, rest⟩

end Bytecode
