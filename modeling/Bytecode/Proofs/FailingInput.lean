import Bytecode.Proofs.Flushing
import Bytecode.Proofs.Resumption

/-!
Inputs that fail instead of ending.

An input that fails after its last byte is compared with one that ends there.
`Console.failing` translates the streams of the second into those of the first at
the same place of a run. A read that finds a line end does not get to the end of the
input, so the steps of the two runs correspond up to the first read that finds none
(`Program.RunsDry`). There the failing input fails, whatever the bytes that are left
would have been worth as a last line.
-/

namespace Bytecode

/-! ## Streams with another ending -/

namespace Source

/-- The source with a failure after its last byte. -/
def failing (reason : String) (source : Source) : Source :=
  { source with ending := .failing reason }

/-- A line with a line end does not depend on what comes after the last byte. -/
theorem takeLine_failing {source : Source} (member : lineEnd ∈ source.bytes)
    (reason : String) :
    (source.failing reason).takeLine =
      (source.takeLine.1, source.takeLine.2.failing reason) := by
  rcases source with ⟨bytes, ending⟩
  obtain ⟨before, after, rfl, absent⟩ := List.eq_append_cons_of_mem member
  have cut : Bytes.cut? lineEnd (before ++ lineEnd :: after) = some (before, after) :=
    Bytes.cut?_eq_some_iff.2 ⟨rfl, absent⟩
  unfold takeLine failing
  dsimp only
  rw [cut]

/-- Without a line end everything is used up, and lost. -/
theorem takeLine_failing_unended {source : Source} (absent : lineEnd ∉ source.bytes)
    (reason : String) :
    (source.failing reason).takeLine = (.error (.failing reason), ⟨[], .failing reason⟩) := by
  unfold takeLine failing
  dsimp only
  rw [Bytes.cut?_eq_none_iff.2 absent]
  rfl

end Source

namespace Console

variable {console : Console}

/-- The streams with an input that fails after its last byte. -/
def failing (reason : String) (console : Console) : Console :=
  { console with input := console.input.failing reason }

theorem flush_failing (reason : String) (console : Console) :
    (console.failing reason).flush =
      (console.flush.1, console.flush.2.failing reason) :=
  rfl

theorem write_failing (reason : String) (bytes : Bytes) (console : Console) :
    (console.failing reason).write bytes =
      ((console.write bytes).1, (console.write bytes).2.failing reason) :=
  rfl

theorem readLine_failing (member : Source.lineEnd ∈ console.input.bytes)
    (reason : String) :
    (console.failing reason).readLine =
      (console.readLine.1, console.readLine.2.failing reason) := by
  unfold readLine failing
  dsimp only
  rw [Source.takeLine_failing member]
  rcases console.input.takeLine with ⟨result, input⟩
  cases result with
  | error ending => rfl
  | ok bytes =>
    dsimp only
    cases Utf8.decode? bytes <;> rfl

theorem ask_failing (member : Source.lineEnd ∈ console.input.bytes) (reason : String) :
    (console.failing reason).ask = (console.ask.1, console.ask.2.failing reason) := by
  apply ask_through (console.flush_failing reason)
  intro _
  rw [← console.flush_keeps.2] at member
  exact readLine_failing member reason

theorem ask_failing_unended (absent : Source.lineEnd ∉ console.input.bytes)
    (steady : console.output.flushes = .steady) (reason : String) :
    (console.failing reason).ask =
      (.error (.stream reason),
        ⟨⟨[], .failing reason⟩, console.output, console.events ++ [.flush, .read]⟩) := by
  have flushed : (console.failing reason).flush = _ := flush_steady steady
  unfold ask
  rw [flushed]
  unfold readLine failing
  dsimp only
  rw [Source.takeLine_failing_unended absent, List.append_assoc]
  rfl

end Console

/-! ## Steps -/

namespace Machine

variable {m m' : Machine} {console console' : Console} {i : Instruction}
  {reason : String} {calls : Nat}

/-- The next step asks for a line, and finds no line end in what is left. -/
structure Starves (m : Machine) (console : Console) (i : Instruction) : Prop where
  attempted : m.attempted? = some i
  reads : i.reads = true
  absent : Source.lineEnd ∉ console.input.bytes

/-- A step that finds the line end it asks for is the same with either ending. -/
theorem step_failing (supplied : ∀ i, ¬ m.Starves console i) (reason : String) :
    m.step (console.failing reason) = (m.step console).through (.failing reason) := by
  apply step_through
  intro i attempted
  apply Demand.meet_through
  · exact fun bytes _ => console.write_failing reason bytes
  · intro use demanded
    apply Console.ask_failing
    cases reads : i.reads with
    | true =>
      exact Decidable.byContradiction fun absent =>
        supplied i ⟨attempted, reads, absent⟩
    | false => exact absurd demanded (Instruction.demand_ne_input reads _ _ use)
  · exact fun _ => console.flush_failing reason

/-- A step that finds none fails with the input, and leaves the machine alone. -/
theorem Starves.step_failing (starves : m.Starves console i)
    (steady : console.output.flushes = .steady) (reason : String) :
    m.step (console.failing reason) =
      ⟨.error (m.fault (.stream reason) (some i)), m,
        ⟨⟨[], .failing reason⟩, console.output, console.events ++ [.flush, .read]⟩,
        [m.record i]⟩ := by
  have asked := Console.ask_failing_unended starves.absent steady reason
  have reads := starves.reads
  rw [step_attempted starves.attempted]
  cases i with
  | readInt | readString =>
    unfold Instruction.demand Demand.meet
    dsimp only
    rw [asked]
    rfl
  | halt | loadConst _ | pop | drop | print | newline | storeIndexed | pushBool
  | binary _ | unknown _ => cases reads

/-! ## Runs -/

/-- The first so many steps of a run find every line end that they ask for. -/
def Supplied (calls : Nat) (m : Machine) (console : Console) : Prop :=
  ∀ k < calls, ∀ m' console', Leads k m console m' console' →
    ∀ i, ¬ m'.Starves console' i

theorem Supplied.first (supplied : Supplied (calls + 1) m console) (i : Instruction) :
    ¬ m.Starves console i :=
  supplied 0 (Nat.succ_pos calls) m console .here i

theorem Supplied.next (supplied : Supplied (calls + 1) m console)
    (running : (m.step console).result = .ok .running) :
    Supplied calls (m.step console).machine (m.step console).console :=
  fun k before m' console' leads =>
    supplied (k + 1) (Nat.succ_lt_succ before) m' console' (.step running leads)

/-- As long as nothing is missing, the two runs go through the same places. -/
theorem Supplied.leads_failing_iff (supplied : Supplied calls m console)
    {streams : Console} :
    Leads calls m (console.failing reason) m' streams ↔
      ∃ console', Leads calls m console m' console' ∧
        streams = console'.failing reason := by
  induction calls generalizing m console with
  | zero =>
    constructor
    · intro leads
      cases leads
      exact ⟨console, .here, rfl⟩
    · rintro ⟨console', leads, rfl⟩
      cases leads
      exact .here
  | succ calls ih =>
    have same := step_failing supplied.first reason
    constructor
    · intro leads
      cases leads with
      | step running rest =>
        rw [same] at running rest
        obtain ⟨console', leads, there⟩ := (ih (supplied.next running)).1 rest
        exact ⟨console', .step running leads, there⟩
    · rintro ⟨console', leads, there⟩
      cases leads with
      | step running rest =>
        refine .step ?_ ?_
        · rw [same]
          exact running
        · rw [same]
          exact (ih (supplied.next running)).2 ⟨console', rest, there⟩

/-- If nothing is ever missing, the two runs are the same. -/
theorem run_failing (supplied : ∀ calls, Supplied calls m console) (reason : String) :
    m.run (console.failing reason) = (m.run console).through (.failing reason) := by
  rcases @lockstep (.failing reason) (fun _ => True) (fun _ _ _ _ => trivial) m console
    trivial with ⟨same, -⟩ | ⟨calls, m', console', leads, -, -, parts⟩
  · exact same
  · have missingNothing := supplied (calls + 1) calls (Nat.lt_succ_self calls) m' console' leads
    exact absurd (step_failing missingNothing reason) parts

end Machine

/-! ## Executions -/

/-- The first read of an execution that finds no line end, and the place where it
is attempted. -/
structure Program.RunsDry (program : Program) (streams : Console) (calls : Nat)
    (m : Machine) (console : Console) (i : Instruction) : Prop where
  leads : Machine.Leads calls (Machine.start program) streams m console
  starves : m.Starves console i
  first : Machine.Supplied calls (Machine.start program) streams

/-- Where no read is the first that finds no line end, all find one. -/
theorem Program.supplied_of_not_runsDry {program : Program} {streams : Console}
    (never : ∀ calls m console i, ¬ program.RunsDry streams calls m console i)
    (calls : Nat) : Machine.Supplied calls (Machine.start program) streams := by
  induction calls with
  | zero => exact fun k before => absurd before (Nat.not_lt_zero k)
  | succ calls ih =>
    intro k before m console leads i starves
    rcases Nat.lt_succ_iff_lt_or_eq.1 before with earlier | rfl
    · exact ih k earlier m console leads i starves
    · exact never k m console i ⟨leads, starves, ih⟩

/-- Where the runs correspond, so do the executions. -/
theorem execute_failing {program : Program} {console : Console} {reason : String}
    (same : (Machine.start program).run (console.failing reason) =
      ((Machine.start program).run console).through (.failing reason)) :
    execute program (console.failing reason) =
      (execute program console).through (.failing reason) := by
  unfold execute
  rw [same]
  rcases (Machine.start program).run console with ⟨result, machine, console', log⟩
  cases result with
  | ok _ => rfl
  | error fault =>
    dsimp only [Outcome.through]
    rw [Console.flush_failing]
    rcases console'.flush with ⟨flushed, console''⟩
    cases flushed <;> rfl

/-- A run that gets to such a read with a failing input ends there. -/
theorem Program.RunsDry.run_failing {program : Program} {streams console : Console}
    {calls : Nat} {m : Machine} {i : Instruction}
    (dry : program.RunsDry streams calls m console i)
    (steady : streams.output.flushes = .steady) (reason : String) :
    let run := (Machine.start program).run (streams.failing reason)
    run.result = .error (m.fault (.stream reason) (some i)) ∧
      run.machine = m ∧
      run.console =
        ⟨⟨[], .failing reason⟩, console.output, console.events ++ [.flush, .read]⟩ := by
  intro run
  have leads : Machine.Leads calls (Machine.start program) (streams.failing reason) m
      (console.failing reason) :=
    dry.first.leads_failing_iff.2 ⟨console, dry.leads, rfl⟩
  have last := dry.starves.step_failing (dry.leads.steady steady) reason
  have stopping : (m.step (console.failing reason)).result ≠ .ok .running := by
    rw [last]
    nofun
  obtain ⟨log, whole⟩ := leads.run
  have runEq : run = _ := whole
  rw [runEq, Machine.run_of_stopping stopping, last]
  exact ⟨rfl, rfl, rfl⟩

theorem Program.RunsDry.execute_failing {program : Program}
    {streams console : Console} {calls : Nat} {m : Machine} {i : Instruction}
    (dry : program.RunsDry streams calls m console i)
    (steady : streams.output.flushes = .steady) (reason : String) :
    let cut := execute program (streams.failing reason)
    cut.result = .error (m.fault (.stream reason) (some i)) ∧
      cut.machine = m ∧
      cut.console =
        ⟨⟨[], .failing reason⟩, console.output,
          console.events ++ [.flush, .read, .flush]⟩ := by
  intro cut
  obtain ⟨result, machine, left⟩ := dry.run_failing steady reason
  obtain ⟨sameResult, sameMachine⟩ := execute_reports program (streams.failing reason)
  refine ⟨sameResult.trans result, sameMachine.trans machine, ?_⟩
  have cutStreams : cut.console = _ := console_of_fault result
  have steadyThere : console.output.flushes = .steady := dry.leads.steady steady
  rw [cutStreams, left, Console.flush_steady]
  · rw [List.append_assoc]
    rfl
  · exact steadyThere

/-- An execution whose input fails after its last byte, compared with one whose
input ends there. As long as every read finds a line end, the two go through the same
places; the first read that finds none fails with the input, which has lost all that
was left of it, and the machine is as it was before that read; and if there is no
such read, the two executions are the same. -/
theorem execute_failing_input (program : Program) (bytes : Bytes)
    (room : Option Limit) (reason : String) :
    let start := Machine.start program
    let ends := Console.fresh ⟨bytes, .closed⟩ ⟨room, .steady⟩
    let fails := Console.fresh ⟨bytes, .failing reason⟩ ⟨room, .steady⟩
    (∀ calls, Machine.Supplied calls start ends → ∀ m streams,
      Machine.Leads calls start fails m streams ↔
        ∃ console, Machine.Leads calls start ends m console ∧
          streams = console.failing reason) ∧
    (∀ calls m console i, program.RunsDry ends calls m console i →
      let cut := execute program fails
      cut.result = .error ⟨.stream reason, m.pc, some i, m.stack.depth⟩ ∧
        cut.machine = m ∧
        cut.console =
          ⟨⟨[], .failing reason⟩, console.output,
            console.events ++ [.flush, .read, .flush]⟩) ∧
    ((∀ calls m console i, ¬ program.RunsDry ends calls m console i) →
      execute program fails = (execute program ends).through (.failing reason)) := by
  intro start ends fails
  refine ⟨fun calls supplied m streams => ?_, fun calls m console i dry => ?_,
    fun never => ?_⟩
  · exact supplied.leads_failing_iff
  · exact dry.execute_failing rfl reason
  · exact execute_failing
      (Machine.run_failing (Program.supplied_of_not_runsDry never) reason)

/-- Two lines are asked for and only the first has its line end. What is left would
be a number if the input ended there, and is lost when it fails. -/
theorem execute_failing_input_number :
    let program : Program := ⟨[], [.readString, .print, .readInt, .halt]⟩
    let bytes : Bytes := [0x61, 0x0A, 0x37]
    let ends := Console.fresh ⟨bytes, .closed⟩ .unlimited
    let fails := Console.fresh ⟨bytes, .failing "gone"⟩ .unlimited
    let m : Machine := ⟨program, [.str "a"], 2, 2, false⟩
    let events : List Event := [.flush, .read, .write [0x61]]
    (execute program ends).result = .ok () ∧
      (execute program ends).machine.stack = [.int 7, .str "a"] ∧
      program.RunsDry ends 2 m ⟨⟨[0x37], .closed⟩, .unlimited, events⟩ .readInt ∧
      (execute program fails).result = .error ⟨.stream "gone", 2, some .readInt, 1⟩ ∧
      (execute program fails).machine = m ∧
      (execute program fails).console =
        ⟨⟨[], .failing "gone"⟩, .unlimited, events ++ [.flush, .read, .flush]⟩ := by
  intro program bytes ends fails m events
  have leads : Machine.Leads 2 (Machine.start program) ends m
      ⟨⟨[0x37], .closed⟩, .unlimited, events⟩ :=
    .step rfl (.step rfl .here)
  have supplied : Machine.Supplied 2 (Machine.start program) ends := by
    intro k before m' console' there i starves
    have cases : k = 0 ∨ k = 1 := by omega
    rcases cases with rfl | rfl
    · cases there
      exact starves.absent (by decide)
    · cases there with
      | step _ rest =>
        cases rest
        cases starves.attempted
        cases starves.reads
  have dry : program.RunsDry ends 2 m ⟨⟨[0x37], .closed⟩, .unlimited, events⟩ .readInt :=
    ⟨leads, ⟨rfl, rfl, by decide⟩, supplied⟩
  obtain ⟨-, cuts, -⟩ := execute_failing_input program bytes none "gone"
  obtain ⟨result, machine, streams⟩ := cuts 2 m _ .readInt dry
  exact ⟨rfl, by decide, dry, result, machine, streams⟩

end Bytecode
