import Bytecode.Proofs.LineReading

/-!
When the output is flushed.

What a step adds to the record of the streams is one of the rounds of
`Event.Round`, and the only round with a read in it starts with a flush that
succeeded. So every read of a run comes right after a flush. A read whose flush
fails is not made, and ends the run.

An execution that succeeds ends with the flush of its `halt`, and one that fails
with the flush after the fault. Nothing that was written stays behind, unless that
last flush fails, and what it comes to has no part in what is reported.
-/

namespace Bytecode

namespace Event

variable {events added : List Event} {e : Event}

/-- An attempt to flush the output. -/
def AttemptsFlush : Event → Prop
  | flush | failedFlush => True
  | write _ | read => False

/-- Every read comes right after a flush that succeeded. -/
def Prompted (events : List Event) : Prop :=
  ∀ before after, events = before ++ .read :: after →
    ∃ earlier, before = earlier ++ [.flush]

/-- Every write comes before an attempt to flush. -/
def Settled (events : List Event) : Prop :=
  ∀ before bytes after, events = before ++ .write bytes :: after →
    ∃ e ∈ after, e.AttemptsFlush

/-- What a step adds to the record. -/
inductive Round : List Event → Prop
  | quiet : Round []
  | write (bytes : Bytes) : Round [.write bytes]
  | flush : Round [.flush]
  | failedFlush : Round [.failedFlush]
  | prompt : Round [.flush, .read]

/-! ## Records -/

theorem prompted_nil : Prompted [] := by
  intro before after split
  cases before <;> cases split

/-- An event of a longer record is the new one, or was there before. -/
theorem split_concat {x : Event} {before after : List Event}
    (split : events ++ [e] = before ++ x :: after) :
    (before = events ∧ x = e) ∨
      ∃ rest, after = rest ++ [e] ∧ events = before ++ x :: rest := by
  rcases List.eq_nil_or_concat after with rfl | ⟨rest, last, rfl⟩
  · obtain ⟨rfl, same⟩ := List.append_inj' split rfl
    exact .inl ⟨rfl, (List.cons.inj same).1.symm⟩
  · rw [List.concat_eq_append] at split ⊢
    rw [← List.cons_append, ← List.append_assoc] at split
    obtain ⟨eventsEq, same⟩ := List.append_inj' split rfl
    rw [(List.cons.inj same).1]
    exact .inr ⟨rest, rfl, eventsEq⟩

/-- The last event counts only if it is a read. -/
theorem Prompted.concat (prompted : Prompted events)
    (flushed : e = .read → ∃ earlier, events = earlier ++ [.flush]) :
    Prompted (events ++ [e]) := by
  intro before after split
  rcases split_concat split with ⟨rfl, isRead⟩ | ⟨rest, -, eventsEq⟩
  · exact flushed isRead.symm
  · exact prompted before rest eventsEq

theorem Prompted.append (prompted : Prompted events) (round : Round added) :
    Prompted (events ++ added) := by
  cases round with
  | quiet => rwa [List.append_nil]
  | write bytes => exact prompted.concat nofun
  | flush => exact prompted.concat nofun
  | failedFlush => exact prompted.concat nofun
  | prompt =>
    have flushed : Prompted (events ++ [.flush]) := prompted.concat nofun
    rw [List.append_cons]
    exact flushed.concat fun _ => ⟨events, rfl⟩

/-- A record that ends with an attempt to flush leaves no write behind. -/
theorem settled_concat (events : List Event) (last : e.AttemptsFlush) :
    Settled (events ++ [e]) := by
  intro before bytes after split
  rcases split_concat split with ⟨-, rfl⟩ | ⟨rest, rfl, -⟩
  · exact last.elim
  · exact ⟨e, List.mem_concat_self, last⟩

end Event

/-! ## Steps -/

namespace Console

theorem round_write (bytes : Bytes) (console : Console) :
    ∃ added, Event.Round added ∧
      (console.write bytes).2.events = console.events ++ added := by
  unfold write
  dsimp only
  split
  · exact ⟨[], .quiet, (List.append_nil _).symm⟩
  · exact ⟨_, .write _, rfl⟩

/-- A flush is recorded as what it came to. -/
theorem events_flush (console : Console) :
    (console.flush.1 = .ok () ∧
      console.flush.2.events = console.events ++ [.flush]) ∨
    ∃ reason, console.flush.1 = .error reason ∧
      console.flush.2.events = console.events ++ [.failedFlush] := by
  unfold flush
  rcases console.output.flush with ⟨result, output⟩
  cases result with
  | ok _ => exact .inl ⟨rfl, rfl⟩
  | error reason => exact .inr ⟨reason, rfl, rfl⟩

theorem round_flush (console : Console) :
    ∃ added, Event.Round added ∧
      console.flush.2.events = console.events ++ added := by
  rcases console.events_flush with ⟨-, events⟩ | ⟨_, -, events⟩
  · exact ⟨_, .flush, events⟩
  · exact ⟨_, .failedFlush, events⟩

theorem round_ask (console : Console) :
    ∃ added, Event.Round added ∧
      console.ask.2.events = console.events ++ added := by
  rw [ask_streams]
  rcases console.events_flush with ⟨succeeded, events⟩ | ⟨reason, failed, events⟩
  · rw [succeeded]
    dsimp only
    rw [readLine_streams]
    refine ⟨[.flush, .read], .prompt, ?_⟩
    change console.flush.2.events ++ [.read] = _
    rw [events, List.append_assoc]
    rfl
  · rw [failed]
    exact ⟨_, .failedFlush, events⟩

end Console

theorem Demand.round_meet (demand : Demand) (stack : Stack) (console : Console) :
    ∃ added, Event.Round added ∧
      (demand.meet stack console).console.events = console.events ++ added := by
  rw [meet_streams]
  cases demand with
  | quiet _ => exact ⟨[], .quiet, (List.append_nil _).symm⟩
  | output bytes => exact console.round_write bytes
  | input _ => exact console.round_ask
  | ending => exact console.round_flush

namespace Machine

variable {m : Machine} {console : Console}

theorem round_step (m : Machine) (console : Console) :
    ∃ added, Event.Round added ∧
      (m.step console).console.events = console.events ++ added := by
  rw [step_streams]
  split
  · exact Demand.round_meet _ _ _
  · exact ⟨[], .quiet, (List.append_nil _).symm⟩

/-- A read whose flush fails is not made: the step fails with the reason of the
flush, and leaves the machine and the input alone. -/
theorem step_refused {i : Instruction} {reason : String}
    (attempted : m.attempted? = some i) (reads : i.reads = true)
    (refused : console.output.flush.1 = .error reason) :
    (m.step console).result = .error (m.fault (.stream reason) (some i)) ∧
      (m.step console).machine = m ∧
      (m.step console).console.input = console.input ∧
      (m.step console).console.events = console.events ++ [.failedFlush] := by
  have asked : console.ask = (.error (.stream reason),
      { console with
        output := console.output.flush.2
        events := console.events ++ [.failedFlush] }) := by
    unfold Console.ask Console.flush
    generalize console.output.flush = answer at refused
    rcases answer with ⟨result, output⟩
    cases refused
    rfl
  rw [step_attempted attempted]
  cases i with
  | readInt | readString =>
    unfold Instruction.demand Demand.meet
    dsimp only
    rw [asked]
    exact ⟨rfl, rfl, rfl, rfl⟩
  | halt | loadConst _ | pop | drop | print | newline | storeIndexed | pushBool
  | binary _ | unknown _ => cases reads

/-! ## Runs -/

theorem prompted_run (m : Machine) (console : Console)
    (prompted : Event.Prompted console.events) :
    Event.Prompted (m.run console).console.events := by
  induction m, console using run_induction with
  | stops m console stopping =>
    obtain ⟨added, round, events⟩ := m.round_step console
    have after := prompted.append round
    rw [← events] at after
    rw [run_of_stopping stopping]
    exact after
  | goesOn m console running ih =>
    obtain ⟨added, round, events⟩ := m.round_step console
    have after := prompted.append round
    rw [← events] at after
    rw [run_of_running running]
    exact ih after

/-- A program that runs to its end has flushed the output last. -/
theorem Ran.flushed {o : Outcome Unit} (ran : Ran m console o)
    (notEnded : m.halted = false) (succeeded : o.result = .ok ()) :
    ∃ earlier, o.console.events = earlier ++ [.flush] := by
  induction ran with
  | ended ended =>
    rw [notEnded] at ended
    cases ended
  | outside _ _ | failed _ _ _ => cases succeeded
  | @halts m console console' _ _ effect =>
    have flushed := console.events_flush
    unfold Instruction.execute at effect
    dsimp only at effect
    generalize console.flush = answer at flushed effect
    rcases answer with ⟨result, console''⟩
    rcases flushed with ⟨ok, events⟩ | ⟨reason, error, -⟩
    · cases ok
      cases effect
      exact ⟨_, events⟩
    · cases error
      cases effect
  | goesOn _ _ _ _ _ ih => exact ih rfl succeeded

end Machine

/-! ## Executions -/

theorem Console.attempts_flush (console : Console) :
    ∃ last, last.AttemptsFlush ∧
      console.flush.2.events = console.events ++ [last] := by
  rcases console.events_flush with ⟨-, events⟩ | ⟨_, -, events⟩
  · exact ⟨.flush, trivial, events⟩
  · exact ⟨.failedFlush, trivial, events⟩

/-- After a fault, an execution goes on to flush the output. -/
theorem console_of_fault {program : Program} {console : Console} {fault : Fault}
    (failed : ((Machine.start program).run console).result = .error fault) :
    (execute program console).console =
      ((Machine.start program).run console).console.flush.2 := by
  unfold execute
  generalize (Machine.start program).run console = run at failed
  rcases run with ⟨result, machine, console', log⟩
  cases failed
  dsimp only
  rcases console'.flush with ⟨result, console''⟩
  cases result <;> rfl

theorem events_of_fault {program : Program} {console : Console} {fault : Fault}
    (failed : ((Machine.start program).run console).result = .error fault) :
    ∃ last, last.AttemptsFlush ∧ (execute program console).console.events =
      ((Machine.start program).run console).console.events ++ [last] := by
  rw [console_of_fault failed]
  exact Console.attempts_flush _

theorem console_of_ok {program : Program} {console : Console}
    (succeeded : ((Machine.start program).run console).result = .ok ()) :
    (execute program console).console =
      ((Machine.start program).run console).console := by
  unfold execute
  generalize (Machine.start program).run console = run at succeeded
  rcases run with ⟨result, machine, console', log⟩
  cases succeeded
  rfl

/-- The output of an execution is flushed whenever it has to be. -/
structure Program.FlushesInTime (program : Program) (console : Console) : Prop where
  /-- No line is read before the output has been flushed. -/
  prompted : Event.Prompted (execute program console).console.events
  /-- If that flush fails the line is not read, and the execution ends. -/
  refused : ∀ calls m streams i reason,
    Machine.Leads calls (Machine.start program) console m streams →
    m.attempted? = some i → i.reads = true →
    streams.output.flush.1 = .error reason →
      (execute program console).result = .error (m.fault (.stream reason) (some i)) ∧
      (execute program console).console.input = streams.input ∧
      ∃ last, last.AttemptsFlush ∧ (execute program console).console.events =
        streams.events ++ [.failedFlush, last]
  /-- Nothing is written after the last attempt to flush. -/
  settled : Event.Settled (execute program console).console.events
  /-- If the execution succeeds, the last flush has succeeded too. -/
  succeeded : (execute program console).result = .ok () →
    ∃ earlier, (execute program console).console.events = earlier ++ [.flush]
  /-- If it fails, an attempt to flush comes last. -/
  failed : ∀ fault, (execute program console).result = .error fault →
    ∃ earlier last, last.AttemptsFlush ∧
      (execute program console).console.events = earlier ++ [last]
  /-- What the last flush comes to changes nothing that is reported. -/
  reported : (execute program console).result =
      ((Machine.start program).run console).result ∧
    (execute program console).machine =
      ((Machine.start program).run console).machine

/-- A read whose flush fails is the last thing that an execution attempts. -/
theorem Machine.Leads.refused {program : Program} {console streams : Console}
    {calls : Nat} {m : Machine} {i : Instruction} {reason : String}
    (leads : Leads calls (Machine.start program) console m streams)
    (attempted : m.attempted? = some i) (reads : i.reads = true)
    (refused : streams.output.flush.1 = .error reason) :
    let run := (Machine.start program).run console
    run.result = .error (m.fault (.stream reason) (some i)) ∧
      run.console.input = streams.input ∧
      run.console.events = streams.events ++ [.failedFlush] := by
  intro run
  obtain ⟨result, -, input, events⟩ := step_refused attempted reads refused
  have stopping : (m.step streams).result ≠ .ok .running := by
    rw [result]
    nofun
  obtain ⟨log, whole⟩ := leads.run
  have runEq : run = _ := whole
  rw [runEq, run_of_stopping stopping]
  refine ⟨?_, input, events⟩
  unfold Outcome.last
  rw [result]
  rfl

/-- The record of an execution ends with an attempt to flush, and with a flush if
the execution succeeds. -/
theorem execute_last (program : Program) (console : Console) :
    ∃ earlier last, last.AttemptsFlush ∧
      (execute program console).console.events = earlier ++ [last] ∧
        ((execute program console).result = .ok () → last = .flush) := by
  have reported := (execute_reports program console).1
  cases result : ((Machine.start program).run console).result with
  | ok _ =>
    obtain ⟨earlier, events⟩ :=
      ((Machine.start program).run_ran console).flushed rfl result
    rw [console_of_ok result]
    exact ⟨earlier, .flush, trivial, events, fun _ => rfl⟩
  | error fault =>
    obtain ⟨last, attempts, events⟩ := events_of_fault result
    refine ⟨_, last, attempts, events, fun succeeded => ?_⟩
    rw [reported, result] at succeeded
    cases succeeded

theorem execute_prompted (program : Program) (input : Source) (output : Sink) :
    Event.Prompted (execute program (.fresh input output)).console.events := by
  have prompted := (Machine.start program).prompted_run (.fresh input output)
    Event.prompted_nil
  cases result : ((Machine.start program).run (.fresh input output)).result with
  | ok _ => rwa [console_of_ok result]
  | error fault =>
    obtain ⟨last, attempts, events⟩ := events_of_fault result
    rw [events]
    refine prompted.concat fun isRead => ?_
    rw [isRead] at attempts
    exact attempts.elim

/-- Whatever the streams do, the output is flushed before every line that is read
and before an execution returns, and the flush after a fault does not change what
is reported. -/
theorem execute_flushesInTime (program : Program) (input : Source) (output : Sink) :
    program.FlushesInTime (.fresh input output) := by
  obtain ⟨earlier, last, attempts, events, flushed⟩ :=
    execute_last program (.fresh input output)
  have reported := execute_reports program (.fresh input output)
  constructor
  case prompted => exact execute_prompted program input output
  case refused =>
    intro calls m streams i reason leads attempted reads refused
    obtain ⟨result, inputLeft, runEvents⟩ := leads.refused attempted reads refused
    obtain ⟨final, finalAttempts, finalEvents⟩ := events_of_fault result
    refine ⟨reported.1.trans result,
      (execute_streams program (.fresh input output)).2.trans inputLeft,
      final, finalAttempts, ?_⟩
    rw [finalEvents, runEvents, List.append_assoc]
    rfl
  case settled =>
    rw [events]
    exact Event.settled_concat earlier attempts
  case succeeded =>
    intro succeeded
    rw [flushed succeeded] at events
    exact ⟨earlier, events⟩
  case failed => exact fun _ _ => ⟨earlier, last, attempts, events⟩
  case reported => exact reported

/-- A question is written, and the output cannot be flushed for the answer, though it
can be flushed afterwards. -/
theorem execute_flushesInTime_refused :
    let program : Program := ⟨[.str "?"], [.loadConst 0, .print, .readInt, .halt]⟩
    let console := Console.fresh (.ofBytes [0x37, 0x0A]) ⟨none, ⟨[some "shut"], none⟩⟩
    (execute program console).result =
        .error ⟨.stream "shut", 2, some .readInt, 1⟩ ∧
      (execute program console).console.input = .ofBytes [0x37, 0x0A] ∧
      ∃ last, last.AttemptsFlush ∧ (execute program console).console.events =
        [.write [0x3F], .failedFlush, last] := by
  intro program console
  have leads : Machine.Leads 2 (Machine.start program) console
      ⟨program, [.str "?"], 2, 2, false⟩
      { console with events := [.write [0x3F]] } :=
    .step rfl (.step rfl .here)
  have inTime : program.FlushesInTime console :=
    execute_flushesInTime program (.ofBytes [0x37, 0x0A]) ⟨none, ⟨[some "shut"], none⟩⟩
  exact inTime.refused 2 _ _ .readInt "shut" leads rfl rfl rfl

end Bytecode
