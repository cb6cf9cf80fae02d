import Bytecode.Proofs.FailedSteps
import Bytecode.Proofs.LineReading

/-!
Runs that stop for lack of input and are taken up again.

As long as the input holds whole lines only, more input behind them does not change
what a step does, except at a read that finds nothing left. Such a read leaves the
machine where it is and the streams as they were, but for a flush and a read in
their record, and no step looks at that record. So a run that stopped there and goes
on with more input gets to where a run that had all the input from the start gets
to: `Outcome.AlikeButRecord`.
-/

namespace Bytecode

/-! ## More input -/

namespace Source

variable {source : Source}

/-- A closed source whose last line, if there is one, has its line end. -/
structure Lined (source : Source) : Prop where
  closed : source.ending = .closed
  ended : ∀ b, source.bytes.getLast? = some b → b = lineEnd

theorem Lined.mem_lineEnd (lined : source.Lined) (some : source.bytes ≠ []) :
    lineEnd ∈ source.bytes := by
  have last := List.getLast?_eq_some_getLast some
  rw [← lined.ended _ last]
  exact List.getLast_mem some

theorem lined_nil : Lined (.ofBytes []) where
  closed := rfl
  ended := nofun

/-- Whatever is read from such a source, what is left is such a source. -/
theorem Lined.takeLine (lined : source.Lined) : source.takeLine.2.Lined := by
  have drained : source.drained = .ofBytes [] := by
    unfold Source.drained
    rw [lined.closed]
    rfl
  unfold Source.takeLine
  split
  · next before after cut =>
    refine ⟨lined.closed, fun b last => lined.ended b ?_⟩
    rw [(Bytes.cut?_eq_some_iff.1 cut).1, List.append_cons, List.getLast?_append]
    change after.getLast? = some b at last
    rw [last]
    rfl
  · rw [drained]
    split
    · exact lined_nil
    · exact lined_nil
    · exact lined_nil

/-- More input behind a line end does not change the next line. -/
theorem takeLine_feed (member : lineEnd ∈ source.bytes) (more : Bytes) :
    (source.feed more).takeLine =
      (source.takeLine.1, source.takeLine.2.feed more) := by
  rcases source with ⟨bytes, ending⟩
  obtain ⟨before, after, rfl, absent⟩ := List.eq_append_cons_of_mem member
  have cut : Bytes.cut? lineEnd (before ++ lineEnd :: after) = some (before, after) :=
    Bytes.cut?_eq_some_iff.2 ⟨rfl, absent⟩
  have cutMore : Bytes.cut? lineEnd (before ++ lineEnd :: after ++ more) =
      some (before, after ++ more) :=
    Bytes.cut?_eq_some_iff.2 ⟨List.append_assoc _ _ _, absent⟩
  unfold takeLine feed
  dsimp only
  rw [cut, cutMore]

end Source

namespace Console

variable {console : Console}

/-- The streams with more input behind what there is. -/
def feed (more : Bytes) (console : Console) : Console :=
  { console with input := console.input.feed more }

theorem flush_feed (more : Bytes) (console : Console) :
    (console.feed more).flush = (console.flush.1, console.flush.2.feed more) :=
  rfl

theorem write_feed (more bytes : Bytes) (console : Console) :
    (console.feed more).write bytes =
      ((console.write bytes).1, (console.write bytes).2.feed more) :=
  rfl

theorem readLine_feed (member : Source.lineEnd ∈ console.input.bytes)
    (more : Bytes) :
    (console.feed more).readLine =
      (console.readLine.1, console.readLine.2.feed more) := by
  unfold readLine feed
  dsimp only
  rw [Source.takeLine_feed member]
  rcases console.input.takeLine with ⟨result, input⟩
  cases result with
  | error ending => rfl
  | ok bytes =>
    dsimp only
    cases Utf8.decode? bytes <;> rfl

theorem ask_feed (member : Source.lineEnd ∈ console.input.bytes) (more : Bytes) :
    (console.feed more).ask = (console.ask.1, console.ask.2.feed more) := by
  apply ask_through (console.flush_feed more)
  intro _
  rw [← console.flush_keeps.2] at member
  exact readLine_feed member more

/-- Nothing is got from an input in which nothing is left. -/
theorem ask_empty (empty : console.input.bytes = []) :
    ∃ trap console', console.ask = (.error trap, console') := by
  rw [← console.flush_keeps.2] at empty
  unfold ask
  generalize console.flush = answer at empty
  rcases answer with ⟨result, input, output, events⟩
  cases result with
  | error reason => exact ⟨_, _, rfl⟩
  | ok _ =>
    rcases input with ⟨bytes, ending⟩
    cases empty
    cases ending with
    | closed | failing _ | paused _ _ => exact ⟨_, _, rfl⟩

theorem lined_ask (lined : console.input.Lined) : console.ask.2.input.Lined := by
  rw [← console.flush_keeps.2] at lined
  rw [ask_streams]
  split
  · rw [readLine_streams]
    exact lined.takeLine
  · exact lined

end Console

/-! ## Steps -/

theorem Demand.lined_meet {console : Console} (demand : Demand) (stack : Stack)
    (lined : console.input.Lined) :
    (demand.meet stack console).console.input.Lined := by
  cases demand with
  | quiet _ | output _ | ending =>
    rw [Demand.input_meet fun _ same => by cases same]
    exact lined
  | input use =>
    rw [meet_streams]
    exact Console.lined_ask lined

/-- Only a read can fail for lack of input. -/
theorem Demand.ask_of_endOfInput {demand : Demand} {stack after : Stack}
    {console console' : Console}
    (failed : demand.meet stack console = .failed .endOfInput after console') :
    demand = .quiet (.error .endOfInput) ∨
      console.ask = (.error .endOfInput, console') := by
  cases demand with
  | quiet result =>
    cases result with
    | ok left => cases failed
    | error trap =>
      cases failed
      exact .inl rfl
  | output bytes =>
    unfold meet Effect.write at failed
    dsimp only at failed
    split at failed
    · cases failed
    · cases failed
  | input use =>
    unfold meet at failed
    dsimp only at failed
    split at failed
    · next asked =>
      cases failed
      exact .inr asked
    · split at failed
      · cases failed
      · cases failed
  | ending =>
    unfold meet at failed
    dsimp only at failed
    split at failed
    · cases failed
    · cases failed

namespace Machine

variable {m m' : Machine} {console console' : Console}

theorem lined_step (m : Machine) (lined : console.input.Lined) :
    (m.step console).console.input.Lined := by
  rw [step_streams]
  split
  · exact Demand.lined_meet _ _ lined
  · exact lined

/-- More input makes no difference to a step after which the program goes on. -/
theorem step_feed (lined : console.input.Lined)
    (running : (m.step console).result = .ok .running) (more : Bytes) :
    m.step (console.feed more) = (m.step console).through (.feed more) := by
  apply step_through
  intro i attempted
  apply Demand.meet_through
  · exact fun bytes _ => console.write_feed more bytes
  · intro use demanded
    apply Console.ask_feed
    apply lined.mem_lineEnd
    intro empty
    obtain ⟨trap, console', failed⟩ := console.ask_empty empty
    rw [step_attempted attempted, demanded] at running
    unfold Demand.meet at running
    rw [failed] at running
    cases running
  · exact fun _ => console.flush_feed more

theorem Leads.feed {calls : Nat} (leads : Leads calls m console m' console')
    (lined : console.input.Lined) (more : Bytes) :
    Leads calls m (console.feed more) m' (console'.feed more) := by
  induction leads with
  | here => exact .here
  | @step calls m m' console console' running _ ih =>
    have same := step_feed lined running more
    have runningToo : (m.step (console.feed more)).result = .ok .running := by
      rw [same]
      exact running
    refine .step runningToo ?_
    rw [same]
    exact ih (m.lined_step lined)

theorem Leads.lined {calls : Nat} (leads : Leads calls m console m' console')
    (lined : console.input.Lined) : console'.input.Lined := by
  induction leads with
  | here => exact lined
  | step _ _ ih => exact ih (lined_step _ lined)

theorem Leads.steady {calls : Nat} (leads : Leads calls m console m' console')
    (steady : console.output.flushes = .steady) : console'.output.flushes = .steady := by
  induction leads with
  | here => exact steady
  | step _ _ ih => exact ih (steady_step _ steady)

/-- A step that fails for lack of input leaves the machine and the streams as they
were, but for the flush and the read in the record. -/
theorem step_endOfInput {fault : Fault}
    (failed : (m.step console).result = .error fault)
    (lacking : fault.trap = .endOfInput) (closed : console.input.ending = .closed)
    (steady : console.output.flushes = .steady) :
    (m.step console).machine = m ∧
      (m.step console).console =
        { console with events := console.events ++ [.flush, .read] } := by
  refine ⟨(step_failed failed).1, ?_⟩
  obtain ⟨running, ⟨missing, rfl⟩ | ⟨i, trap, console', found, effect, rfl⟩⟩ :=
    step_error failed
  · cases lacking
  · rw [(Stepped.failed running found effect).eq_step]
    change trap = .endOfInput at lacking
    subst lacking
    rw [i.execute_eq_meet] at effect
    rcases Demand.ask_of_endOfInput effect with demanded | asked
    · exact (Instruction.quiet_of_demand demanded).elim
    · have input : console.input = .ofBytes console.input.bytes := by
        rw [Source.ofBytes, ← closed]
      cases cut : console.input.bytes.lines with
      | nil =>
        rw [Bytes.lines_eq_nil_iff.1 cut] at input
        rw [Console.ask_nil steady input] at asked
        exact (congrArg Prod.snd asked).symm
      | cons line rest =>
        rw [Console.ask_line steady input cut] at asked
        have answer := congrArg Prod.fst asked
        unfold Console.lineAnswer at answer
        split at answer <;> cases answer

end Machine

/-! ## Runs -/

/-- Two outcomes that are the same but for the log and for the flushes and reads in
the record of the streams. -/
structure Outcome.AlikeButRecord (o o' : Outcome Unit) : Prop where
  result : o'.result = o.result
  machine : o'.machine = o.machine
  written : o'.console.written = o.console.written
  input : o'.console.input = o.console.input
  output : o'.console.output = o.console.output

/-- Flushes and reads in the record make no difference to what comes after. -/
theorem Machine.run_alikeButRecord (m : Machine) (input : Source) (output : Sink)
    (events events' : List Event)
    (same : events'.flatMap Event.written = events.flatMap Event.written) :
    (m.run ⟨input, output, events⟩).AlikeButRecord (m.run ⟨input, output, events'⟩) := by
  have recalled : ∀ past, m.run ⟨input, output, past⟩ =
      (m.run (.fresh input output)).through (.recalling past) := by
    intro past
    rw [← m.run_recalling]
    unfold Console.recalling Console.fresh
    rw [List.append_nil]
  rw [recalled events, recalled events']
  refine ⟨rfl, rfl, ?_, rfl, rfl⟩
  unfold Outcome.through
  rw [Console.written_recalling, Console.written_recalling, same]

/-- A run that failed for lack of input and is taken up again with more gets to
where a run with all the input from the start gets to. -/
theorem Machine.run_resumed {m : Machine} {console : Console} {fault : Fault}
    (lined : console.input.Lined) (steady : console.output.flushes = .steady)
    (failed : (m.run console).result = .error fault)
    (lacking : fault.trap = .endOfInput) (more : Bytes) :
    (m.run (console.feed more)).AlikeButRecord
      ((m.run console).machine.run ((m.run console).console.feed more)) := by
  obtain ⟨_, -, _, m', console', -, leads, -, result, machine, streams⟩ :=
    m.exists_runsIn console
  have last : (m'.step console').result = .error fault := by
    rw [failed] at result
    cases stepResult : (m'.step console').result with
    | ok progress =>
      unfold Outcome.last at result
      rw [stepResult] at result
      cases result
    | error other =>
      unfold Outcome.last at result
      rw [stepResult] at result
      cases result
      rfl
  obtain ⟨stays, marked⟩ := step_endOfInput last lacking
    (leads.lined lined).closed (leads.steady steady)
  obtain ⟨log, whole⟩ := (leads.feed lined more).run
  rw [machine, streams, stays, marked, whole]
  have alike := m'.run_alikeButRecord (console'.input.feed more) console'.output
    console'.events (console'.events ++ [.flush, .read]) (by simp [Event.written])
  exact ⟨alike.result, alike.machine, alike.written, alike.input, alike.output⟩

namespace Rig

/-- A program that is run on whole lines and fails for lack of input can be run on
with more: it ends as if all the input had been there from the start, with the same
machine, the same bytes written and the same input left. -/
theorem resumed_alike (program : Program) (bytes more : Bytes) (room : Option Limit)
    (fault : Fault) (lined : bytes = [] ∨ bytes.getLast? = some Source.lineEnd)
    (failed : ((Machine.start program).run
      (.fresh (.ofBytes bytes) ⟨room, .steady⟩)).result = .error fault)
    (lacking : fault.trap = .endOfInput) :
    let rig := Rig.mk (Machine.start program) (.fresh (.ofBytes bytes) ⟨room, .steady⟩)
      |>.after [.run, .feed more]
    ((Machine.start program).run
      (.fresh (.ofBytes (bytes ++ more)) ⟨room, .steady⟩)).AlikeButRecord
        (rig.machine.run rig.console) := by
  intro rig
  have whole : (Source.ofBytes bytes).Lined := by
    refine ⟨rfl, fun b last => ?_⟩
    rcases lined with rfl | ended
    · cases last
    · exact Option.some.inj (last.symm.trans ended)
  exact Machine.run_resumed whole rfl failed lacking more

/-- A question is put, one line is answered and the input ends; the rest of the
answer comes later, without a line end. -/
theorem resumed_alike_question :
    let program : Program := ⟨[.str "?"],
      [.loadConst 0, .print, .readString, .readString, .print, .halt]⟩
    let bytes : Bytes := [0x61, 0x0D, 0x0A]
    let console := Console.fresh (.ofBytes bytes) .unlimited
    let rig := Rig.mk (Machine.start program) console
      |>.after [.run, .feed [0x37, 0x0D]]
    let resumed := rig.machine.run rig.console
    ((Machine.start program).run console).result =
        .error ⟨.endOfInput, 3, some .readString, 2⟩ ∧
      resumed.machine.halted = true ∧
      resumed.console.written = [0x3F, 0x37, 0x0D] ∧
      ((Machine.start program).run
        (.fresh (.ofBytes (bytes ++ [0x37, 0x0D])) .unlimited)).AlikeButRecord
          resumed := by
  intro program bytes console rig resumed
  have failed : ((Machine.start program).run console).result =
      .error ⟨.endOfInput, 3, some .readString, 2⟩ := by rfl
  exact ⟨failed, by decide +kernel, by decide +kernel,
    resumed_alike program bytes [0x37, 0x0D] none _ (.inr rfl) failed rfl⟩

end Rig

end Bytecode
