import Bytecode.Proofs.Courses
import Bytecode.Proofs.Demands

/-!
The streams of a running machine, and the record of what was done to them.

Three equations say what becomes of the streams when a line is read or asked for
and when a step is made (`readLine_streams`, `ask_streams`, `step_streams`), and
what a use of the streams preserves is carried from there to steps and runs.
Whatever is done is added at the end of the record, so what has been written at
one place of a run is the beginning of all that the run writes. But nothing looks
at the record: a run with streams that were in use before is the run with fresh
ones (`run_recalling`).
-/

namespace Bytecode

/-! ## Single uses -/

namespace Console

theorem written_concat (input : Source) (output : Sink) (events : List Event)
    (e : Event) :
    (Console.mk input output (events ++ [e])).written =
      events.flatMap Event.written ++ e.written := by
  unfold written
  rw [List.flatMap_append, List.flatMap_singleton]

theorem written_of_grown {console console' : Console}
    (grown : console.events <+: console'.events) :
    console.written <+: console'.written := by
  obtain ⟨more, events⟩ := grown
  refine ⟨more.flatMap Event.written, ?_⟩
  unfold written
  rw [← events, List.flatMap_append]

theorem grown_write (bytes : Bytes) (console : Console) :
    console.events <+: (console.write bytes).2.events := by
  unfold write
  dsimp only
  split
  · exact List.prefix_refl _
  · exact List.prefix_append _ _

theorem grown_flush (console : Console) :
    console.events <+: console.flush.2.events :=
  List.prefix_append _ _

/-- Reading a line takes it from the input, whatever it holds. -/
theorem readLine_streams (console : Console) :
    console.readLine.2 =
      { console with
        input := console.input.takeLine.2
        events := console.events ++ [.read] } := by
  unfold readLine
  rcases console.input.takeLine with ⟨result, input⟩
  cases result with
  | error ending => rfl
  | ok bytes =>
    dsimp only
    cases Utf8.decode? bytes <;> rfl

/-- Asking is a flush, and reading a line if that succeeds. -/
theorem ask_streams (console : Console) :
    console.ask.2 =
      match console.flush.1 with
      | .ok _ => console.flush.2.readLine.2
      | .error _ => console.flush.2 := by
  unfold ask
  rcases console.flush with ⟨result, console'⟩
  cases result with
  | error reason => rfl
  | ok _ =>
    dsimp only
    rcases console'.readLine with ⟨result, console''⟩
    cases result <;> rfl

theorem grown_ask (console : Console) :
    console.events <+: console.ask.2.events := by
  have flushed := console.grown_flush
  rw [ask_streams]
  split
  · rw [readLine_streams]
    exact flushed.trans (List.prefix_append _ _)
  · exact flushed

/-- A flush adds nothing to what is written, and takes no input. -/
theorem flush_keeps (console : Console) :
    console.flush.2.written = console.written ∧
      console.flush.2.input = console.input := by
  unfold flush
  rcases console.output.flush with ⟨result, output⟩
  dsimp only
  rw [written_concat]
  cases result with
  | error reason => exact ⟨List.append_nil _, rfl⟩
  | ok _ => exact ⟨List.append_nil _, rfl⟩

/-- Reading a line leaves the output alone. -/
theorem readLine_keeps (console : Console) :
    console.readLine.2.written = console.written ∧
      console.readLine.2.output = console.output := by
  rw [readLine_streams]
  exact ⟨(written_concat _ _ _ _).trans (List.append_nil _), rfl⟩

/-- Flushing succeeds as long as all flushes do. -/
theorem flush_steady {console : Console}
    (steady : console.output.flushes = .steady) :
    console.flush =
      (.ok (), { console with events := console.events ++ [.flush] }) := by
  have flushed : console.output.flush = (.ok (), console.output) := by
    rcases console with ⟨input, ⟨room, flushes⟩, events⟩
    cases steady
    rfl
  unfold flush
  rw [flushed]

/-! ### Translated streams -/

/-- Asking corresponds under a translation of the streams if its two parts do. -/
theorem ask_through {console : Console} {f : Console → Console}
    (flushes : (f console).flush = (console.flush.1, f console.flush.2))
    (reads : console.flush.1 = .ok () →
      (f console.flush.2).readLine =
        (console.flush.2.readLine.1, f console.flush.2.readLine.2)) :
    (f console).ask = (console.ask.1, f console.ask.2) := by
  unfold ask
  rw [flushes]
  generalize console.flush = answer at reads
  rcases answer with ⟨result, console'⟩
  cases result with
  | error reason => rfl
  | ok _ =>
    dsimp only
    rw [reads rfl]
    rcases console'.readLine with ⟨result, console''⟩
    cases result <;> rfl

/-- The streams with a record of what was done to them earlier. -/
def recalling (past : List Event) (console : Console) : Console :=
  { console with events := past ++ console.events }

theorem written_recalling (past : List Event) (console : Console) :
    (console.recalling past).written =
      past.flatMap Event.written ++ console.written :=
  List.flatMap_append

theorem write_recalling (past : List Event) (bytes : Bytes) (console : Console) :
    (console.recalling past).write bytes =
      ((console.write bytes).1, (console.write bytes).2.recalling past) := by
  unfold write recalling
  dsimp only
  split
  · rfl
  · rw [List.append_assoc]

theorem flush_recalling (past : List Event) (console : Console) :
    (console.recalling past).flush =
      (console.flush.1, console.flush.2.recalling past) := by
  unfold flush recalling
  dsimp only
  rw [List.append_assoc]

theorem readLine_recalling (past : List Event) (console : Console) :
    (console.recalling past).readLine =
      (console.readLine.1, console.readLine.2.recalling past) := by
  unfold readLine recalling
  dsimp only
  rcases console.input.takeLine with ⟨result, input⟩
  rw [List.append_assoc]
  cases result with
  | error ending => rfl
  | ok bytes =>
    dsimp only
    cases Utf8.decode? bytes <;> rfl

end Console

/-! ## Instructions -/

theorem Demand.grown_meet (demand : Demand) (stack : Stack) (console : Console) :
    console.events <+: (demand.meet stack console).console.events := by
  rw [meet_streams]
  cases demand with
  | quiet _ => exact List.prefix_refl _
  | output bytes => exact console.grown_write bytes
  | input _ => exact console.grown_ask
  | ending => exact console.grown_flush

/-- A demand is met alike under a translation of the streams if what it asks for
corresponds. -/
theorem Demand.meet_through (demand : Demand) (stack : Stack) {console : Console}
    {f : Console → Console}
    (writes : ∀ bytes, demand = .output bytes → (f console).write bytes =
      ((console.write bytes).1, f (console.write bytes).2))
    (asks : ∀ use, demand = .input use →
      (f console).ask = (console.ask.1, f console.ask.2))
    (flushes : demand = .ending →
      (f console).flush = (console.flush.1, f console.flush.2)) :
    demand.meet stack (f console) = (demand.meet stack console).through f := by
  unfold meet
  cases demand with
  | quiet result => cases result <;> rfl
  | output bytes =>
    unfold Effect.write
    dsimp only
    rw [writes bytes rfl]
    rcases console.write bytes with ⟨result, console'⟩
    cases result <;> rfl
  | input use =>
    dsimp only
    rw [asks use rfl]
    rcases console.ask with ⟨result, console'⟩
    cases result with
    | error trap => rfl
    | ok line =>
      dsimp only
      cases use line <;> rfl
  | ending =>
    dsimp only
    rw [flushes rfl]
    rcases console.flush with ⟨result, console'⟩
    cases result <;> rfl

/-- No instruction looks at the record of what was done earlier. -/
theorem Demand.meet_recalling (demand : Demand) (stack : Stack)
    (past : List Event) (console : Console) :
    demand.meet stack (console.recalling past) =
      (demand.meet stack console).through (.recalling past) := by
  have flushes := console.flush_recalling past
  apply demand.meet_through stack
  · exact fun bytes _ => console.write_recalling past bytes
  · exact fun _ _ => Console.ask_through flushes
      fun _ => console.flush.2.readLine_recalling past
  · exact fun _ => flushes

theorem Sink.flushes_write (sink : Sink) (bytes : Bytes) :
    (sink.write bytes).sink.flushes = sink.flushes := by
  unfold write
  split
  · rfl
  · split
    · rfl
    · rfl

/-- An output whose flushes all succeed is such an output afterwards. -/
theorem Demand.steady_meet {console : Console} (demand : Demand) (stack : Stack)
    (steady : console.output.flushes = .steady) :
    (demand.meet stack console).console.output.flushes = .steady := by
  rw [meet_streams]
  cases demand with
  | quiet _ => exact steady
  | output bytes => exact (Sink.flushes_write _ bytes).trans steady
  | input _ =>
    dsimp only
    rw [Console.ask_streams, Console.flush_steady steady]
    dsimp only
    rw [Console.readLine_streams]
    exact steady
  | ending =>
    dsimp only
    rw [Console.flush_steady steady]
    exact steady

/-! ## Steps and runs -/

namespace Machine

theorem settle_console (m : Machine) (i : Instruction) (e : Effect) :
    (m.settle i e).console = e.console := by
  unfold settle
  cases e.result <;> rfl

/-- The instruction that the next step attempts. There is none once the program
has ended, and none past its last instruction. -/
def attempted? (m : Machine) : Option Instruction :=
  if m.halted then none else m.program.code[m.pc]?

/-- A step meets the demand of the instruction that it attempts. -/
theorem step_attempted {m : Machine} {i : Instruction}
    (attempted : m.attempted? = some i) (console : Console) :
    m.step console =
      m.settle i ((i.demand m.program.constants m.stack).meet m.stack console) := by
  unfold attempted? at attempted
  unfold step
  split at attempted
  · cases attempted
  · next running =>
    rw [if_neg running, attempted, ← i.execute_eq_meet]

/-- The streams after a step are those that the demand of its instruction leaves,
and a step that attempts nothing leaves them alone. -/
theorem step_streams (m : Machine) (console : Console) :
    (m.step console).console =
      match m.attempted? with
      | some i =>
        ((i.demand m.program.constants m.stack).meet m.stack console).console
      | none => console := by
  cases attempted : m.attempted? with
  | some i => rw [step_attempted attempted, settle_console]
  | none =>
    unfold attempted? at attempted
    unfold step
    split at attempted
    · next ended => rw [if_pos ended]
    · next running => rw [if_neg running, attempted]

theorem steady_step {console : Console} (m : Machine)
    (steady : console.output.flushes = .steady) :
    (m.step console).console.output.flushes = .steady := by
  rw [step_streams]
  split
  · exact Demand.steady_meet _ _ steady
  · exact steady

/-- Steps correspond under a translation of the streams if the demands are met
alike. -/
theorem step_through {m : Machine} {console : Console} {f : Console → Console}
    (alike : ∀ i, m.attempted? = some i →
      (i.demand m.program.constants m.stack).meet m.stack (f console) =
        ((i.demand m.program.constants m.stack).meet m.stack console).through f) :
    m.step (f console) = (m.step console).through f := by
  cases attempted : m.attempted? with
  | some i =>
    rw [step_attempted attempted, step_attempted attempted, alike i attempted,
      settle_through]
  | none =>
    unfold attempted? at attempted
    unfold step
    split at attempted
    · next ended => simp only [ended, if_true, Outcome.through]
    · next running => simp only [running, attempted, Outcome.through]; rfl

theorem grown_step (m : Machine) (console : Console) :
    console.events <+: (m.step console).console.events := by
  rw [step_streams]
  split
  · exact Demand.grown_meet _ _ _
  · exact List.prefix_refl _

theorem grown_run (m : Machine) (console : Console) :
    console.events <+: (m.run console).console.events := by
  induction m, console using run_induction with
  | stops m console stopping =>
    rw [run_of_stopping stopping]
    exact m.grown_step console
  | goesOn m console running ih =>
    rw [run_of_running running]
    exact (m.grown_step console).trans ih

theorem Leads.grown {calls : Nat} {m m' : Machine} {console console' : Console}
    (leads : Leads calls m console m' console') :
    console.events <+: console'.events := by
  induction leads with
  | here => exact List.prefix_refl _
  | step _ _ ih => exact (grown_step _ _).trans ih

theorem step_recalling (m : Machine) (past : List Event) (console : Console) :
    m.step (console.recalling past) =
      (m.step console).through (.recalling past) :=
  step_through fun _ _ => Demand.meet_recalling _ _ past console

/-- A run with streams that were in use before is the run with fresh ones. -/
theorem run_recalling (m : Machine) (past : List Event) (console : Console) :
    m.run (console.recalling past) =
      (m.run console).through (.recalling past) :=
  run_through (fun m console => m.step_recalling past console) m console

/-- What is written at one place of a run begins what the run writes. -/
theorem Leads.written_run {calls : Nat} {m m' : Machine}
    {console console' : Console} (leads : Leads calls m console m' console') :
    console'.written <+: (m.run console).console.written := by
  obtain ⟨log, rest⟩ := leads.run
  rw [rest]
  exact Console.written_of_grown (m'.grown_run console')

end Machine

/-- The flush after a fault adds nothing to what a run has written, and takes no
input. -/
theorem execute_streams (program : Program) (console : Console) :
    let run := (Machine.start program).run console
    (execute program console).console.written = run.console.written ∧
      (execute program console).console.input = run.console.input := by
  intro run
  have kept := run.console.flush_keeps
  unfold execute
  dsimp only
  split
  · exact ⟨rfl, rfl⟩
  · split
    · next flushed =>
      rw [flushed] at kept
      exact kept
    · next flushed =>
      rw [flushed] at kept
      exact kept

end Bytecode
