import Bytecode.Proofs.Demands
import Bytecode.Proofs.MachineRuns

/-!
Steps that fail.

A failed step leaves the machine as it was, whatever had been read or written
before it failed, and its fault tells where that machine stands. Most traps are
`Trap.Quiet`: only the program and the stack decide about them. An instruction
that fails with such a trap has not touched the streams, and since the machine is
the same afterwards it fails again in the same way, with these streams or any
others.
-/

namespace Bytecode

/-! ## Traps without a part of the streams -/

/-- The traps that are raised before a stream is used. -/
def Trap.Quiet : Trap → Prop
  | stackUnderflow | indexOutOfRange _ | typeMismatch _ _ _ | divisionByZero
  | illegalInstruction _ | unsupported _ | outOfProgram _ => True
  | notInteger _ | endOfInput | stream _ => False

/-- Only a demand that asks nothing of the streams can fail with such a trap. -/
theorem Demand.eq_quiet_of_meet {demand : Demand} {stack after : Stack}
    {console console' : Console} {trap : Trap}
    (failed : demand.meet stack console = .failed trap after console')
    (quiet : trap.Quiet) : demand = .quiet (.error trap) := by
  cases demand with
  | quiet result =>
    cases result with
    | ok left => cases failed
    | error _ =>
      cases failed
      rfl
  | output bytes =>
    unfold meet Effect.write at failed
    dsimp only at failed
    split at failed
    · cases failed
    · cases failed
      exact quiet.elim
  | input use =>
    unfold meet at failed
    dsimp only at failed
    split at failed
    · next asked =>
      cases failed
      rcases console.trap_of_ask asked with rfl | ⟨reason, rfl⟩
      · exact quiet.elim
      · exact quiet.elim
    · split at failed
      · cases failed
      · cases failed
        exact quiet.elim
  | ending =>
    unfold meet at failed
    dsimp only at failed
    split at failed
    · cases failed
    · cases failed
      exact quiet.elim

theorem BinaryOp.quiet_of_combine {op : BinaryOp} {stack : Stack} {trap : Trap}
    (failed : op.combine stack = .error trap) : trap.Quiet := by
  unfold combine at failed
  split at failed
  · split at failed
    · split at failed
      · cases failed
      · next failedSo =>
        cases failed
        rw [op.trap_of_apply failedSo]
        trivial
    · cases failed
      trivial
  · cases failed
    trivial

namespace Instruction

variable {i : Instruction} {constants : ConstantPool} {stack after : Stack}
  {console console' : Console} {trap : Trap}

theorem demand_of_failed
    (failed : i.execute constants stack console = .failed trap after console')
    (quiet : trap.Quiet) : i.demand constants stack = .quiet (.error trap) := by
  rw [execute_eq_meet] at failed
  exact Demand.eq_quiet_of_meet failed quiet

/-- The traps that are raised before a stream is used are the quiet ones. -/
theorem quiet_of_demand (demanded : i.demand constants stack = .quiet (.error trap)) :
    trap.Quiet := by
  unfold demand at demanded
  cases i with
  | halt | readInt | readString | newline => cases demanded
  | storeIndexed | pushBool | unknown _ =>
    cases demanded
    trivial
  | loadConst index =>
    dsimp only at demanded
    split at demanded
    · cases demanded
    · cases demanded
      trivial
  | pop | drop | print =>
    dsimp only at demanded
    split at demanded
    · cases demanded
    · cases demanded
      trivial
  | binary op => exact op.quiet_of_combine (Demand.quiet.inj demanded)

/-- An instruction that fails before it uses a stream fails with all streams
alike, and leaves them alone. -/
theorem execute_failed_quiet
    (failed : i.execute constants stack console = .failed trap after console')
    (quiet : trap.Quiet) (other : Console) :
    i.execute constants stack other = .failed trap stack other := by
  rw [execute_eq_meet, demand_of_failed failed quiet]
  rfl

end Instruction

/-! ## Failed steps -/

namespace Machine

variable {m : Machine} {console : Console} {fault : Fault}

/-- A step fails for lack of an instruction, or because its instruction does. -/
theorem step_error (failed : (m.step console).result = .error fault) :
    m.halted = false ∧
      (m.program.code[m.pc]? = none ∧ fault = m.fault (.outOfProgram m.pc) none ∨
      ∃ i trap console', m.program.code[m.pc]? = some i ∧
        i.execute m.program.constants m.stack console =
          .failed trap m.stack console' ∧
        fault = m.fault trap (some i)) := by
  have stepped := m.step_stepped console
  generalize m.step console = s at stepped failed
  cases stepped with
  | ended _ | halts _ _ _ | goesOn _ _ _ _ => cases failed
  | outside running missing =>
    cases failed
    exact ⟨running, .inl ⟨missing, rfl⟩⟩
  | failed running found effect =>
    cases failed
    exact ⟨running, .inr ⟨_, _, _, found, effect, rfl⟩⟩

theorem step_failed (failed : (m.step console).result = .error fault) :
    (m.step console).machine = m ∧
      fault = m.fault fault.trap m.program.code[m.pc]? := by
  obtain ⟨running, ⟨missing, rfl⟩ | ⟨i, trap, console', found, effect, rfl⟩⟩ :=
    step_error failed
  · rw [(Stepped.outside running missing).eq_step, missing]
    exact ⟨rfl, rfl⟩
  · rw [(Stepped.failed running found effect).eq_step, found]
    exact ⟨rfl, rfl⟩

/-- A step that fails without a part of the streams fails with all streams alike,
and leaves them alone. -/
theorem step_failed_quiet (failed : (m.step console).result = .error fault)
    (quiet : fault.trap.Quiet) (other : Console) :
    (m.step other).result = .error fault ∧ (m.step other).console = other := by
  obtain ⟨running, ⟨missing, rfl⟩ | ⟨i, trap, console', found, effect, rfl⟩⟩ :=
    step_error failed
  · rw [(Stepped.outside running missing).eq_step]
    exact ⟨rfl, rfl⟩
  · have again := Instruction.execute_failed_quiet effect quiet other
    rw [(Stepped.failed running found again).eq_step]
    exact ⟨rfl, rfl⟩

/-- What comes of steps one after the other, each with its own streams. -/
def attempts : Machine → List Console → List (Except Fault Progress)
  | _, [] => []
  | m, console :: rest =>
    let s := m.step console
    s.result :: s.machine.attempts rest

theorem attempts_failed_quiet (failed : (m.step console).result = .error fault)
    (quiet : fault.trap.Quiet) (streams : List Console) :
    m.attempts streams = List.replicate streams.length (.error fault) := by
  induction streams with
  | nil => rfl
  | cons other rest ih =>
    have again := (step_failed_quiet failed quiet other).1
    have unchanged := (step_failed again).1
    unfold attempts
    dsimp only
    rw [again, unchanged, ih]
    rfl

/-- A step that fails leaves the machine as it was and tells where it stands. If
no stream had a part in it, the streams are as they were too, and the same fault
comes of any number of further steps, whatever their streams. -/
theorem step_failed_unchanged (m : Machine) (console : Console) (fault : Fault)
    (failed : (m.step console).result = .error fault) :
    (m.step console).machine = m ∧
      fault.pc = m.pc ∧
      fault.instruction = m.program.code[m.pc]? ∧
      fault.depth = m.stack.depth ∧
      (fault.trap.Quiet →
        (m.step console).console = console ∧
          ∀ streams, (m.step console).machine.attempts streams =
            List.replicate streams.length (.error fault)) := by
  obtain ⟨unchanged, position⟩ := step_failed failed
  refine ⟨unchanged, ?_, ?_, ?_, fun quiet => ⟨?_, fun streams => ?_⟩⟩
  · rw [position]
    rfl
  · rw [position]
    rfl
  · rw [position]
    rfl
  · exact (step_failed_quiet failed quiet console).2
  · rw [unchanged]
    exact attempts_failed_quiet failed quiet streams

/-- A division by zero in the middle of a program, repeated with streams that
would fail if they were used. -/
theorem step_failed_unchanged_division :
    let m : Machine :=
      ⟨⟨[], [.pop, .binary .div, .halt]⟩, [.int 0, .int 7, .str "x"], 1, 1, false⟩
    let console := Console.fresh (Source.ofBytes [0x31, 0x0A]) Sink.unlimited
    let broken := Console.fresh ⟨[], .failing "gone"⟩
      ⟨some ⟨0, "full"⟩, ⟨[], some "shut"⟩⟩
    let fault : Fault := ⟨.divisionByZero, 1, some (.binary .div), 3⟩
    (m.step console).result = .error fault ∧ fault.trap.Quiet ∧
      (m.step console).machine = m ∧ (m.step console).console = console ∧
      (m.step console).machine.attempts [console, broken, broken] =
        [.error fault, .error fault, .error fault] := by
  intro m console broken fault
  have failed : (m.step console).result = .error fault := by rfl
  obtain ⟨unchanged, -, -, -, repeated⟩ :=
    step_failed_unchanged m console fault failed
  obtain ⟨untouched, again⟩ := repeated trivial
  exact ⟨failed, trivial, unchanged, untouched, again [console, broken, broken]⟩

end Machine

end Bytecode
