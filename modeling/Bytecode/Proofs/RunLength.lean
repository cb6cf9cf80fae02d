import Bytecode.Proofs.Courses
import Bytecode.Proofs.FailedSteps
import Bytecode.Proofs.MachineUse
import Bytecode.Proofs.Reloading

/-!
How long runs take, and where they end.

Every run ends after at most one step for each instruction and one more. It ends
at the first `halt` of the program, or with a fault at or before it; only a
program without a `halt` can be run past its last instruction. No program that was
read from a file, and none that was built, is without a `halt`.

The place of the first `halt` is `List.idxOf`, which is the length of the code if
there is none.
-/

namespace Bytecode

/-! ## How executions end -/

/-- A fault that tells where a run of a program was stopped, in a given machine. -/
structure Fault.Marks (program : Program) (m : Machine) (fault : Fault) : Prop where
  pc : fault.pc = m.steps
  depth : fault.depth = m.stack.values.length
  instruction : fault.instruction = program.code[fault.pc]?
  /-- The run did not get past the first `halt`, or the end of the code. -/
  reached : fault.pc ≤ program.code.idxOf .halt
  outside_iff : ∀ n, fault.trap = .outOfProgram n ↔
    fault.instruction = none ∧ n = program.code.length
  unended : fault.instruction = none → .halt ∉ program.code

/-- How a run of a program ends: with its first `halt`, or with a fault. -/
inductive Program.EndsWith (program : Program) (o : Outcome Unit) : Prop
  | halt : o.result = .ok () → .halt ∈ program.code →
    o.machine.steps = program.code.idxOf .halt + 1 → EndsWith program o
  | fault (fault : Fault) : o.result = .error fault →
    fault.Marks program o.machine → EndsWith program o

/-- A program that is never run past its last instruction: not when it is executed,
and not from any machine that it brings about. -/
def Program.StaysInside (program : Program) : Prop :=
  (∀ console fault, (execute program console).result = .error fault →
    ∀ n, fault.trap ≠ .outOfProgram n) ∧
  ∀ m console fault, Machine.Reachable program m →
    (m.run console).result = .error fault → ∀ n, fault.trap ≠ .outOfProgram n

/-! ## The first `halt` -/

namespace Code

variable {code : Code} {pc : Nat}

theorem le_idxOf_halt (inside : pc ≤ code.length)
    (absent : ∀ k < pc, code[k]? ≠ some .halt) : pc ≤ code.idxOf .halt := by
  apply Nat.le_of_not_lt
  intro earlier
  have found := List.getElem_idxOf (Nat.lt_of_lt_of_le earlier inside)
  exact absent _ earlier (List.getElem?_eq_some_iff.2 ⟨_, found⟩)

theorem idxOf_halt_le (found : code[pc]? = some .halt) :
    code.idxOf .halt ≤ pc := by
  apply Nat.le_of_not_lt
  intro earlier
  obtain ⟨_, isHalt⟩ := List.getElem?_eq_some_iff.1 found
  have passed := List.not_of_lt_findIdx earlier
  rw [isHalt] at passed
  cases passed

end Code

/-! ## Falling off the end -/

theorem BinaryOp.combine_ne_outOfProgram (op : BinaryOp) (stack : Stack) (n : Nat) :
    op.combine stack ≠ .error (.outOfProgram n) := by
  unfold combine
  split
  · split
    · split
      · nofun
      · next failed =>
        rw [op.trap_of_apply failed]
        nofun
    · nofun
  · nofun

/-- No instruction complains about its place in the program. -/
theorem Instruction.demand_ne_outOfProgram (i : Instruction)
    (constants : ConstantPool) (stack : Stack) (n : Nat) :
    i.demand constants stack ≠ .quiet (.error (.outOfProgram n)) := by
  unfold demand
  cases i with
  | halt | readInt | readString | newline | storeIndexed | pushBool
  | unknown _ => nofun
  | loadConst index =>
    dsimp only
    split <;> nofun
  | pop | drop | print =>
    dsimp only
    split <;> nofun
  | binary op =>
    intro same
    exact op.combine_ne_outOfProgram stack n (Demand.quiet.inj same)

namespace Machine

variable {program : Program} {m : Machine} {console : Console} {fault : Fault}

/-- A step fails for lack of an instruction exactly if there is none. -/
theorem outOfProgram_iff (failed : (m.step console).result = .error fault)
    (n : Nat) :
    fault.trap = .outOfProgram n ↔ fault.instruction = none ∧ n = m.pc := by
  obtain ⟨-, ⟨-, rfl⟩ | ⟨i, trap, console', -, effect, rfl⟩⟩ := step_error failed
  · change Trap.outOfProgram m.pc = .outOfProgram n ↔ none = none ∧ n = m.pc
    rw [Trap.outOfProgram.injEq, eq_comm]
    exact ⟨fun same => ⟨rfl, same⟩, fun both => both.2⟩
  · constructor
    · intro isOutside
      have isTrap : trap = .outOfProgram n := isOutside
      rw [isTrap] at effect
      exact absurd (Instruction.demand_of_failed effect trivial)
        (i.demand_ne_outOfProgram _ _ n)
    · intro missing
      cases missing.1

/-- The fault that stops a machine in order marks the place. -/
theorem InOrder.marks (inOrder : InOrder program m)
    (failed : (m.step console).result = .error fault) :
    fault.Marks program m := by
  have loaded := inOrder.loaded
  subst loaded
  obtain ⟨-, position⟩ := step_failed failed
  have pc : fault.pc = m.pc := congrArg Fault.pc position
  have instruction : fault.instruction = m.program.code[m.pc]? :=
    congrArg Fault.instruction position
  have running := (step_error failed).1
  have reached : m.pc ≤ m.program.code.idxOf .halt :=
    Code.le_idxOf_halt inOrder.inside fun k => inOrder.not_halt running
  have atEnd : fault.instruction = none → m.pc = m.program.code.length := by
    intro missing
    rw [instruction] at missing
    exact Nat.le_antisymm inOrder.inside (List.getElem?_eq_none_iff.1 missing)
  constructor
  case pc => exact pc.trans inOrder.counted
  case depth =>
    have depth : fault.depth = m.stack.depth := congrArg Fault.depth position
    rw [depth]
    exact (List.length_reverse).symm
  case instruction => rw [pc, instruction]
  case reached => rwa [pc]
  case outside_iff =>
    intro n
    rw [outOfProgram_iff failed]
    refine and_congr_right fun missing => ?_
    rw [atEnd missing]
  case unended =>
    intro missing member
    have within := List.idxOf_lt_length_iff.2 member
    rw [atEnd missing] at reached
    omega

/-- A program that has ended has ended with its first `halt`. -/
theorem InOrder.ended (inOrder : InOrder program m) (ended : m.halted = true) :
    .halt ∈ program.code ∧ m.steps = program.code.idxOf .halt + 1 := by
  obtain ⟨started, found⟩ := inOrder.halted_iff.1 ended
  have inside := inOrder.inside
  have first : program.code.idxOf .halt = m.pc - 1 := by
    apply Nat.le_antisymm (Code.idxOf_halt_le found)
    apply Code.le_idxOf_halt (by omega)
    intro k earlier isHalt
    have last := inOrder.once k (by omega) isHalt
    omega
  refine ⟨List.mem_of_getElem? found, ?_⟩
  rw [← inOrder.counted]
  omega

/-- A step that ends the program, or finds it ended, leaves it ended. -/
theorem step_halted (halted : (m.step console).result = .ok .halted) :
    (m.step console).machine.halted = true := by
  have stepped := m.step_stepped console
  generalize m.step console = s at stepped halted
  cases stepped with
  | ended ended => exact ended
  | halts _ _ _ => rfl
  | outside _ _ | failed _ _ _ | goesOn _ _ _ _ => cases halted

/-- Every run of a machine that a program brings about ends with the first `halt`
of the program or with a fault that marks the place. -/
theorem Reachable.endsWith (reachable : Reachable program m) (console : Console) :
    program.EndsWith (m.run console) := by
  obtain ⟨_, -, _, m', console', -, leads, stopping, result, machine, -⟩ :=
    m.exists_runsIn console
  have there := leads.reachable reachable
  cases last : (m'.step console').result with
  | error fault =>
    have failed : (m.run console).result = .error fault := by
      rw [result]
      exact congrArg (Except.map fun _ => ()) last
    refine .fault fault failed ?_
    rw [machine, (step_failed last).1]
    exact there.inOrder.marks last
  | ok progress =>
    cases progress with
    | running => exact absurd last stopping
    | halted =>
      have succeeded : (m.run console).result = .ok () := by
        rw [result]
        exact congrArg (Except.map fun _ => ()) last
      have ended := (there.step console').inOrder.ended (step_halted last)
      rw [← machine] at ended
      exact .halt succeeded ended.1 ended.2

end Machine

namespace Program

theorem EndsWith.inside {program : Program} {o : Outcome Unit} {fault : Fault}
    (endsWith : program.EndsWith o) (ends : .halt ∈ program.code)
    (failed : o.result = .error fault) (n : Nat) :
    fault.trap ≠ .outOfProgram n := by
  intro isOutside
  cases endsWith with
  | halt succeeded _ _ => cases succeeded.symm.trans failed
  | fault other failedSo marks =>
    cases failedSo.symm.trans failed
    exact marks.unended ((marks.outside_iff n).1 isOutside).1 ends

theorem execute_endsWith (program : Program) (console : Console) :
    program.EndsWith (execute program console) := by
  obtain ⟨result, machine⟩ := execute_reports program console
  cases Machine.Reachable.start.endsWith console with
  | halt succeeded ends steps =>
    exact .halt (result.trans succeeded) ends (machine ▸ steps)
  | fault fault failed marks =>
    exact .fault fault (result.trans failed) (machine ▸ marks)

theorem staysInside_of_halt {program : Program} (ends : .halt ∈ program.code) :
    program.StaysInside :=
  ⟨fun console _ failed => (execute_endsWith program console).inside ends failed,
    fun _ console _ reachable failed =>
      (reachable.endsWith console).inside ends failed⟩

/-- Every run makes at most one step for each instruction and one more; every
execution ends with the first `halt` or with a fault that marks the place; and no
program that was read from a file or built is run past its last instruction. -/
theorem runs_end :
    (∀ (m : Machine) console,
      ∃ calls ≤ m.program.code.length + 1, m.RunsIn calls console) ∧
    (∀ program console, EndsWith program (execute program console)) ∧
    (∀ bytes program, decode bytes = .ok program → program.StaysInside) ∧
    ∀ b : Builder, b.build.StaysInside := by
  refine ⟨fun m console => ?_, execute_endsWith, fun bytes program decoded => ?_,
    fun b => staysInside_of_halt b.halt_mem_build⟩
  · obtain ⟨calls, few, runsIn⟩ := m.exists_runsIn console
    exact ⟨calls, by omega, runsIn⟩
  · have canonical := canonical_of_decode decoded
    exact staysInside_of_halt (List.mem_of_getLast? canonical.ends)

/-- A file with an operation that finds too little on the stack: the fault is at
the second of three instructions. -/
theorem runs_end_underflow :
    let bytes := signature ++ [0x5B, 0x5D, 0x00, 0x07, 0x0A, 0x00]
    let program : Program := ⟨[], [.newline, .binary .add, .halt]⟩
    let console := Console.fresh (Source.ofBytes []) Sink.unlimited
    decode bytes = .ok program ∧ program.StaysInside ∧
      (execute program console).result =
        .error ⟨.stackUnderflow, 1, some (.binary .add), 0⟩ ∧
      program.EndsWith (execute program console) ∧
      ∃ calls ≤ 4, (Machine.start program).RunsIn calls console := by
  intro bytes program console
  have decoded : decode bytes = .ok program := by rfl
  obtain ⟨runs, executions, files, -⟩ := runs_end
  exact ⟨decoded, files bytes program decoded, by rfl, executions program console,
    runs (Machine.start program) console⟩

end Program

end Bytecode
