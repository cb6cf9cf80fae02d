import Bytecode.Effect
import Bytecode.Log

/-!
The machine that carries out programs.

`Machine.step` carries out the instruction at the program counter, `Machine.run`
goes on until the program ends or an instruction cannot be carried out, and
`execute` runs a program from the start. The code has no jumps, so the program
counter only moves forward and a run takes at most one step for each instruction
and one more: `run` is `runFor` with that many steps allowed.
-/

namespace Bytecode

/-! ## The machine -/

/-- A machine with a program loaded. -/
structure Machine where
  program : Program
  stack : Stack
  /-- The index of the next instruction. -/
  pc : Nat
  /-- How many instructions have been carried out. -/
  steps : Nat
  /-- Whether the program has ended. -/
  halted : Bool
deriving DecidableEq

/-- Where and why a machine stopped before the end of its program. -/
structure Fault where
  trap : Trap
  pc : Nat
  /-- The instruction that failed, if there was one. -/
  instruction : Option Instruction
  /-- How many values were on the stack. -/
  depth : Nat
deriving DecidableEq

/-- What came of running a machine: how it ended, the machine and the streams
afterwards, and the log records made on the way. -/
structure Outcome (α : Type) where
  result : Except Fault α
  machine : Machine
  console : Console
  log : List Log.Record

/-- What comes of a step and, if the program goes on, of what follows it. -/
def Outcome.andThen (s : Outcome Progress)
    (next : Machine → Console → Option (Outcome Unit)) :
    Option (Outcome Unit) :=
  match s.result with
  | .error fault => some ⟨.error fault, s.machine, s.console, s.log⟩
  | .ok .halted => some ⟨.ok (), s.machine, s.console, s.log⟩
  | .ok .running =>
    (next s.machine s.console).map fun o => { o with log := s.log ++ o.log }

namespace Machine

/-- The machine at the start of a program. -/
def start (program : Program) : Machine :=
  ⟨program, [], 0, 0, false⟩

/-- The fault of a machine that stops here. -/
def fault (m : Machine) (trap : Trap) (i : Option Instruction) : Fault :=
  ⟨trap, m.pc, i, m.stack.depth⟩

/-- The record made before an instruction is carried out. -/
def record (m : Machine) (i : Instruction) : Log.Record :=
  ⟨.trace, .machine, s!"pc={m.pc} {i.text} (stack depth {m.stack.depth})"⟩

/-- The outcome of a step in which an instruction had an effect: the program
counter and the count of steps move on if it was carried out, and stay if it
failed. -/
def settle (m : Machine) (i : Instruction) (e : Effect) : Outcome Progress :=
  match e.result with
  | .ok progress =>
    { result := .ok progress
      machine :=
        { m with
          stack := e.stack
          pc := m.pc + 1
          steps := m.steps + 1
          halted := progress = .halted }
      console := e.console
      log := [m.record i] }
  | .error trap =>
    { result := .error ({ m with stack := e.stack }.fault trap (some i))
      machine := { m with stack := e.stack }
      console := e.console
      log := [m.record i] }

/-- Carries out the next instruction. A machine that has ended stays as it is;
one that fails stays at the instruction that failed. -/
def step (m : Machine) (console : Console) : Outcome Progress :=
  if m.halted then ⟨.ok .halted, m, console, []⟩
  else
    match m.program.code[m.pc]? with
    | none => ⟨.error (m.fault (.outOfProgram m.pc) none), m, console, []⟩
    | some i => m.settle i (i.execute m.program.constants m.stack console)

/-- Goes on until the program ends or fails; nothing if that takes more steps
than allowed. -/
def runFor : (fuel : Nat) → Machine → Console → Option (Outcome Unit)
  | 0, _, _ => none
  | fuel + 1, m, console => (m.step console).andThen (runFor fuel)

/-- How many steps a run can take at most. -/
def allowance (m : Machine) : Nat :=
  m.program.code.length - m.pc + 1

/-- A step after which the program goes on moves the program counter forward by
one, inside the same program. -/
theorem step_running {m : Machine} {console : Console}
    (running : (m.step console).result = .ok .running) :
    m.pc < m.program.code.length ∧
      (m.step console).machine.program = m.program ∧
        (m.step console).machine.pc = m.pc + 1 := by
  unfold step at running ⊢
  by_cases ended : m.halted
  · simp [ended] at running
  · rw [if_neg ended] at running ⊢
    cases found : m.program.code[m.pc]? with
    | none => simp [found] at running
    | some i =>
      refine ⟨(List.getElem?_eq_some_iff.1 found).1, ?_⟩
      simp only [found] at running ⊢
      unfold settle at running ⊢
      split at running
      · exact ⟨rfl, rfl⟩
      · simp at running

/-- A run with enough steps allowed comes to an end. -/
theorem runFor_isSome (fuel : Nat) (m : Machine) (console : Console)
    (enough : m.program.code.length - m.pc < fuel) :
    (m.runFor fuel console).isSome := by
  induction fuel generalizing m console with
  | zero => omega
  | succ fuel ih =>
    unfold runFor Outcome.andThen
    split
    · rfl
    · rfl
    · rename_i running
      obtain ⟨inside, sameProgram, nextPc⟩ := step_running running
      rw [Option.isSome_map]
      exact ih _ _ (by rw [sameProgram, nextPc]; omega)

/-- Goes on until the program ends or fails. -/
def run (m : Machine) (console : Console) : Outcome Unit :=
  (m.runFor m.allowance console).get
    (runFor_isSome _ _ _ (Nat.lt_succ_self _))

end Machine

/-! ## Programs -/

/-- The record made when a program is loaded. -/
def Program.loaded (program : Program) : Log.Record :=
  ⟨.debug, .machine,
    s!"Loaded program with {program.constants.length} constants and " ++
      s!"{program.code.length} instructions"⟩

/-- The record made when the output cannot be flushed after a fault. -/
def unflushed (reason : String) : Log.Record :=
  ⟨.warn, .machine, s!"Unable to flush output after trap: {reason}"⟩

/-- Runs a program from the start. After a fault the output is flushed, so that
what was written before it is not lost. -/
def execute (program : Program) (console : Console) : Outcome Unit :=
  let o := (Machine.start program).run console
  let log := program.loaded :: o.log
  match o.result with
  | .ok () => { o with log := log }
  | .error _ =>
    match o.console.flush with
    | (.ok (), console) => { o with console := console, log := log }
    | (.error reason, console) =>
      { o with console := console, log := log ++ [unflushed reason] }

end Bytecode
