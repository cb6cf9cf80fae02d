import Bytecode.Proofs.Demands
import Bytecode.Proofs.MachineRuns

/-!
Machines in use.

A `Rig` is a machine with the streams it is connected to, and a `Use` is what can
be done with one: a step, a run, more input, or other streams. Whatever is done,
and whatever fails on the way, the machine stays `Machine.InOrder`: its counters
agree with each other and with the text of the program, and its stack holds
integers and texts only. Each step keeps the machine in order, so a run does, so
every use does. A machine that has ended cannot be changed any more.
-/

namespace Bytecode

/-! ## What the machine counts on -/

/-- A value that a program can bring about: a text, or an integer of 64 bits. -/
def Value.Proper : Value → Prop
  | int i => -0x8000000000000000 ≤ i.toInt ∧ i.toInt ≤ 0x7FFFFFFFFFFFFFFF
  | str _ => True
  | bool _ => False

/-- An instruction that can be carried out at all. -/
def Instruction.Meaningful : Instruction → Prop
  | storeIndexed | pushBool | unknown _ => False
  | halt | loadConst _ | pop | drop | readInt | readString | print | newline
  | binary _ => True

/-- The invariant of a machine that works through a program. -/
structure Machine.InOrder (program : Program) (m : Machine) : Prop where
  loaded : m.program = program
  counted : m.pc = m.steps
  inside : m.pc ≤ program.code.length
  /-- The program has ended exactly if the last instruction was a `halt`. -/
  halted_iff : m.halted = true ↔
    1 ≤ m.pc ∧ program.code[m.pc - 1]? = some .halt
  /-- No instruction before the last was a `halt`. -/
  once : ∀ k < m.pc, program.code[k]? = some .halt → k = m.pc - 1
  meaningful : ∀ k < m.pc, ∀ i, program.code[k]? = some i → i.Meaningful
  proper : ∀ v ∈ m.stack, v.Proper

/-! ## Instructions -/

theorem Value.proper_int (i : Int64) : (Value.int i).Proper :=
  ⟨i.le_toInt, Int.le_sub_one_of_lt i.toInt_lt⟩

theorem Value.proper_ofConstant (c : Constant) : (Value.ofConstant c).Proper := by
  cases c with
  | int i => exact proper_int i
  | str s => trivial

theorem BinaryOp.proper_combine {op : BinaryOp} {stack after : Stack}
    (combined : op.combine stack = .ok after)
    (proper : ∀ v ∈ stack, v.Proper) : ∀ v ∈ after, v.Proper := by
  unfold combine at combined
  split at combined
  · next right left below =>
    split at combined
    · split at combined
      · cases combined
        rw [List.forall_mem_cons, List.forall_mem_cons] at proper
        exact List.forall_mem_cons.2 ⟨Value.proper_int _, proper.2.2⟩
      · cases combined
    · cases combined
  · cases combined

namespace Instruction

variable {i : Instruction} {constants : ConstantPool} {stack after : Stack}

/-- No instruction puts anything but integers and texts on the stack. -/
theorem proper_of_leaves (leaves : (i.demand constants stack).Leaves stack after)
    (proper : ∀ v ∈ stack, v.Proper) : ∀ v ∈ after, v.Proper := by
  unfold demand at leaves
  cases i with
  | halt | storeIndexed | pushBool | unknown _ => cases leaves
  | loadConst index =>
    dsimp only at leaves
    split at leaves
    · cases leaves
      exact List.forall_mem_cons.2 ⟨Value.proper_ofConstant _, proper⟩
    · cases leaves
  | pop | drop =>
    dsimp only at leaves
    split at leaves
    · cases leaves
      exact (List.forall_mem_cons.1 proper).2
    · cases leaves
  | readInt =>
    rcases leaves with ⟨line, used⟩
    rcases Option.map_eq_some_iff.1 used with ⟨n, _, rfl⟩
    exact List.forall_mem_cons.2 ⟨Value.proper_int n, proper⟩
  | readString =>
    rcases leaves with ⟨line, used⟩
    cases used
    exact List.forall_mem_cons.2 ⟨trivial, proper⟩
  | print =>
    dsimp only at leaves
    split at leaves
    · cases leaves
      exact proper
    · cases leaves
  | newline =>
    cases leaves
    exact proper
  | binary op => exact op.proper_combine leaves proper

theorem meaningful_of_leaves
    (leaves : (i.demand constants stack).Leaves stack after) : i.Meaningful := by
  cases i with
  | storeIndexed | pushBool | unknown _ => cases leaves
  | halt | loadConst _ | pop | drop | readInt | readString | print | newline
  | binary _ => trivial

end Instruction

/-! ## Steps -/

namespace Machine

variable {program : Program} {m : Machine} {console : Console}

theorem inOrder_start (program : Program) :
    InOrder program (Machine.start program) where
  loaded := rfl
  counted := rfl
  inside := Nat.zero_le _
  halted_iff := by
    constructor
    · intro ended
      cases ended
    · intro position
      exact absurd position.1 (Nat.not_succ_le_zero 0)
  once := fun k before => absurd before (Nat.not_lt_zero k)
  meaningful := fun k before => absurd before (Nat.not_lt_zero k)
  proper := List.forall_mem_nil _

/-- A machine that still runs has not passed a `halt`. -/
theorem InOrder.not_halt (inOrder : InOrder program m)
    (running : m.halted = false) {k : Nat} (before : k < m.pc) :
    program.code[k]? ≠ some .halt := by
  intro found
  have last := inOrder.once k before found
  have ended : m.halted = true :=
    inOrder.halted_iff.2 ⟨by omega, last ▸ found⟩
  rw [running] at ended
  cases ended

/-- An instruction that was carried out keeps the machine in order. -/
theorem InOrder.advance (inOrder : InOrder program m)
    (running : m.halted = false) {i : Instruction} {stack : Stack}
    {progress : Progress} (found : m.program.code[m.pc]? = some i)
    (ends : progress = .halted ↔ i = .halt) (meaningful : i.Meaningful)
    (proper : ∀ v ∈ stack, v.Proper) :
    InOrder program (m.advance stack progress) := by
  have loaded := inOrder.loaded
  subst loaded
  have here : ∀ k < m.pc + 1, k < m.pc ∨ k = m.pc := by omega
  constructor
  case loaded => rfl
  case counted => exact congrArg (· + 1) inOrder.counted
  case inside => exact (List.getElem?_eq_some_iff.1 found).1
  case halted_iff =>
    change decide (progress = .halted) = true ↔
      1 ≤ m.pc + 1 ∧ m.program.code[m.pc]? = some .halt
    rw [decide_eq_true_iff, ends, found, Option.some.injEq]
    exact ⟨fun isHalt => ⟨Nat.le_add_left 1 m.pc, isHalt⟩, fun position => position.2⟩
  case once =>
    intro k before isHalt
    rcases here k before with earlier | last
    · exact absurd isHalt (inOrder.not_halt running earlier)
    · exact last
  case meaningful =>
    intro k before j foundThere
    rcases here k before with earlier | rfl
    · exact inOrder.meaningful k earlier j foundThere
    · cases found.symm.trans foundThere
      exact meaningful
  case proper => exact proper

theorem InOrder.stepped (inOrder : InOrder program m) {s : Outcome Progress}
    (stepped : Stepped m console s) : InOrder program s.machine := by
  cases stepped with
  | ended _ | outside _ _ | failed _ _ _ => exact inOrder
  | halts running found _ =>
    exact inOrder.advance running found (iff_of_true rfl rfl) trivial
      inOrder.proper
  | goesOn running found notHalt effect =>
    have leaves := Instruction.leaves_of_execute effect
    exact inOrder.advance running found (iff_of_false nofun notHalt)
      (Instruction.meaningful_of_leaves leaves)
      (Instruction.proper_of_leaves leaves inOrder.proper)

theorem Reachable.inOrder (reachable : Reachable program m) :
    InOrder program m := by
  induction reachable with
  | start => exact inOrder_start program
  | step console _ ih => exact ih.stepped (step_stepped _ console)

/-- Once a program has ended, steps and runs succeed and do nothing. -/
theorem idle_of_halted (ended : m.halted = true) (console : Console) :
    m.step console = ⟨.ok .halted, m, console, []⟩ ∧
      m.run console = ⟨.ok (), m, console, []⟩ :=
  ⟨(Stepped.ended ended).eq_step, (Ran.ended ended).eq_run⟩

end Machine

/-! ## Uses -/

/-- A machine and the streams that it is connected to. -/
structure Rig where
  machine : Machine
  console : Console

/-- Something done with a machine. -/
inductive Use where
  /-- One instruction is carried out, or fails. -/
  | step
  /-- The program is run until it ends or fails. -/
  | run
  /-- More input is added. -/
  | feed (more : Bytes)
  /-- Other streams take the place of the ones there were. -/
  | connect (console : Console)

namespace Rig

/-- What is left of a rig by one use. -/
def use (rig : Rig) : Use → Rig
  | .step =>
    let o := rig.machine.step rig.console
    ⟨o.machine, o.console⟩
  | .run =>
    let o := rig.machine.run rig.console
    ⟨o.machine, o.console⟩
  | .feed more =>
    { rig with
      console := { rig.console with input := rig.console.input.feed more } }
  | .connect console => { rig with console := console }

/-- What is left of a rig by a sequence of uses. -/
def after (rig : Rig) (uses : List Use) : Rig :=
  uses.foldl use rig

theorem reachable_use {program : Program} {rig : Rig}
    (reachable : Machine.Reachable program rig.machine) (u : Use) :
    Machine.Reachable program (rig.use u).machine := by
  cases u with
  | step => exact reachable.step rig.console
  | run => exact reachable.run rig.console
  | feed _ | connect _ => exact reachable

theorem reachable_after {program : Program} {rig : Rig}
    (reachable : Machine.Reachable program rig.machine) (uses : List Use) :
    Machine.Reachable program (rig.after uses).machine := by
  induction uses generalizing rig with
  | nil => exact reachable
  | cons u uses ih => exact ih (reachable_use reachable u)

/-- However a machine is used after its start, it is in order; and if its program
has ended, every step and every run of it succeeds and leaves the machine and the
streams as they are. -/
theorem inOrder_after (program : Program) (console : Console) (uses : List Use) :
    let m := (Rig.mk (Machine.start program) console |>.after uses).machine
    m.InOrder program ∧
      (m.halted = true → ∀ streams,
        m.step streams = ⟨.ok .halted, m, streams, []⟩ ∧
          m.run streams = ⟨.ok (), m, streams, []⟩) := by
  intro m
  have reachable : Machine.Reachable program m :=
    reachable_after .start uses
  exact ⟨reachable.inOrder, Machine.idle_of_halted⟩

/-- A run that stops for lack of input, and is taken up again with more. -/
theorem inOrder_after_resumed :
    let program : Program :=
      ⟨[.int 2], [.loadConst 0, .readInt, .binary .add, .print, .halt]⟩
    let console := Console.fresh (Source.ofBytes []) Sink.unlimited
    let uses := [.run, .feed [0x34, 0x30, 0x0A], .step, .run]
    let m := (Rig.mk (Machine.start program) console |>.after uses).machine
    m.halted = true ∧ m.InOrder program ∧
      m.step console = ⟨.ok .halted, m, console, []⟩ ∧
        m.run console = ⟨.ok (), m, console, []⟩ := by
  intro program console uses m
  have ended : m.halted = true := by decide
  obtain ⟨inOrder, idle⟩ := inOrder_after program console uses
  exact ⟨ended, inOrder, idle ended console⟩

end Rig

end Bytecode
