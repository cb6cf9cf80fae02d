import Bytecode.Proofs.FileRoundtrip
import Bytecode.Proofs.MachineRuns

/-!
Programs that are written to a file and loaded again.

A file gives back the code up to the first `halt`. No run gets past that `halt`,
so two programs that agree up to it have the same runs: the machines differ in
the program they hold and in nothing else, step after step. Hence a program and
what its file gives back cannot be told apart by executing them, even where the
two programs differ.
-/

namespace Bytecode

/-! ## Programs that agree up to a `halt` -/

/-- Two programs with the same constants and the same code up to a `halt` at a
given place. -/
structure Program.AgreeUpTo (stop : Nat) (program other : Program) : Prop where
  constants : other.constants = program.constants
  code : ∀ pc ≤ stop, other.code[pc]? = program.code[pc]?
  halt : program.code[stop]? = some .halt

namespace Machine

/-- The machine with another program in the place of its own. -/
def load (other : Program) (m : Machine) : Machine :=
  { m with program := other }

/-- Along a run that starts no later than the common `halt`, every rule applies
to the other program as well. -/
theorem Ran.load {stop : Nat} {program other : Program} {m : Machine}
    {console : Console} {o : Outcome Unit} (ran : Ran m console o)
    (agree : program.AgreeUpTo stop other) (loaded : m.program = program)
    (within : m.halted = false → m.pc ≤ stop) :
    Ran (m.load other) console { o with machine := o.machine.load other } := by
  induction ran with
  | ended ended => exact .ended ended
  | outside running missing =>
    subst loaded
    have same := agree.code _ (within running)
    exact .outside running (same.trans missing)
  | failed running found effect =>
    subst loaded
    have same := agree.code _ (within running)
    rw [← agree.constants] at effect
    exact .failed running (same.trans found) effect
  | halts running found effect =>
    subst loaded
    have same := agree.code _ (within running)
    rw [← agree.constants] at effect
    exact .halts running (same.trans found) effect
  | @goesOn m i stack console console' o running found notHalt effect _ ih =>
    subst loaded
    have same := agree.code _ (within running)
    -- The instruction at the common `halt` cannot go on, so this one is earlier.
    have earlier : m.pc ≠ stop := by
      intro atStop
      rw [atStop, agree.halt] at found
      exact notHalt (Option.some.inj found).symm
    have next : (m.advance stack .running).pc ≤ stop := by
      have before := within running
      change m.pc + 1 ≤ stop
      omega
    rw [← agree.constants] at effect
    exact .goesOn (m := m.load other) running (same.trans found) notHalt effect
      (ih rfl fun _ => next)

end Machine

/-- Two executions that look the same from outside: they end alike, leave the
same stack after the same number of steps, and have done the same to the
streams. -/
structure Outcome.Alike (o o' : Outcome Unit) : Prop where
  result : o'.result = o.result
  stack : o'.machine.stack = o.machine.stack
  steps : o'.machine.steps = o.machine.steps
  console : o'.console = o.console

theorem execute_alike {stop : Nat} {program other : Program}
    (agree : program.AgreeUpTo stop other) (console : Console) :
    (execute program console).Alike (execute other console) := by
  have ran := ((Machine.start program).run_ran console).load agree rfl
    fun _ => Nat.zero_le stop
  have runEq : (Machine.start other).run console = _ := ran.eq_run
  unfold execute
  rw [runEq]
  generalize (Machine.start program).run console = o
  rcases o with ⟨result, machine, console', log⟩
  cases result with
  | ok _ => exact ⟨rfl, rfl, rfl, rfl⟩
  | error fault =>
    dsimp only
    split
    · exact ⟨rfl, rfl, rfl, rfl⟩
    · exact ⟨rfl, rfl, rfl, rfl⟩

/-! ## Loading a program that was written -/

namespace Program

/-- A program whose file can be read, and gives a program with the same
constants that cannot be told apart from it by executing the two. -/
def ReloadsAlike (program : Program) : Prop :=
  ∃ reloaded, decode program.encode = .ok reloaded ∧
    reloaded.constants = program.constants ∧
      ∀ console, (execute program console).Alike (execute reloaded console)

/-- Cutting the code after its first `halt` leaves a program that agrees. -/
theorem agreeUpTo_cut (constants : ConstantPool) (front rest : Code) :
    AgreeUpTo front.length ⟨constants, front ++ .halt :: rest⟩
      ⟨constants, front ++ [.halt]⟩ where
  constants := rfl
  code := by
    intro pc within
    dsimp only
    by_cases atHalt : pc = front.length
    · rw [atHalt, List.getElem?_append_right (Nat.le_refl _),
        List.getElem?_append_right (Nat.le_refl _), Nat.sub_self]
      rfl
    · have before : pc < front.length := by omega
      rw [List.getElem?_append_left before, List.getElem?_append_left before]
  halt := by
    dsimp only
    rw [List.getElem?_append_right (Nat.le_refl _), Nat.sub_self]
    rfl

theorem reloadsAlike {program : Program} (ends : .halt ∈ program.code)
    (genuine : ∀ i ∈ program.code, i.Genuine) : program.ReloadsAlike := by
  rcases program with ⟨constants, code⟩
  obtain ⟨front, rest, codeEq, goesOn⟩ := List.eq_append_cons_of_mem ends
  dsimp only at codeEq genuine
  subst codeEq
  have front_genuine : ∀ i ∈ front, i.Genuine :=
    fun i member => genuine i (List.mem_append_left _ member)
  have decoded : Code.decode? (Code.encode (front ++ .halt :: rest) ++ []) =
      some (front ++ [.halt], Code.encode rest ++ []) := by
    rw [Code.encode_append, Code.encode_cons, List.append_assoc,
      List.append_assoc]
    exact Code.decode?_encode_halt goesOn front_genuine _
  have reloaded :=
    (decode_encode_eq_ok_iff ⟨constants, front ++ .halt :: rest⟩
      ⟨constants, front ++ [.halt]⟩ []).2 ⟨rfl, _, decoded⟩
  rw [List.append_nil] at reloaded
  exact ⟨_, reloaded, rfl, execute_alike (agreeUpTo_cut constants front rest)⟩

theorem Builder.halt_mem_build (b : Builder) : .halt ∈ b.build.code := by
  unfold build
  split
  · next ends => exact List.mem_of_getLast? ends
  · exact List.mem_append_right _ List.mem_cons_self

theorem Builder.genuine_build {b : Builder} (genuine : ∀ i ∈ b.code, i.Genuine) :
    ∀ i ∈ b.build.code, i.Genuine := by
  unfold build
  split
  · exact genuine
  · intro i member
    rcases List.mem_append.1 member with member | member
    · exact genuine i member
    · rw [List.mem_singleton.1 member]
      trivial

/-- A program with a `halt` somewhere whose instructions mean what their opcodes
mean can be loaded from its file, and what is loaded behaves like it; every
finished program under construction has such a `halt`. -/
theorem reloaded_alike :
    (∀ program : Program, .halt ∈ program.code →
      (∀ i ∈ program.code, i.Genuine) → program.ReloadsAlike) ∧
    ∀ b : Builder, (∀ i ∈ b.code, i.Genuine) → b.build.ReloadsAlike := by
  refine ⟨fun program => reloadsAlike, fun b genuine => ?_⟩
  exact reloadsAlike b.halt_mem_build (Builder.genuine_build genuine)

/-- A program that its file cuts: the operand before the first `halt` holds zero
bytes, and what follows that `halt` is lost. -/
theorem reloaded_alike_cut :
    let program : Program :=
      ⟨[.int 7], [.loadConst 0, .print, .halt, .unknown 0x13, .pop, .halt]⟩
    (.halt ∈ program.code ∧ ∀ i ∈ program.code, i.Genuine) ∧
      ¬ program.code.Canonical ∧ program.ReloadsAlike := by
  intro program
  have ends : .halt ∈ program.code := by decide
  have genuine : ∀ i ∈ program.code, i.Genuine := by decide
  refine ⟨⟨ends, genuine⟩, ?_, reloaded_alike.1 program ends genuine⟩
  intro canonical
  exact absurd canonical.once (by decide)

end Program

end Bytecode
