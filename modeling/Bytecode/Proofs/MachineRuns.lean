import Bytecode.Machine

/-!
Steps and runs of the machine, by cases.

`Instruction.Carried` lists what can come of an instruction, `Machine.Stepped`
what can come of a step, and `Machine.Ran` is the run of a machine as rules: one
for each way in which it can stop and one for a step after which it goes on. The
machine itself follows them, so a statement about every run is an induction over
`Ran` with a case for each rule, in which the program and the amount of steps
allowed to `runFor` play no part.

`Machine.Reachable` takes in every machine that comes of a program, where each
step may meet streams of its own.
-/

namespace Bytecode

/-! ## Instructions -/

/-- What can come of an instruction: it fails and leaves the stack alone, it
ends the program and leaves the stack alone, or the program goes on. -/
inductive Instruction.Carried (stack : Stack) : Instruction → Effect → Prop
  | failed {i : Instruction} (trap : Trap) (console : Console) :
    Carried stack i (.failed trap stack console)
  | halted (console : Console) : Carried stack .halt ⟨.ok .halted, stack, console⟩
  | done {i : Instruction} (after : Stack) (console : Console) :
    i ≠ .halt → Carried stack i (.done after console)

theorem Effect.write_carried (bytes : Bytes) (stack : Stack)
    (console : Console) {i : Instruction} (goesOn : i ≠ .halt) :
    i.Carried stack (Effect.write bytes stack console) := by
  unfold Effect.write
  split
  · exact .done _ _ goesOn
  · exact .failed _ _

theorem BinaryOp.execute_carried (op : BinaryOp) (stack : Stack)
    (console : Console) :
    Instruction.Carried stack (.binary op) (op.execute stack console) := by
  unfold BinaryOp.execute
  split
  · split
    · split
      · exact .done _ _ nofun
      · exact .failed _ _
    · exact .failed _ _
  · exact .failed _ _

theorem Instruction.execute_carried (i : Instruction)
    (constants : ConstantPool) (stack : Stack) (console : Console) :
    i.Carried stack (i.execute constants stack console) := by
  cases i with
  | halt =>
    unfold execute
    dsimp only
    split
    · exact .halted _
    · exact .failed _ _
  | loadConst index =>
    unfold execute
    dsimp only
    split
    · exact .done _ _ nofun
    · exact .failed _ _
  | pop | drop =>
    unfold execute
    dsimp only
    split
    · exact .done _ _ nofun
    · exact .failed _ _
  | readInt =>
    unfold execute
    dsimp only
    split
    · exact .failed _ _
    · split
      · exact .done _ _ nofun
      · exact .failed _ _
  | readString =>
    unfold execute
    dsimp only
    split
    · exact .failed _ _
    · exact .done _ _ nofun
  | print =>
    unfold execute
    dsimp only
    split
    · exact Effect.write_carried _ _ _ nofun
    · exact .failed _ _
  | newline => exact Effect.write_carried _ _ _ nofun
  | storeIndexed | pushBool | unknown _ => exact .failed _ _
  | binary op => exact op.execute_carried stack console

namespace Machine

/-! ## Steps -/

/-- The machine after an instruction that was carried out. -/
def advance (m : Machine) (stack : Stack) (progress : Progress) : Machine :=
  { m with
    stack := stack
    pc := m.pc + 1
    steps := m.steps + 1
    halted := progress = .halted }

/-- What can come of a step. -/
inductive Stepped (m : Machine) (console : Console) : Outcome Progress → Prop
  | ended :
    m.halted = true → Stepped m console ⟨.ok .halted, m, console, []⟩
  | outside :
    m.halted = false → m.program.code[m.pc]? = none →
    Stepped m console
      ⟨.error (m.fault (.outOfProgram m.pc) none), m, console, []⟩
  | failed {i : Instruction} {trap : Trap} {console' : Console} :
    m.halted = false → m.program.code[m.pc]? = some i →
    i.execute m.program.constants m.stack console =
      .failed trap m.stack console' →
    Stepped m console
      ⟨.error (m.fault trap (some i)), m, console', [m.record i]⟩
  | halts {console' : Console} :
    m.halted = false → m.program.code[m.pc]? = some .halt →
    Instruction.halt.execute m.program.constants m.stack console =
      ⟨.ok .halted, m.stack, console'⟩ →
    Stepped m console
      ⟨.ok .halted, m.advance m.stack .halted, console', [m.record .halt]⟩
  | goesOn {i : Instruction} {stack : Stack} {console' : Console} :
    m.halted = false → m.program.code[m.pc]? = some i → i ≠ .halt →
    i.execute m.program.constants m.stack console = .done stack console' →
    Stepped m console
      ⟨.ok .running, m.advance stack .running, console', [m.record i]⟩

theorem step_stepped (m : Machine) (console : Console) :
    Stepped m console (m.step console) := by
  unfold step
  cases ended : m.halted with
  | true => exact .ended ended
  | false =>
    rw [if_neg Bool.false_ne_true]
    cases found : m.program.code[m.pc]? with
    | none => exact .outside ended found
    | some i =>
      dsimp only
      have carried :=
        i.execute_carried m.program.constants m.stack console
      generalize effectEq : i.execute m.program.constants m.stack console =
        effect at carried
      cases carried with
      | failed trap console' => exact .failed ended found effectEq
      | halted console' => exact .halts ended found effectEq
      | done stack console' notHalt =>
        exact .goesOn ended found notHalt effectEq

/-- The cases of a step exclude each other. -/
theorem Stepped.eq_step {m : Machine} {console : Console} {s : Outcome Progress}
    (stepped : Stepped m console s) : m.step console = s := by
  unfold step
  cases stepped with
  | ended ended => rw [if_pos ended]
  | outside running missing =>
    rw [if_neg (Bool.eq_false_iff.1 running), missing]
  | failed running found effect =>
    rw [if_neg (Bool.eq_false_iff.1 running), found]
    dsimp only
    rw [effect]
    rfl
  | halts running found effect =>
    rw [if_neg (Bool.eq_false_iff.1 running), found]
    dsimp only
    rw [effect]
    rfl
  | goesOn running found notHalt effect =>
    rw [if_neg (Bool.eq_false_iff.1 running), found]
    dsimp only
    rw [effect]
    rfl

/-! ## Runs -/

/-- The run of a machine, rule by rule. -/
inductive Ran : Machine → Console → Outcome Unit → Prop
  | ended {m : Machine} {console : Console} :
    m.halted = true → Ran m console ⟨.ok (), m, console, []⟩
  | outside {m : Machine} {console : Console} :
    m.halted = false → m.program.code[m.pc]? = none →
    Ran m console ⟨.error (m.fault (.outOfProgram m.pc) none), m, console, []⟩
  | failed {m : Machine} {i : Instruction} {trap : Trap}
      {console console' : Console} :
    m.halted = false → m.program.code[m.pc]? = some i →
    i.execute m.program.constants m.stack console =
      .failed trap m.stack console' →
    Ran m console ⟨.error (m.fault trap (some i)), m, console', [m.record i]⟩
  | halts {m : Machine} {console console' : Console} :
    m.halted = false → m.program.code[m.pc]? = some .halt →
    Instruction.halt.execute m.program.constants m.stack console =
      ⟨.ok .halted, m.stack, console'⟩ →
    Ran m console
      ⟨.ok (), m.advance m.stack .halted, console', [m.record .halt]⟩
  | goesOn {m : Machine} {i : Instruction} {stack : Stack}
      {console console' : Console} {o : Outcome Unit} :
    m.halted = false → m.program.code[m.pc]? = some i → i ≠ .halt →
    i.execute m.program.constants m.stack console = .done stack console' →
    Ran (m.advance stack .running) console' o →
    Ran m console { o with log := m.record i :: o.log }

/-- Whatever number of steps is allowed, a run that comes to an end follows the
rules. -/
theorem ran_of_runFor {fuel : Nat} {m : Machine} {console : Console}
    {o : Outcome Unit} (finished : m.runFor fuel console = some o) :
    Ran m console o := by
  induction fuel generalizing m console o with
  | zero => cases finished
  | succ fuel ih =>
    unfold runFor at finished
    have stepped := m.step_stepped console
    generalize m.step console = s at stepped finished
    cases stepped with
    | ended ended =>
      cases finished
      exact .ended ended
    | outside running missing =>
      cases finished
      exact .outside running missing
    | failed running found effect =>
      cases finished
      exact .failed running found effect
    | halts running found effect =>
      cases finished
      exact .halts running found effect
    | goesOn running found notHalt effect =>
      rcases Option.map_eq_some_iff.1 finished with ⟨rest, ran, rfl⟩
      exact .goesOn running found notHalt effect (ih ran)

/-- The machine follows the rules. -/
theorem run_ran (m : Machine) (console : Console) :
    Ran m console (m.run console) :=
  ran_of_runFor (Option.some_get _).symm

/-- The rules leave no choice, and a run by the rules takes at most one step for
each instruction that is left, and one more. -/
theorem Ran.runFor_eq {m : Machine} {console : Console} {o : Outcome Unit}
    (ran : Ran m console o) {fuel : Nat}
    (enough : m.program.code.length - m.pc ≤ fuel) :
    m.runFor (fuel + 1) console = some o := by
  unfold runFor
  induction ran generalizing fuel with
  | ended ended =>
    rw [(Stepped.ended ended).eq_step]
    rfl
  | outside running missing =>
    rw [(Stepped.outside running missing).eq_step]
    rfl
  | failed running found effect =>
    rw [(Stepped.failed running found effect).eq_step]
    rfl
  | halts running found effect =>
    rw [(Stepped.halts running found effect).eq_step]
    rfl
  | @goesOn m i stack console console' o running found notHalt effect _ ih =>
    rw [(Stepped.goesOn running found notHalt effect).eq_step]
    have inside := (List.getElem?_eq_some_iff.1 found).1
    cases fuel with
    | zero => omega
    | succ fuel =>
      have left : (m.advance stack .running).program.code.length -
          (m.advance stack .running).pc ≤ fuel := by
        change m.program.code.length - (m.pc + 1) ≤ fuel
        omega
      unfold Outcome.andThen runFor
      dsimp only
      rw [ih left]
      rfl

theorem Ran.eq_run {m : Machine} {console : Console} {o : Outcome Unit}
    (ran : Ran m console o) : m.run console = o := by
  have finished : m.runFor m.allowance console = some o :=
    ran.runFor_eq (Nat.le_refl _)
  unfold run
  simp only [finished, Option.get_some]

/-! ## Reachable machines -/

/-- The machines that a program brings about: the machine at its start, and
whatever a step makes of such a machine, with any streams. -/
inductive Reachable (program : Program) : Machine → Prop
  | start : Reachable program (Machine.start program)
  | step {m : Machine} (console : Console) :
    Reachable program m → Reachable program (m.step console).machine

theorem Reachable.stepped {program : Program} {m : Machine} {s : Outcome Progress}
    {console : Console} (reachable : Reachable program m)
    (stepped : Stepped m console s) : Reachable program s.machine :=
  stepped.eq_step ▸ reachable.step console

/-- A run stops in a machine that single steps reach. -/
theorem Reachable.run {program : Program} {m : Machine}
    (reachable : Reachable program m) (console : Console) :
    Reachable program (m.run console).machine := by
  have ran := m.run_ran console
  generalize m.run console = o at ran
  induction ran with
  | ended _ | outside _ _ | failed _ _ _ => exact reachable
  | halts running found effect =>
    exact reachable.stepped (.halts running found effect)
  | goesOn running found notHalt effect _ ih =>
    exact ih (reachable.stepped (.goesOn running found notHalt effect))

end Machine

end Bytecode
