import Bytecode.Proofs.FailedSteps

/-!
Values below the part of the stack that a program uses.

Instructions reach for the top of the stack only, and the one thing that can tell
how much lies below it is the test for too few values. So an instruction that
does not fail that test asks the same of the streams when more values lie at the
bottom (`Instruction.demand_atop`), and leaves them there. A run that does not
end with that failure is therefore the same run above any other values: the
machines differ in the bottom of their stacks and in nothing else, step after
step (`Machine.run_atop`).

The top of a stack comes first, so `stack ++ below` is a stack above other
values.
-/

namespace Bytecode

/-! ## Above other values -/

/-- The demand of an instruction that finds its stack above other values. -/
def Demand.atop (below : Stack) : Demand → Demand
  | quiet result => quiet (result.map (· ++ below))
  | output bytes => output bytes
  | input use => input fun line => (use line).map (· ++ below)
  | ending => ending

/-- The effect with the stack above other values. -/
def Effect.atop (below : Stack) (e : Effect) : Effect :=
  { e with stack := e.stack ++ below }

/-- The machine with its stack above other values. -/
def Machine.atop (below : Stack) (m : Machine) : Machine :=
  { m with stack := m.stack ++ below }

/-- The fault of a machine whose stack lies above other values: they count, and
that is all. -/
def Fault.atop (below : Stack) (fault : Fault) : Fault :=
  { fault with depth := fault.depth + below.depth }

/-- Two outcomes that differ in the values at the bottom of the stack only. Of
the log nothing is said: its records tell how deep the stack is. -/
structure Outcome.Atop (below : Stack) (o o' : Outcome Unit) : Prop where
  result : o'.result = o.result.mapError (Fault.atop below)
  machine : o'.machine = o.machine.atop below
  console : o'.console = o.console

theorem Machine.fault_atop (m : Machine) (below : Stack) (trap : Trap)
    (i : Option Instruction) :
    (m.atop below).fault trap i = (m.fault trap i).atop below := by
  unfold fault atop Fault.atop Stack.depth
  dsimp only
  rw [List.length_append]

/-! ## Instructions -/

theorem BinaryOp.combine_atop {op : BinaryOp} {stack : Stack}
    (enough : op.combine stack ≠ .error .stackUnderflow) (below : Stack) :
    op.combine (stack ++ below) = (op.combine stack).map (· ++ below) := by
  rcases stack with _ | ⟨right, _ | ⟨left, rest⟩⟩
  · exact absurd rfl enough
  · exact absurd rfl enough
  · unfold combine
    dsimp only [List.cons_append]
    cases left.int? with
    | none => rfl
    | some a =>
      cases right.int? with
      | none => rfl
      | some b =>
        dsimp only
        cases op.apply a b with
        | error trap => rfl
        | ok result => rfl

/-- An instruction that finds enough values asks for the same above others. -/
theorem Instruction.demand_atop {i : Instruction} {constants : ConstantPool}
    {stack : Stack}
    (enough : i.demand constants stack ≠ .quiet (.error .stackUnderflow))
    (below : Stack) :
    i.demand constants (stack ++ below) = (i.demand constants stack).atop below := by
  cases i with
  | halt | newline | storeIndexed | pushBool | unknown _ | readString => rfl
  | loadConst index =>
    unfold demand
    dsimp only
    cases constants.lookup index with
    | ok constant => rfl
    | error e => rfl
  | pop | drop | print =>
    cases stack with
    | nil => exact absurd rfl enough
    | cons top rest => rfl
  | readInt =>
    unfold demand Demand.atop
    simp only [Option.map_map]
    rfl
  | binary op =>
    have found : op.combine stack ≠ .error .stackUnderflow :=
      fun few => enough (congrArg Demand.quiet few)
    exact congrArg Demand.quiet (op.combine_atop found below)

/-- What is demanded above other values is done above them. -/
theorem Demand.meet_atop (demand : Demand) (stack : Stack) (console : Console)
    (below : Stack) :
    (demand.atop below).meet (stack ++ below) console =
      (demand.meet stack console).atop below := by
  cases demand with
  | quiet result =>
    cases result with
    | error trap => rfl
    | ok after => rfl
  | output bytes =>
    unfold atop meet Effect.write
    dsimp only
    rcases console.write bytes with ⟨result, console'⟩
    cases result with
    | error reason => rfl
    | ok _ => rfl
  | input use =>
    unfold atop meet
    dsimp only
    rcases console.ask with ⟨answer, console'⟩
    cases answer with
    | error trap => rfl
    | ok line =>
      dsimp only
      cases use line with
      | none => rfl
      | some after => rfl
  | ending =>
    unfold atop meet
    dsimp only
    rcases console.flush with ⟨result, console'⟩
    cases result with
    | error reason => rfl
    | ok _ => rfl

/-- An instruction that does not run out of values does the same above others. -/
theorem Instruction.execute_atop {i : Instruction} {constants : ConstantPool}
    {stack : Stack} {console : Console} {e : Effect}
    (effect : i.execute constants stack console = e)
    (enough : e.result ≠ .error .stackUnderflow) (below : Stack) :
    i.execute constants (stack ++ below) console = e.atop below := by
  rw [execute_eq_meet] at effect
  have found : i.demand constants stack ≠ .quiet (.error .stackUnderflow) := by
    intro few
    rw [few] at effect
    rw [← effect] at enough
    exact enough rfl
  rw [execute_eq_meet, demand_atop found below, Demand.meet_atop, effect]

/-! ## Runs -/

namespace Machine

variable {m : Machine} {console : Console}

/-- Along a run that does not run out of values, every rule applies above other
values as well. -/
theorem Ran.atop {o : Outcome Unit} (ran : Ran m console o)
    (enough : ∀ fault, o.result = .error fault → fault.trap ≠ .stackUnderflow)
    (below : Stack) :
    ∃ o', Ran (m.atop below) console o' ∧ o.Atop below o' := by
  induction ran with
  | ended ended => exact ⟨_, .ended ended, rfl, rfl, rfl⟩
  | outside running missing =>
    refine ⟨_, .outside running missing, ?_, rfl, rfl⟩
    rw [fault_atop]
    rfl
  | @failed m i trap console console' running found effect =>
    have other : (Effect.failed trap m.stack console').result ≠
        .error .stackUnderflow := fun few => enough _ rfl (Except.error.inj few)
    have above := Instruction.execute_atop effect other below
    refine ⟨_, .failed (m := m.atop below) running found above, ?_, rfl, rfl⟩
    rw [fault_atop]
    rfl
  | @halts m console console' running found effect =>
    have above := Instruction.execute_atop effect nofun below
    exact ⟨_, .halts (m := m.atop below) running found above, rfl, rfl, rfl⟩
  | @goesOn m i stack console console' o running found notHalt effect _ ih =>
    have above := Instruction.execute_atop effect nofun below
    obtain ⟨o', rest, same⟩ := ih enough
    exact ⟨_, .goesOn (m := m.atop below) running found notHalt above rest,
      same.result, same.machine, same.console⟩

/-- A run that does not end for lack of values goes the same way above any other
values: it ends alike, after the same steps and the same use of the streams, and
with these values untouched at the bottom of the stack. Only the depth that a
fault tells takes them in. -/
theorem run_atop (m : Machine) (console : Console) (below : Stack)
    (enough : ∀ fault, (m.run console).result = .error fault →
      fault.trap ≠ .stackUnderflow) :
    (m.run console).Atop below ((m.atop below).run console) := by
  obtain ⟨o', ran, same⟩ := (m.run_ran console).atop enough below
  rw [ran.eq_run]
  exact same

/-- A run from the second instruction on that reads a line, writes it, and fails
to divide by it: two values below its stack are not looked at, and count. -/
theorem run_atop_remainder :
    let m : Machine :=
      ⟨⟨[], [.pop, .readInt, .print, .binary .mod, .halt]⟩, [.int 5], 1, 1, false⟩
    let console := Console.fresh (Source.ofBytes [0x30, 0x0A, 0x37]) Sink.unlimited
    let below : Stack := [.bool true, .str "x"]
    (m.run console).result = .error ⟨.divisionByZero, 3, some (.binary .mod), 2⟩ ∧
      ((m.atop below).run console).result =
        .error ⟨.divisionByZero, 3, some (.binary .mod), 4⟩ ∧
      ((m.atop below).run console).machine.stack =
        [.int 0, .int 5, .bool true, .str "x"] ∧
      ((m.atop below).run console).machine.steps = 3 ∧
      ((m.atop below).run console).console = (m.run console).console ∧
      (m.run console).console.events = [.flush, .read, .write [0x30]] := by
  intro m console below
  have ended : (m.run console).result =
      .error ⟨.divisionByZero, 3, some (.binary .mod), 2⟩ := by rfl
  have machine : (m.run console).machine =
      { m with stack := [.int 0, .int 5], pc := 3, steps := 3 } := by rfl
  obtain ⟨result, above, same⟩ := run_atop m console below (by
    intro fault failed
    rw [ended] at failed
    cases failed
    nofun)
  rw [ended] at result
  rw [machine] at above
  exact ⟨ended, result, congrArg Machine.stack above, congrArg Machine.steps above,
    same, by rfl⟩

end Machine

end Bytecode
