import Bytecode.Proofs.Demands
import Bytecode.Proofs.MachineRuns

/-!
What the text of a program decides about its runs.

`Program.walk` goes through the code with the names of the types that would be
on the stack, and with no values and no streams. It stops at the first `halt`,
or at the first instruction that has to fail. The stack of a running machine
always has the types that the walk has at the same place. So a run that does not
stop where the walk does has been stopped before by what was read or by a
stream, and one that gets as far fails there exactly as the walk says.
-/

namespace Bytecode

/-! ## The walk -/

/-- What the types on the stack tell about an instruction. -/
inductive Forecast where
  /-- It leaves these types, unless what is read or a stream stops it. -/
  | goesOn (types : List String)
  /-- It ends the program, unless a stream stops it. -/
  | ends
  /-- It fails. -/
  | fails (trap : Trap)
deriving DecidableEq

/-- The forecast for an instruction, given the types on the stack, the top
first. -/
def Instruction.forecast (i : Instruction) (constants : ConstantPool)
    (types : List String) : Forecast :=
  match i with
  | halt => .ends
  | loadConst index =>
    match constants[index.toNat]? with
    | some constant => .goesOn (constant.typeName :: types)
    | none => .fails (.indexOutOfRange index)
  | pop | drop =>
    match types with
    | _ :: below => .goesOn below
    | [] => .fails .stackUnderflow
  | readInt => .goesOn ("Int" :: types)
  | readString => .goesOn ("Str" :: types)
  | print => if types = [] then .fails .stackUnderflow else .goesOn types
  | newline => .goesOn types
  | storeIndexed | pushBool => .fails (.unsupported i.opcode)
  | binary op =>
    match types with
    | right :: left :: below =>
      if left = "Int" ∧ right = "Int" then .goesOn ("Int" :: below)
      else .fails (.typeMismatch op.mnemonic left right)
    | _ => .fails .stackUnderflow
  | unknown byte => .fails (.illegalInstruction byte)

/-- A walk through code. -/
structure Walk where
  /-- The types before each of the instructions that it passes. -/
  passed : List (List String)
  /-- The types where it stops. -/
  last : List String
  /-- The trap where it stops; there is none at a `halt`. -/
  verdict : Option Trap
deriving DecidableEq

namespace Walk

/-- The place where a walk stops. -/
def stop (walk : Walk) : Nat :=
  walk.passed.length

/-- The types at a place that a walk comes to. -/
def typesAt (walk : Walk) (pc : Nat) : Option (List String) :=
  (walk.passed ++ [walk.last])[pc]?

/-- The walk through code that begins at a given place. -/
def through (constants : ConstantPool) :
    (pc : Nat) → (types : List String) → Code → Walk
  | pc, types, [] => ⟨[], types, some (.outOfProgram pc)⟩
  | pc, types, i :: rest =>
    match i.forecast constants types with
    | .goesOn next =>
      let walk := through constants (pc + 1) next rest
      { walk with passed := types :: walk.passed }
    | .ends => ⟨[], types, none⟩
    | .fails trap => ⟨[], types, some trap⟩

end Walk

/-- The walk through a program. -/
def Program.walk (program : Program) : Walk :=
  Walk.through program.constants 0 [] program.code

/-- The traps that depend on what is read, or on how a stream behaves. -/
def Trap.External : Trap → Prop
  | divisionByZero | notInteger _ | endOfInput | stream _ => True
  | stackUnderflow | indexOutOfRange _ | typeMismatch _ _ _
  | illegalInstruction _ | unsupported _ | outOfProgram _ => False

/-- How a run may end, given the walk through its code: at the end of the
program if the walk comes to it, with the fault that the walk comes to, or
stopped from outside, at the `halt` or before the place where the walk stops. -/
inductive Walk.Foresees (walk : Walk) (code : Code) : Except Fault Unit → Prop
  | ends : walk.verdict = none → Foresees walk code (.ok ())
  | fails {trap : Trap} :
    walk.verdict = some trap →
    Foresees walk code
      (.error ⟨trap, walk.stop, code[walk.stop]?, walk.last.length⟩)
  | stopped {trap : Trap} {pc : Nat} {types : List String} :
    trap.External →
    pc < walk.stop ∨ pc = walk.stop ∧ walk.verdict = none →
    walk.typesAt pc = some types →
    Foresees walk code (.error ⟨trap, pc, code[pc]?, types.length⟩)

/-! ## Where a walk leads -/

namespace Walk

/-- A walk with more instructions passed before it. -/
def after (passed : List (List String)) (walk : Walk) : Walk :=
  { walk with passed := passed ++ walk.passed }

/-- The walk through a program comes to a place with these types, and from there
on it is the walk through the rest of the code. -/
def Passes (program : Program) (pc : Nat) (types : List String) : Prop :=
  ∃ passed, passed.length = pc ∧
    program.walk =
      (through program.constants pc types (program.code.drop pc)).after passed

variable {program : Program} {pc : Nat} {types : List String}

theorem passes_start (program : Program) : Passes program 0 [] :=
  ⟨[], rfl, rfl⟩

theorem typesAt_through (constants : ConstantPool) (pc : Nat)
    (types : List String) (code : Code) :
    (through constants pc types code).typesAt 0 = some types := by
  unfold through
  cases code with
  | nil => rfl
  | cons i rest =>
    dsimp only
    cases i.forecast constants types with
    | goesOn next => rfl
    | ends => rfl
    | fails trap => rfl

theorem Passes.typesAt (passes : Passes program pc types) :
    program.walk.typesAt pc = some types := by
  rcases passes with ⟨passed, length, walkEq⟩
  have first := typesAt_through program.constants pc types (program.code.drop pc)
  unfold Walk.typesAt after at *
  rw [walkEq]
  dsimp only
  rw [List.append_assoc, List.getElem?_append_right (by omega), length,
    Nat.sub_self]
  exact first

theorem Passes.le_stop (passes : Passes program pc types) :
    pc ≤ program.walk.stop := by
  rcases passes with ⟨passed, length, walkEq⟩
  unfold stop after at *
  rw [walkEq, List.length_append]
  omega

/-- The walk from a place where it stops at once. -/
theorem Passes.stops (passes : Passes program pc types)
    {verdict : Option Trap}
    (stopping : through program.constants pc types (program.code.drop pc) =
      ⟨[], types, verdict⟩) :
    program.walk.stop = pc ∧ program.walk.last = types ∧
      program.walk.verdict = verdict := by
  rcases passes with ⟨passed, length, walkEq⟩
  rw [stopping] at walkEq
  rw [walkEq]
  unfold after stop
  dsimp only
  rw [List.append_nil]
  exact ⟨length, rfl, rfl⟩

theorem Passes.outside (passes : Passes program pc types)
    (missing : program.code[pc]? = none) :
    program.walk.stop = pc ∧ program.walk.last = types ∧
      program.walk.verdict = some (.outOfProgram pc) := by
  apply passes.stops
  rw [List.drop_eq_nil_of_le (List.getElem?_eq_none_iff.1 missing)]
  rfl

theorem drop_of_getElem? {code : Code} {i : Instruction}
    (found : code[pc]? = some i) : code.drop pc = i :: code.drop (pc + 1) := by
  rcases List.getElem?_eq_some_iff.1 found with ⟨inside, rfl⟩
  exact List.drop_eq_getElem_cons inside

theorem Passes.ends (passes : Passes program pc types) {i : Instruction}
    (found : program.code[pc]? = some i)
    (forecast : i.forecast program.constants types = .ends) :
    program.walk.stop = pc ∧ program.walk.last = types ∧
      program.walk.verdict = none := by
  apply passes.stops
  rw [drop_of_getElem? found, through, forecast]

theorem Passes.fails (passes : Passes program pc types) {i : Instruction}
    {trap : Trap} (found : program.code[pc]? = some i)
    (forecast : i.forecast program.constants types = .fails trap) :
    program.walk.stop = pc ∧ program.walk.last = types ∧
      program.walk.verdict = some trap := by
  apply passes.stops
  rw [drop_of_getElem? found, through, forecast]

/-- The fault of a walk that stops at a given place. -/
theorem Foresees.of_stop {walk : Walk} {trap : Trap} (code : Code)
    (stops : walk.stop = pc ∧ walk.last = types ∧ walk.verdict = some trap) :
    walk.Foresees code (.error ⟨trap, pc, code[pc]?, types.length⟩) := by
  obtain ⟨rfl, rfl, verdict⟩ := stops
  exact .fails verdict

theorem Passes.goesOn (passes : Passes program pc types) {i : Instruction}
    {next : List String} (found : program.code[pc]? = some i)
    (forecast : i.forecast program.constants types = .goesOn next) :
    Passes program (pc + 1) next := by
  rcases passes with ⟨passed, length, walkEq⟩
  rw [drop_of_getElem? found, through, forecast] at walkEq
  refine ⟨passed ++ [types], ?_, ?_⟩
  · rw [List.length_append, length]
    rfl
  · rw [walkEq]
    unfold after
    dsimp only
    rw [List.append_assoc]
    rfl

end Walk

/-! ## Forecasts and effects -/

/-- The effects that a forecast allows for an instruction that starts with a
given stack. -/
inductive Forecast.Admits (stack : Stack) : Forecast → Effect → Prop
  | done (after : Stack) {console : Console} :
    Admits stack (.goesOn (after.map Value.typeName)) (.done after console)
  | halted {console : Console} :
    Admits stack .ends ⟨.ok .halted, stack, console⟩
  | failed {trap : Trap} {console : Console} :
    Admits stack (.fails trap) (.failed trap stack console)
  | stopped {types : List String} {trap : Trap} {console : Console} :
    trap.External → Admits stack (.goesOn types) (.failed trap stack console)
  | unflushed {reason : String} {console : Console} :
    Admits stack .ends (.failed (.stream reason) stack console)

theorem typeName_ofConstant (c : Constant) :
    (Value.ofConstant c).typeName = c.typeName := by
  cases c with
  | int i => rfl
  | str s => rfl

theorem exists_int {v : Value} (isInt : v.typeName = "Int") :
    ∃ i, v = .int i := by
  cases v with
  | int i => exact ⟨i, rfl⟩
  | str s => simp [Value.typeName] at isInt
  | bool b => simp [Value.typeName] at isInt

theorem int?_eq_none {v : Value} (other : v.typeName ≠ "Int") :
    v.int? = none := by
  cases v with
  | int i => exact absurd rfl other
  | str s => rfl
  | bool b => rfl

theorem external_of_apply {op : BinaryOp} {a b : Int64} {trap : Trap}
    (failed : op.apply a b = .error trap) : trap.External := by
  rw [op.trap_of_apply failed]
  trivial

theorem external_of_ask {console console' : Console} {trap : Trap}
    (failed : console.ask = (.error trap, console')) : trap.External := by
  rcases console.trap_of_ask failed with rfl | ⟨reason, rfl⟩
  · trivial
  · trivial

/-- Writing changes no types, and only the stream can stop it. -/
theorem Effect.write_admitted (bytes : Bytes) (stack : Stack)
    (console : Console) :
    (Forecast.goesOn (stack.map Value.typeName)).Admits stack
      (Effect.write bytes stack console) := by
  unfold Effect.write
  split
  · exact .done stack
  · exact .stopped trivial

theorem BinaryOp.execute_admitted (op : BinaryOp) (constants : ConstantPool)
    (stack : Stack) (console : Console) :
    ((Instruction.binary op).forecast constants
      (stack.map Value.typeName)).Admits stack (op.execute stack console) := by
  unfold BinaryOp.execute Instruction.forecast
  rcases stack with _ | ⟨right, _ | ⟨left, below⟩⟩
  · exact .failed
  · exact .failed
  · -- Types are looked at before values, so a zero divisor comes last.
    simp only [List.map_cons]
    by_cases ints : left.typeName = "Int" ∧ right.typeName = "Int"
    · rw [if_pos ints]
      obtain ⟨a, rfl⟩ := exists_int ints.1
      obtain ⟨b, rfl⟩ := exists_int ints.2
      simp only [Value.int?]
      cases result : op.apply a b with
      | ok c => exact .done (.int c :: below)
      | error trap =>
        exact .stopped (external_of_apply result)
    · rw [if_neg ints]
      have one : left.int? = none ∨ right.int? = none := by
        by_cases leftInt : left.typeName = "Int"
        · exact .inr (int?_eq_none fun rightInt => ints ⟨leftInt, rightInt⟩)
        · exact .inl (int?_eq_none leftInt)
      split
      · next leftInt rightInt =>
        rcases one with none | none
        · cases leftInt.symm.trans none
        · cases rightInt.symm.trans none
      · exact .failed

/-- An instruction does what the types on the stack foretell. -/
theorem Instruction.execute_admitted (i : Instruction)
    (constants : ConstantPool) (stack : Stack) (console : Console) :
    (i.forecast constants (stack.map Value.typeName)).Admits stack
      (i.execute constants stack console) := by
  cases i with
  | halt =>
    unfold execute
    dsimp only
    split
    · exact .halted
    · exact .unflushed
  | loadConst index =>
    unfold execute forecast ConstantPool.lookup
    dsimp only
    cases constants[index.toNat]? with
    | none => exact .failed
    | some c =>
      dsimp only
      rw [← typeName_ofConstant]
      exact .done (.ofConstant c :: stack)
  | pop | drop =>
    unfold execute forecast
    cases stack with
    | nil => exact .failed
    | cons top below => exact .done below
  | readInt =>
    unfold execute
    dsimp only
    split
    · next failed =>
      exact .stopped (external_of_ask failed)
    · split
      · exact .done (.int _ :: stack)
      · exact .stopped trivial
  | readString =>
    unfold execute
    dsimp only
    split
    · next failed =>
      exact .stopped (external_of_ask failed)
    · exact .done (.str _ :: stack)
  | print =>
    unfold execute forecast
    cases stack with
    | nil => exact .failed
    | cons top below => exact Effect.write_admitted _ (top :: below) console
  | newline => exact Effect.write_admitted _ stack console
  | storeIndexed | pushBool | unknown _ => exact .failed
  | binary op => exact op.execute_admitted constants stack console

/-! ## The walk and the machine -/

namespace Machine

/-- A machine at a place that the walk through its program comes to, with the
types on its stack that the walk has there. -/
structure Follows (program : Program) (m : Machine) : Prop where
  loaded : m.program = program
  passes : m.halted = false →
    Walk.Passes program m.pc (m.stack.map Value.typeName)

variable {program : Program} {m : Machine} {console : Console}

theorem follows_start (program : Program) :
    Follows program (Machine.start program) :=
  ⟨rfl, fun _ => Walk.passes_start program⟩

theorem Follows.advance (follows : Follows program m)
    (running : m.halted = false) {i : Instruction} {stack : Stack}
    {console' : Console} (found : m.program.code[m.pc]? = some i)
    (effect : i.execute m.program.constants m.stack console =
      .done stack console') :
    Follows program (m.advance stack .running) := by
  obtain ⟨rfl, passes⟩ := follows
  refine ⟨rfl, fun _ => ?_⟩
  have admitted := i.execute_admitted m.program.constants m.stack console
  rw [effect] at admitted
  generalize forecast : i.forecast m.program.constants
    (m.stack.map Value.typeName) = foretold at admitted
  cases admitted with
  | done after => exact (passes running).goesOn found forecast

theorem Follows.stepped (follows : Follows program m) {s : Outcome Progress}
    (stepped : Stepped m console s) : Follows program s.machine := by
  cases stepped with
  | ended _ | outside _ _ | failed _ _ _ => exact follows
  | halts _ _ _ =>
    refine ⟨follows.loaded, fun running => ?_⟩
    cases running
  | goesOn running found _ effect =>
    exact follows.advance running found effect

theorem Reachable.follows (reachable : Reachable program m) :
    Follows program m := by
  induction reachable with
  | start => exact follows_start program
  | step console _ ih => exact ih.stepped (step_stepped _ console)

/-- A failing instruction fails as the walk foresees, or is stopped from
outside. -/
theorem Follows.failed (follows : Follows program m)
    (running : m.halted = false) {i : Instruction} {trap : Trap}
    {console' : Console} (found : m.program.code[m.pc]? = some i)
    (effect : i.execute m.program.constants m.stack console =
      .failed trap m.stack console') :
    program.walk.Foresees program.code (.error (m.fault trap (some i))) := by
  obtain ⟨rfl, passes⟩ := follows
  have here := passes running
  have depth : m.stack.depth = (m.stack.map Value.typeName).length :=
    (List.length_map _).symm
  have admitted := i.execute_admitted m.program.constants m.stack console
  rw [effect] at admitted
  unfold fault
  rw [← found, depth]
  cases forecast : i.forecast m.program.constants
      (m.stack.map Value.typeName) with
  | goesOn next =>
    rw [forecast] at admitted
    cases admitted with
    | stopped external =>
      have later := (here.goesOn found forecast).le_stop
      exact .stopped external (.inl later) here.typesAt
  | ends =>
    rw [forecast] at admitted
    obtain ⟨stop, -, verdict⟩ := here.ends found forecast
    cases admitted with
    | unflushed =>
      exact .stopped trivial (.inr ⟨stop.symm, verdict⟩) here.typesAt
  | fails foreseen =>
    rw [forecast] at admitted
    cases admitted with
    | failed => exact .of_stop m.program.code (here.fails found forecast)

/-- A run from a place on the walk ends as the walk foresees. -/
theorem Follows.ran (follows : Follows program m) {o : Outcome Unit}
    (running : m.halted = false) (ran : Ran m console o) :
    program.walk.Foresees program.code o.result := by
  induction ran with
  | ended ended =>
    rw [ended] at running
    cases running
  | @outside m _ _ missing =>
    obtain ⟨rfl, passes⟩ := follows
    have foresees :=
      Walk.Foresees.of_stop m.program.code ((passes running).outside missing)
    rw [missing, List.length_map] at foresees
    exact foresees
  | failed _ found effect => exact follows.failed running found effect
  | halts _ found _ =>
    obtain ⟨rfl, passes⟩ := follows
    exact .ends ((passes running).ends found rfl).2.2
  | goesOn _ found _ effect _ ih =>
    exact ih (follows.advance running found effect) rfl

end Machine

/-- The types on the stack are those of the walk in every machine that a program
brings about, with any streams; so every run from such a machine, and every
execution of the program, ends as the walk foresees. -/
theorem walk_foresees (program : Program) :
    (∀ m, Machine.Reachable program m → m.halted = false →
      program.walk.typesAt m.pc = some (m.stack.map Value.typeName)) ∧
    (∀ m console, Machine.Reachable program m → m.halted = false →
      program.walk.Foresees program.code (m.run console).result) ∧
    ∀ console,
      program.walk.Foresees program.code (execute program console).result := by
  have runs : ∀ m console, Machine.Reachable program m → m.halted = false →
      program.walk.Foresees program.code (m.run console).result :=
    fun m console reachable running =>
      reachable.follows.ran running (m.run_ran console)
  refine ⟨?_, runs, ?_⟩
  · intro m reachable running
    exact (reachable.follows.passes running).typesAt
  · intro console
    have result : (execute program console).result =
        ((Machine.start program).run console).result := by
      unfold execute
      dsimp only
      split
      · rfl
      · split <;> rfl
    rw [result]
    exact runs _ console .start rfl

/-- A sum of a text and an integer: the walk passes the two constants and stops
at the operation. -/
theorem walk_foresees_mismatch :
    let program : Program := ⟨[.str "a", .int 1],
      [.loadConst 0, .loadConst 1, .binary .add, .halt]⟩
    let console := Console.fresh (Source.ofBytes []) Sink.unlimited
    let m := ((Machine.start program).step console).machine
    m.halted = false ∧
      program.walk = ⟨[[], ["Str"]], ["Int", "Str"],
        some (.typeMismatch "ADD" "Str" "Int")⟩ ∧
      program.walk.typesAt m.pc = some (m.stack.map Value.typeName) ∧
      program.walk.Foresees program.code (m.run console).result ∧
      program.walk.Foresees program.code (execute program console).result := by
  intro program console m
  have reachable : Machine.Reachable program m := .step console .start
  have running : m.halted = false := by decide
  obtain ⟨types, runs, executions⟩ := walk_foresees program
  exact ⟨running, by decide, types m reachable running,
    runs m console reachable running, executions console⟩

end Bytecode
