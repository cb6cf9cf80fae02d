import Bytecode.Effect

/-!
What instructions ask of the streams.

`Instruction.demand` is what an instruction wants of the streams when it finds a
given stack: nothing at all, to write some bytes, to read a line, or to flush at
the end of the program. Carrying the instruction out is meeting its demand
(`Instruction.execute_eq_meet`), so a statement about the streams has four cases
instead of one for each instruction, and a statement about the stack does not
have to mention the streams.
-/

namespace Bytecode

/-! ## Demands -/

/-- What an instruction asks of the streams. -/
inductive Demand where
  /-- Nothing: it leaves this stack, or fails. -/
  | quiet (result : Except Trap Stack)
  /-- These bytes are to be written. -/
  | output (bytes : Bytes)
  /-- A line is to be read; if it can be used, it gives the stack to leave. -/
  | input (use : List Char → Option Stack)
  /-- The output is to be flushed, and the program ends. -/
  | ending

/-- The effect of a result that took no more than the stack. -/
def Effect.ofResult (result : Except Trap Stack) (stack : Stack)
    (console : Console) : Effect :=
  match result with
  | .ok after => .done after console
  | .error trap => .failed trap stack console

/-- Does what is demanded. -/
def Demand.meet (demand : Demand) (stack : Stack) (console : Console) : Effect :=
  match demand with
  | quiet result => .ofResult result stack console
  | output bytes => .write bytes stack console
  | input use =>
    match console.ask with
    | (.error trap, console) => .failed trap stack console
    | (.ok line, console) =>
      match use line with
      | some after => .done after console
      | none => .failed (.notInteger (String.ofList line)) stack console
  | ending =>
    match console.flush with
    | (.ok (), console) => ⟨.ok .halted, stack, console⟩
    | (.error reason, console) => .failed (.stream reason) stack console

/-- The streams after a demand is met are those that its use of them leaves. -/
theorem Demand.meet_streams (demand : Demand) (stack : Stack) (console : Console) :
    (demand.meet stack console).console =
      match demand with
      | quiet _ => console
      | output bytes => (console.write bytes).2
      | input _ => console.ask.2
      | ending => console.flush.2 := by
  unfold meet
  cases demand with
  | quiet result => cases result <;> rfl
  | output bytes =>
    unfold Effect.write
    dsimp only
    rcases console.write bytes with ⟨result, console'⟩
    cases result <;> rfl
  | input use =>
    dsimp only
    rcases console.ask with ⟨result, console'⟩
    cases result with
    | error trap => rfl
    | ok line =>
      dsimp only
      cases use line <;> rfl
  | ending =>
    dsimp only
    rcases console.flush with ⟨result, console'⟩
    cases result <;> rfl

/-- What an operation makes of the two topmost values. -/
def BinaryOp.combine (op : BinaryOp) (stack : Stack) : Except Trap Stack :=
  match stack with
  | right :: left :: below =>
    match left.int?, right.int? with
    | some a, some b =>
      match op.apply a b with
      | .ok result => .ok (.int result :: below)
      | .error trap => .error trap
    | _, _ => .error (.typeMismatch op.mnemonic left.typeName right.typeName)
  | _ => .error .stackUnderflow

/-- What an instruction asks of the streams, given the stack that it finds. -/
def Instruction.demand (i : Instruction) (constants : ConstantPool)
    (stack : Stack) : Demand :=
  match i with
  | halt => .ending
  | loadConst index =>
    match constants.lookup index with
    | .ok constant => .quiet (.ok (.ofConstant constant :: stack))
    | .error _ => .quiet (.error (.indexOutOfRange index))
  | pop | drop =>
    match stack with
    | _ :: below => .quiet (.ok below)
    | [] => .quiet (.error .stackUnderflow)
  | readInt =>
    .input fun line => (lineInteger? line).map fun n => .int n :: stack
  | readString => .input fun line => some (.str (String.ofList line) :: stack)
  | print =>
    match stack with
    | top :: _ => .output (Utf8.encode top.text)
    | [] => .quiet (.error .stackUnderflow)
  | newline => .output [Source.lineEnd]
  | storeIndexed | pushBool => .quiet (.error (.unsupported i.opcode))
  | binary op => .quiet (op.combine stack)
  | unknown byte => .quiet (.error (.illegalInstruction byte))

/-- The stacks that a demand can leave for the rest of the program. -/
def Demand.Leaves (stack : Stack) : Demand → Stack → Prop
  | quiet result, after => result = .ok after
  | output _, after => after = stack
  | input use, after => ∃ line, use line = some after
  | ending, _ => False

/-! ## What can go wrong -/

/-- The only thing wrong with two integers is a zero divisor. -/
theorem BinaryOp.trap_of_apply {op : BinaryOp} {a b : Int64} {trap : Trap}
    (failed : op.apply a b = .error trap) : trap = .divisionByZero := by
  unfold apply at failed
  cases op with
  | div | mod =>
    dsimp only at failed
    split at failed
    · exact (Except.error.inj failed).symm
    · cases failed
  | add | sub | mul | gt | lt | ge | le => cases failed

/-- A line is not had when there is none, or when a stream fails. -/
theorem Console.trap_of_ask {console console' : Console} {trap : Trap}
    (failed : console.ask = (.error trap, console')) :
    trap = .endOfInput ∨ ∃ reason, trap = .stream reason := by
  unfold ask at failed
  split at failed
  · cases failed
    exact .inr ⟨_, rfl⟩
  · split at failed
    · next ending _ _ =>
      cases failed
      cases ending with
      | closed | paused _ _ => exact .inl rfl
      | failing reason => exact .inr ⟨reason, rfl⟩
    · cases failed

/-! ## Meeting demands -/

theorem BinaryOp.execute_eq_combine (op : BinaryOp) (stack : Stack)
    (console : Console) :
    op.execute stack console = .ofResult (op.combine stack) stack console := by
  unfold execute combine
  rcases stack with _ | ⟨right, _ | ⟨left, below⟩⟩
  · rfl
  · rfl
  · dsimp only
    cases left.int? with
    | none => rfl
    | some a =>
      cases right.int? with
      | none => rfl
      | some b =>
        dsimp only
        cases op.apply a b <;> rfl

/-- Carrying out an instruction is meeting its demand. -/
theorem Instruction.execute_eq_meet (i : Instruction)
    (constants : ConstantPool) (stack : Stack) (console : Console) :
    i.execute constants stack console =
      (i.demand constants stack).meet stack console := by
  cases i with
  | halt | newline | storeIndexed | pushBool | unknown _ => rfl
  | loadConst index =>
    unfold execute demand
    dsimp only
    cases constants.lookup index <;> rfl
  | pop | drop | print => cases stack <;> rfl
  | readInt =>
    unfold execute demand Demand.meet
    dsimp only
    rcases console.ask with ⟨answer, console'⟩
    cases answer with
    | error trap => rfl
    | ok line =>
      dsimp only
      cases lineInteger? line <;> rfl
  | readString =>
    unfold execute demand Demand.meet
    rcases console.ask with ⟨answer, console'⟩
    cases answer <;> rfl
  | binary op => exact op.execute_eq_combine stack console

/-- When the program goes on, the demand has left one of its stacks. -/
theorem Demand.leaves_of_meet {demand : Demand} {stack after : Stack}
    {console console' : Console}
    (done : demand.meet stack console = .done after console') :
    demand.Leaves stack after := by
  cases demand with
  | quiet result =>
    cases result with
    | error trap => cases done
    | ok left =>
      cases done
      rfl
  | output bytes =>
    unfold meet Effect.write at done
    dsimp only at done
    split at done
    · cases done
      rfl
    · cases done
  | input use =>
    unfold meet at done
    dsimp only at done
    split at done
    · cases done
    · next line _ _ =>
      split at done
      · next left used =>
        cases done
        exact ⟨line, used⟩
      · cases done
  | ending =>
    unfold meet at done
    dsimp only at done
    split at done
    · cases done
    · cases done

theorem Instruction.leaves_of_execute {i : Instruction}
    {constants : ConstantPool} {stack after : Stack} {console console' : Console}
    (done : i.execute constants stack console = .done after console') :
    (i.demand constants stack).Leaves stack after := by
  rw [execute_eq_meet] at done
  exact Demand.leaves_of_meet done

end Bytecode
