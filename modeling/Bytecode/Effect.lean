import Bytecode.Console
import Bytecode.Program
import Bytecode.Text.Blank
import Bytecode.Trap
import Bytecode.Value

/-!
What each instruction does to the stack and the streams.

An instruction looks at what it needs before it changes the stack, and a line or
a value that cannot be used leaves the stack alone. Bytes that were read or
written before a failure stay read or written.
-/

namespace Bytecode

/-! ## Operations on integers -/

/-- The integer that stands for a truth value. -/
def truth (b : Bool) : Int64 :=
  if b then 1 else 0

/-- The result of an operation on two integers. Sums, differences and products
wrap around at 64 bits, and so does the one quotient that is out of range;
quotients are rounded towards zero and the remainder has the sign of the left
operand. -/
def BinaryOp.apply (op : BinaryOp) (left right : Int64) : Except Trap Int64 :=
  match op with
  | add => .ok (left + right)
  | sub => .ok (left - right)
  | mul => .ok (left * right)
  | div => if right = 0 then .error .divisionByZero else .ok (left / right)
  | mod => if right = 0 then .error .divisionByZero else .ok (left % right)
  | gt => .ok (truth (right < left))
  | lt => .ok (truth (left < right))
  | ge => .ok (truth (right ≤ left))
  | le => .ok (truth (left ≤ right))

/-! ## Effects -/

/-- Whether a program goes on. -/
inductive Progress where
  | running
  | halted
deriving DecidableEq

/-- What came of an instruction: how it ended, and the stack and the streams
after it. -/
structure Effect where
  result : Except Trap Progress
  stack : Stack
  console : Console

namespace Effect

/-- An instruction that was carried out. -/
def done (stack : Stack) (console : Console) : Effect :=
  ⟨.ok .running, stack, console⟩

/-- An instruction that could not be carried out. -/
def failed (trap : Trap) (stack : Stack) (console : Console) : Effect :=
  ⟨.error trap, stack, console⟩

end Effect

/-! ## Reading -/

/-- The trap of a read that gave no line. -/
def Ending.trap : Ending → Trap
  | .closed | .paused _ _ => .endOfInput
  | .failing reason => .stream reason

/-- Asks for a line. The output is flushed first, so that what was written
before can be seen by whoever has to answer. -/
def Console.ask (console : Console) : Except Trap (List Char) × Console :=
  match console.flush with
  | (.error reason, console) => (.error (.stream reason), console)
  | (.ok (), console) =>
    match console.readLine with
    | (.error ending, console) => (.error ending.trap, console)
    | (.ok line, console) => (.ok line, console)

/-- The integer that a line holds, with white space around it or not. -/
def lineInteger? (line : List Char) : Option Int64 := do
  Numeral.word? (← Numeral.integer? (trim line))

/-! ## Instructions -/

/-- Applies an operation to the two topmost values, the left one below the
right one. -/
def BinaryOp.execute (op : BinaryOp) (stack : Stack) (console : Console) :
    Effect :=
  match stack with
  | right :: left :: below =>
    match left.int?, right.int? with
    | some a, some b =>
      match op.apply a b with
      | .ok result => .done (.int result :: below) console
      | .error trap => .failed trap stack console
    | _, _ =>
      .failed (.typeMismatch op.mnemonic left.typeName right.typeName) stack
        console
  | _ => .failed .stackUnderflow stack console

/-- Writes bytes as the whole of an instruction. -/
def Effect.write (bytes : Bytes) (stack : Stack) (console : Console) : Effect :=
  match console.write bytes with
  | (.ok (), console) => .done stack console
  | (.error reason, console) => .failed (.stream reason) stack console

/-- Carries out one instruction. -/
def Instruction.execute (i : Instruction) (constants : ConstantPool)
    (stack : Stack) (console : Console) : Effect :=
  match i with
  | halt =>
    match console.flush with
    | (.ok (), console) => ⟨.ok .halted, stack, console⟩
    | (.error reason, console) => .failed (.stream reason) stack console
  | loadConst index =>
    match constants.lookup index with
    | .ok constant => .done (.ofConstant constant :: stack) console
    | .error _ => .failed (.indexOutOfRange index) stack console
  | pop | drop =>
    match stack with
    | _ :: below => .done below console
    | [] => .failed .stackUnderflow stack console
  | readInt =>
    match console.ask with
    | (.error trap, console) => .failed trap stack console
    | (.ok line, console) =>
      match lineInteger? line with
      | some n => .done (.int n :: stack) console
      | none => .failed (.notInteger (String.ofList line)) stack console
  | readString =>
    match console.ask with
    | (.error trap, console) => .failed trap stack console
    | (.ok line, console) => .done (.str (String.ofList line) :: stack) console
  | print =>
    match stack with
    | top :: _ => .write (Utf8.encode top.text) stack console
    | [] => .failed .stackUnderflow stack console
  | newline => .write [Source.lineEnd] stack console
  | storeIndexed | pushBool => .failed (.unsupported i.opcode) stack console
  | binary op => op.execute stack console
  | unknown byte => .failed (.illegalInstruction byte) stack console

end Bytecode
