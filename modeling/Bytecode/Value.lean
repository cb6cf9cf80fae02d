import Bytecode.Constant

/-!
The values that the machine works on.
-/

namespace Bytecode

/-- A value on the stack. -/
inductive Value where
  | int (i : Int64)
  | str (s : String)
  | bool (b : Bool)
deriving DecidableEq

namespace Value

/-- The value of a constant. -/
def ofConstant : Constant → Value
  | .int i => int i
  | .str s => str s

/-- The name of a value's type. -/
def typeName : Value → String
  | int _ => "Int"
  | str _ => "Str"
  | bool _ => "Bool"

/-- The integer that a value is, if it is one. -/
def int? : Value → Option Int64
  | int i => some i
  | _ => none

/-- A value as it is written. -/
def text : Value → String
  | int i => String.ofList (Numeral.word i)
  | str s => s
  | bool b => if b then "true" else "false"

end Value

/-- The operand stack, its top first. -/
abbrev Stack := List Value

namespace Stack

/-- The values of a stack, the bottom first. -/
def values (stack : Stack) : List Value :=
  stack.reverse

/-- How many values a stack holds. -/
def depth (stack : Stack) : Nat :=
  stack.length

end Stack

end Bytecode
