import Bytecode.Text.Numeral
import Bytecode.Text.Quoted

/-!
The constants of a program: 64-bit integers and texts.
-/

namespace Bytecode

/-- A constant. -/
inductive Constant where
  | int (i : Int64)
  | str (s : String)
deriving DecidableEq

namespace Constant

/-- The name of a constant's type. -/
def typeName : Constant → String
  | int _ => "Int"
  | str _ => "Str"

/-- A constant as text, with quotes around a text. -/
def text : Constant → String
  | int i => String.ofList (Numeral.word i)
  | str s => Quoted.text s

end Constant

end Bytecode
