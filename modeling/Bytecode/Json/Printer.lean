import Bytecode.Json.Value
import Bytecode.Text.Numeral
import Bytecode.Decimal.Layout

/-!
JSON values as text, in two layouts: `compact` without any white space, and
`pretty` with two spaces of indentation for each level. Inside strings only the
quote, the backslash and the control characters are escaped. Who has to escape more
than that takes the text of a string in `parts` and writes the stretches in a way of
its own.
-/

namespace Bytecode

namespace Json

/-- The letter of the two-character escape of a control character. -/
def controlLetter? (c : Char) : Option Char :=
  if c = '\x08' then some 'b'
  else if c = '\t' then some 't'
  else if c = '\n' then some 'n'
  else if c = '\x0c' then some 'f'
  else if c = '\r' then some 'r'
  else none

/-- A 16-bit number as `\u` and four lower-case hexadecimal digits. -/
def unitText (n : Nat) : List Char :=
  ['\\', 'u', Nat.digitChar (n / 0x1000 % 16), Nat.digitChar (n / 0x100 % 16),
    Nat.digitChar (n / 0x10 % 16), Nat.digitChar (n % 16)]

/-- The escape that a character must have inside a string, if it must have one. -/
def escape? (c : Char) : Option (List Char) :=
  if c = '"' then some ['\\', '"']
  else if c = '\\' then some ['\\', '\\']
  else
    match controlLetter? c with
    | some letter => some ['\\', letter]
    | none => if c.toNat < 0x20 then some (unitText c.toNat) else none

/-- One character inside a string. -/
def charText (c : Char) : List Char :=
  (escape? c).getD [c]

/-- A part of a text inside a string. -/
inductive Part where
  /-- An escape that has to be there. -/
  | escape (text : List Char)
  /-- Characters of which none must be escaped. -/
  | stretch (cs : List Char)

/-- The stretch of some characters, held in reverse order, unless there are none. -/
def heldPart (held : List Char) : List Part :=
  if held = [] then [] else [.stretch held.reverse]

/-- The parts of a text after characters that are held back, in reverse order, until
their stretch ends. -/
def partsFrom : (held : List Char) → List Char → List Part
  | held, [] => heldPart held
  | held, c :: rest =>
    match escape? c with
    | none => partsFrom (c :: held) rest
    | some text => heldPart held ++ .escape text :: partsFrom [] rest

/-- A text cut into the escapes that have to be there and the stretches between
them, each as long as it can be. -/
def parts (cs : List Char) : List Part :=
  partsFrom [] cs

/-- A string between its quotes. -/
def stringText (s : String) : List Char :=
  '"' :: s.toList.flatMap charText ++ ['"']

/-- A number. -/
def Number.text : Number → List Char
  | .integer i => Numeral.integer i
  | .real x => Decimal.realText x

/-- A truth value. -/
def booleanText (b : Bool) : List Char :=
  if b then ['t', 'r', 'u', 'e'] else ['f', 'a', 'l', 's', 'e']

/-- The word for no value. -/
def nullText : List Char :=
  ['n', 'u', 'l', 'l']

/-! ## Without white space -/

mutual

/-- A value without white space. -/
def Value.compact : Value → List Char
  | .null => nullText
  | .boolean b => booleanText b
  | .number n => n.text
  | .string s => stringText s
  | .array items => '[' :: compactItems items ++ [']']
  | .object members => '\x7b' :: compactMembers members ++ ['\x7d']
termination_by structural v => v

/-- The items of an array, separated by commas. -/
def compactItems : List Value → List Char
  | [] => []
  | v :: rest => v.compact ++ compactMoreItems rest
termination_by structural vs => vs

/-- The items after the first, each after a comma. -/
def compactMoreItems : List Value → List Char
  | [] => []
  | v :: rest => ',' :: v.compact ++ compactMoreItems rest
termination_by structural vs => vs

/-- The members of an object, separated by commas. -/
def compactMembers : List (String × Value) → List Char
  | [] => []
  | m :: rest => compactMember m ++ compactMoreMembers rest
termination_by structural ms => ms

/-- The members after the first, each after a comma. -/
def compactMoreMembers : List (String × Value) → List Char
  | [] => []
  | m :: rest => ',' :: compactMember m ++ compactMoreMembers rest
termination_by structural ms => ms

/-- A key, a colon and a value. -/
def compactMember : String × Value → List Char
  | (key, v) => stringText key ++ ':' :: v.compact
termination_by structural m => m

end

/-! ## With indentation -/

/-- A new line, indented to a level. -/
def newLine (level : Nat) : List Char :=
  '\n' :: List.replicate (2 * level) ' '

mutual

/-- A value whose first line stands at a level. -/
def Value.layout (level : Nat) : Value → List Char
  | .null => nullText
  | .boolean b => booleanText b
  | .number n => n.text
  | .string s => stringText s
  | .array [] => ['[', ']']
  | .array (v :: rest) =>
    '[' :: newLine (level + 1) ++ v.layout (level + 1) ++
      layoutMoreItems (level + 1) rest ++ newLine level ++ [']']
  | .object [] => ['\x7b', '\x7d']
  | .object (m :: rest) =>
    '\x7b' :: newLine (level + 1) ++ layoutMember (level + 1) m ++
      layoutMoreMembers (level + 1) rest ++ newLine level ++ ['\x7d']
termination_by structural v => v

/-- The items after the first, each after a comma and on a line of its own. -/
def layoutMoreItems (level : Nat) : List Value → List Char
  | [] => []
  | v :: rest =>
    ',' :: newLine level ++ v.layout level ++ layoutMoreItems level rest
termination_by structural vs => vs

/-- The members after the first, each after a comma and on a line of its own. -/
def layoutMoreMembers (level : Nat) : List (String × Value) → List Char
  | [] => []
  | m :: rest =>
    ',' :: newLine level ++ layoutMember level m ++ layoutMoreMembers level rest
termination_by structural ms => ms

/-- A key, a colon, a space and a value. -/
def layoutMember (level : Nat) : String × Value → List Char
  | (key, v) => stringText key ++ ':' :: ' ' :: v.layout level
termination_by structural m => m

end

/-- A value on indented lines. -/
def Value.pretty (v : Value) : String :=
  String.ofList (v.layout 0)

end Json

end Bytecode
