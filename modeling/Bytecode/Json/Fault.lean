import Bytecode.Bytes
import Bytecode.Json.Printer
import Bytecode.Text.Quoted

/-!
What can be wrong with a JSON text, and where.

A reader that meets an error knows the part of the text it has not read. The
line and the column follow from the part before it, so they are worked out once,
for the error that is reported. An error is found either after the byte that
shows it (`here`) or in front of that byte (`ahead`), and the reported place is
the one after the byte in both cases.
-/

namespace Bytecode

namespace Json

/-- Why a text is not a JSON list. -/
inductive Cause where
  /-- The text ends where a value should stand. -/
  | endInValue
  /-- The text ends inside a list. -/
  | endInList
  /-- The text ends inside an object. -/
  | endInObject
  /-- The text ends inside a string. -/
  | endInString
  /-- No value begins with this byte. -/
  | valueExpected
  /-- An item of a list is followed by neither a comma nor the end of it. -/
  | listEndExpected
  /-- A member of an object is followed by neither a comma nor the end of it. -/
  | objectEndExpected
  /-- A key is not followed by a colon. -/
  | colonExpected
  /-- A member does not begin with a string. -/
  | keyNotString
  /-- A comma is followed by the closing bracket. -/
  | trailingComma
  /-- Something follows the list. -/
  | trailingCharacters
  /-- A word other than `null`, `true` and `false`. -/
  | wordExpected
  /-- A number is malformed. -/
  | invalidNumber
  /-- A number is too large for double precision. -/
  | numberOutOfRange
  /-- A raw control character stands in a string. -/
  | controlCharacter
  /-- A backslash is followed by something that it cannot escape. -/
  | invalidEscape
  /-- A high surrogate is not followed by another escape. -/
  | endOfHexEscape
  /-- A surrogate is not part of a pair. -/
  | loneSurrogate
  /-- A string is not valid UTF-8. -/
  | invalidUnicode
  /-- Lists and objects are nested too deeply. -/
  | tooDeep
  /-- The text holds something else than a list. -/
  | notList (found : Value)

/-- What a value is, for a message. -/
def Value.kindText : Value → String
  | .null => "null"
  | .boolean b => "boolean `" ++ String.ofList (booleanText b) ++ "`"
  | .number (.integer i) =>
    "integer `" ++ String.ofList (Numeral.integer i) ++ "`"
  | .number (.real x) =>
    "floating point `" ++ String.ofList (Decimal.realText x) ++ "`"
  | .string s => "string " ++ Quoted.text s
  | .array _ => "sequence"
  | .object _ => "map"

/-- The wording of a cause. -/
def Cause.message : Cause → String
  | .endInValue => "EOF while parsing a value"
  | .endInList => "EOF while parsing a list"
  | .endInObject => "EOF while parsing an object"
  | .endInString => "EOF while parsing a string"
  | .valueExpected => "expected value"
  | .listEndExpected => "expected `,` or `]`"
  | .objectEndExpected => "expected `,` or `\x7d`"
  | .colonExpected => "expected `:`"
  | .keyNotString => "key must be a string"
  | .trailingComma => "trailing comma"
  | .trailingCharacters => "trailing characters"
  | .wordExpected => "expected ident"
  | .invalidNumber => "invalid number"
  | .numberOutOfRange => "number out of range"
  | .controlCharacter =>
    "control character (\\u0000-\\u001F) found while parsing a string"
  | .invalidEscape => "invalid escape"
  | .endOfHexEscape => "unexpected end of hex escape"
  | .loneSurrogate => "lone leading surrogate in hex escape"
  | .invalidUnicode => "invalid unicode code point"
  | .tooDeep => "recursion limit exceeded"
  | .notList found =>
    "invalid type: " ++ found.kindText ++ ", expected a sequence"

/-- An error met while reading: its cause, the part of the text after its place,
and how many columns before that place it is reported. -/
structure Fault where
  cause : Cause
  rest : Bytes
  back : Nat

/-- An error shown by the byte that was read last. -/
def Fault.here (cause : Cause) (rest : Bytes) : Fault :=
  ⟨cause, rest, 0⟩

/-- An error shown by the byte that would be read next, or by the end. -/
def Fault.ahead (cause : Cause) (rest : Bytes) : Fault :=
  ⟨cause, rest.tail, 0⟩

/-- An error in a text, with its line and column. -/
structure SyntaxError where
  cause : Cause
  line : Nat
  column : Nat

/-- The line and the column after the last of some bytes: lines count from one,
columns from zero at the start of a line. -/
def place : (line column : Nat) → Bytes → Nat × Nat
  | line, column, [] => (line, column)
  | line, column, b :: rest =>
    if b = Bytes.ascii '\n' then place (line + 1) 0 rest
    else place line (column + 1) rest

/-- The error in the whole text that was read. -/
def Fault.locate (fault : Fault) (text : Bytes) : SyntaxError :=
  let (line, column) :=
    place 1 0 (text.take (text.length - fault.rest.length))
  ⟨fault.cause, line, column - fault.back⟩

/-- The wording of an error with its place. -/
def SyntaxError.message (e : SyntaxError) : String :=
  s!"{e.cause.message} at line {e.line} column {e.column}"

/-- What a reader of a part of a text gives: the value of the part and the text
after it, or an error. -/
abbrev Parsed (α : Type) := Except Fault (α × Bytes)

/-- Goes on reading after a part. -/
def Parsed.andThen {α β : Type} (part : Parsed α)
    (next : α → Bytes → Parsed β) : Parsed β :=
  match part with
  | .ok (a, rest) => next a rest
  | .error fault => .error fault

/-- Takes the value of a part for something else. -/
def Parsed.map {α β : Type} (f : α → β) (part : Parsed α) : Parsed β :=
  part.andThen fun a rest => .ok (f a, rest)

theorem Parsed.andThen_eq_ok {α β : Type} {part : Parsed α}
    {next : α → Bytes → Parsed β} {result : β × Bytes} :
    part.andThen next = .ok result ↔
      ∃ a rest, part = .ok (a, rest) ∧ next a rest = .ok result := by
  cases part with
  | error fault =>
    constructor
    · intro impossible
      cases impossible
    · intro parts
      obtain ⟨a, rest, impossible, -⟩ := parts
      cases impossible
  | ok parsed =>
    rcases parsed with ⟨a, rest⟩
    constructor
    · intro goesOn
      exact ⟨a, rest, rfl, goesOn⟩
    · intro parts
      obtain ⟨a', rest', same, goesOn⟩ := parts
      cases same
      exact goesOn

theorem Parsed.map_eq_ok {α β : Type} {part : Parsed α} {f : α → β} {b : β}
    {rest : Bytes} :
    part.map f = .ok (b, rest) ↔ ∃ a, part = .ok (a, rest) ∧ f a = b := by
  unfold Parsed.map
  rw [Parsed.andThen_eq_ok]
  constructor
  · intro parts
    obtain ⟨a, rest', parsed, same⟩ := parts
    cases same
    exact ⟨a, parsed, rfl⟩
  · intro parts
    obtain ⟨a, parsed, rfl⟩ := parts
    exact ⟨a, rest, parsed, rfl⟩

end Json

end Bytecode
