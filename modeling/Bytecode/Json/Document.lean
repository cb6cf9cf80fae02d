import Bytecode.Json.StringLiteral
import Bytecode.Json.NumberLiteral

/-!
JSON texts that hold a list.

`value` reads one value of any kind and `document` a whole text, which must be a
list and nothing more. Lists and objects may be nested to a fixed depth, and the
reader of a value is built from the reader for one level less. The loops over
the items of a list and the members of an object take the length of the text as
the number of rounds they may make: each round reads at least one byte.
-/

namespace Bytecode

namespace Json

/-! ## White space and words -/

/-- The bytes that may stand between the parts of a text. -/
def isSpace (b : UInt8) : Bool :=
  b = 0x20 || b = 0x09 || b = 0x0A || b = 0x0D

/-- A text from its first byte that is not white space. -/
def skipSpace (text : Bytes) : Bytes :=
  text.dropWhile isSpace

/-- Reads the remaining letters of a word. -/
def word (meaning : Value) : (letters : List Char) → Bytes → Parsed Value
  | [], text => .ok (meaning, text)
  | _ :: _, [] => .error (.here .endInValue [])
  | letter :: letters, b :: rest =>
    if b = Bytes.ascii letter then word meaning letters rest
    else .error (.here .wordExpected rest)

/-! ## Lists and objects -/

/-- The items of a list after one of them, and the text after the list. -/
def moreItems (item : Bytes → Parsed Value) :
    (rounds : Nat) → Bytes → Parsed (List Value)
  | 0, text => .error (.ahead .endInList text)
  | rounds + 1, text =>
    match skipSpace text with
    | [] => .error (.ahead .endInList [])
    | b :: rest =>
      if b = Bytes.ascii ']' then .ok ([], rest)
      else if b = Bytes.ascii ',' then
        match skipSpace rest with
        | [] => .error (.ahead .endInValue [])
        | c :: rest =>
          if c = Bytes.ascii ']' then .error (.ahead .trailingComma (c :: rest))
          else
            (item (c :: rest)).andThen fun v rest =>
              (moreItems item rounds rest).map (v :: ·)
      else .error (.ahead .listEndExpected (b :: rest))

/-- The items of a list from after its opening bracket, and the text after the
list. -/
def items (item : Bytes → Parsed Value) (rounds : Nat) (text : Bytes) :
    Parsed (List Value) :=
  match skipSpace text with
  | [] => .error (.ahead .endInList [])
  | b :: rest =>
    if b = Bytes.ascii ']' then .ok ([], rest)
    else
      (item (b :: rest)).andThen fun v rest =>
        (moreItems item rounds rest).map (v :: ·)

/-- A member of an object: a key, a colon and a value. -/
def member (item : Bytes → Parsed Value) :
    Bytes → Parsed (String × Value)
  | [] => .error (.ahead .endInObject [])
  | b :: rest =>
    if b = StringLiteral.quote then
      (StringLiteral.read rest).andThen fun key rest =>
        match skipSpace rest with
        | [] => .error (.ahead .endInObject [])
        | c :: rest =>
          if c = Bytes.ascii ':' then (item rest).map fun v => (key, v)
          else .error (.ahead .colonExpected (c :: rest))
    else .error (.ahead .keyNotString (b :: rest))

/-- The members of an object after one of them, and the text after the
object. -/
def moreMembers (item : Bytes → Parsed Value) :
    (rounds : Nat) → Bytes → Parsed (List (String × Value))
  | 0, text => .error (.ahead .endInObject text)
  | rounds + 1, text =>
    match skipSpace text with
    | [] => .error (.ahead .endInObject [])
    | b :: rest =>
      if b = Bytes.ascii '\x7d' then .ok ([], rest)
      else if b = Bytes.ascii ',' then
        match skipSpace rest with
        | [] => .error (.ahead .endInValue [])
        | c :: rest =>
          if c = Bytes.ascii '\x7d' then
            .error (.ahead .trailingComma (c :: rest))
          else
            (member item (c :: rest)).andThen fun m rest =>
              (moreMembers item rounds rest).map (m :: ·)
      else .error (.ahead .objectEndExpected (b :: rest))

/-- The members of an object from after its opening brace, and the text after
the object. -/
def members (item : Bytes → Parsed Value) (rounds : Nat) (text : Bytes) :
    Parsed (List (String × Value)) :=
  match skipSpace text with
  | [] => .error (.ahead .endInObject [])
  | b :: rest =>
    if b = Bytes.ascii '\x7d' then .ok ([], rest)
    else
      (member item (b :: rest)).andThen fun m rest =>
        (moreMembers item rounds rest).map (m :: ·)

/-! ## Values -/

/-- Reads a value that is neither a list nor an object, from its first byte
on. -/
def scalar (b : UInt8) (rest : Bytes) : Parsed Value :=
  if b = Bytes.ascii 'n' then word .null ['u', 'l', 'l'] rest
  else if b = Bytes.ascii 't' then word (.boolean true) ['r', 'u', 'e'] rest
  else if b = Bytes.ascii 'f' then
    word (.boolean false) ['a', 'l', 's', 'e'] rest
  else if b = StringLiteral.quote then (StringLiteral.read rest).map .string
  else if b = Bytes.ascii '-' || NumberLiteral.isDigit b then
    (NumberLiteral.read (b :: rest)).map .number
  else .error (.ahead .valueExpected (b :: rest))

/-- Reads a value in which lists and objects are nested at most `depth` deep. -/
def value (rounds : Nat) : (depth : Nat) → Bytes → Parsed Value
  | depth, text =>
    match skipSpace text with
    | [] => .error (.ahead .endInValue [])
    | b :: rest =>
      if b = Bytes.ascii '[' then
        match depth with
        | 0 => .error (.ahead .tooDeep (b :: rest))
        | depth + 1 => (items (value rounds depth) rounds rest).map .array
      else if b = Bytes.ascii '\x7b' then
        match depth with
        | 0 => .error (.ahead .tooDeep (b :: rest))
        | depth + 1 =>
          (members (value rounds depth) rounds rest).map Value.ofMembers
      else scalar b rest

/-- How deep lists and objects may be nested inside the outermost list. -/
def depthLimit : Nat :=
  126

/-- Reads the items of a text that holds a list, and the text after the list. -/
def outermost (text : Bytes) : Parsed (List Value) :=
  match skipSpace text with
  | [] => .error (.ahead .endInValue [])
  | b :: rest =>
    if b = Bytes.ascii '[' then
      items (value text.length depthLimit) text.length rest
    else if b = Bytes.ascii '\x7b' then
      .error (.here (.notList (.object [])) (b :: rest))
    else
      (scalar b rest).andThen fun v rest => .error (.here (.notList v) rest)

/-- Reads a text that holds a list and nothing more. -/
def complete (text : Bytes) : Parsed (List Value) :=
  (outermost text).andThen fun vs rest =>
    match skipSpace rest with
    | [] => .ok (vs, [])
    | b :: rest => .error (.ahead .trailingCharacters (b :: rest))

/-- The items of the list that a text holds, or what is wrong with the text and
where. -/
def document (text : Bytes) : Except SyntaxError (List Value) :=
  match complete text with
  | .ok (vs, _) => .ok vs
  | .error fault => .error (fault.locate text)

end Json

end Bytecode
