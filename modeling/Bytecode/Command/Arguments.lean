/-!
The arguments of the command line.

Options for the log come first, then the name of an action, then what the action
needs. An option that takes a value is given at most once, its value is not
empty, and a value in an argument of its own does not look like an option. After
`--` everything is a plain argument; before the name of an action that leaves
nothing to do.
-/

namespace Bytecode

namespace Command

/-- What the user asks for. -/
inductive Action where
  /-- Carry out a program; the stack may be written to a file afterwards. -/
  | run (file : String) (dump : Option String)
  /-- Show a program. -/
  | disassemble (file : String)
  /-- Show the version. -/
  | version
deriving DecidableEq

/-- A command line that can be carried out. -/
structure Invocation where
  verbosity : Nat
  logFile : Option String
  action : Action
deriving DecidableEq

/-- Why there is nothing to carry out. -/
inductive Refusal where
  /-- The user asks how the command line is used. -/
  | help
  /-- The arguments make no sense. -/
  | misuse
deriving DecidableEq

/-! ## Shapes of arguments -/

/-- The shape of an argument. -/
inductive Shape where
  /-- Two dashes. -/
  | separator
  /-- Two dashes, a name and perhaps a value after `=`. -/
  | long (name : List Char) (value : Option (List Char))
  /-- One dash and letters. -/
  | short (letters : List Char)
  /-- Anything else; also a single dash. -/
  | plain
deriving DecidableEq

/-- Splits a long option into its name and its value. -/
def splitLong (body : List Char) : List Char × Option (List Char) :=
  match body.dropWhile (· ≠ '=') with
  | [] => (body, none)
  | _ :: value => (body.takeWhile (· ≠ '='), some value)

/-- The shape of an argument. -/
def shape (arg : String) : Shape :=
  match arg.toList with
  | ['-', '-'] => .separator
  | '-' :: '-' :: body => .long (splitLong body).1 (splitLong body).2
  | '-' :: c :: letters => .short (c :: letters)
  | _ => .plain

/-- A value for an option or an argument: anything but nothing. -/
def nonempty (text : String) : Except Refusal String :=
  if text = "" then .error .misuse else .ok text

/-- A value for an option in an argument of its own: it must not look like an
option itself. -/
def separate (arg : String) : Except Refusal String :=
  if shape arg = .plain then nonempty arg else .error .misuse

/-- A value for an option, attached to it. -/
def attached (value : List Char) : Except Refusal String :=
  nonempty (String.ofList value)

/-- Sets an option that may be given once. -/
def setOnce (old : Option String) (value : String) :
    Except Refusal (Option String) :=
  match old with
  | none => .ok (some value)
  | some _ => .error .misuse

/-! ## Arguments of an action -/

/-- What has been found of the arguments of an action. -/
structure Operands where
  files : List String
  dump : Option String

namespace Operands

/-- Nothing yet. -/
def empty : Operands :=
  ⟨[], none⟩

/-- Adds a file, of at most a given number. -/
def addFile (limit : Nat) (found : Operands) (arg : String) :
    Except Refusal Operands :=
  if found.files.length < limit then do
    let file ← nonempty arg
    return { found with files := found.files ++ [file] }
  else .error .misuse

/-- Sets the file for the stack. -/
def setDump (found : Operands) (name : String) : Except Refusal Operands := do
  let dump ← setOnce found.dump name
  return { found with dump := dump }

end Operands

/-- How far the reading of the arguments of an action has come. -/
inductive Reading where
  /-- Options may follow. -/
  | options
  /-- The file for the stack has to follow. -/
  | dump
  /-- Only plain arguments follow. -/
  | files

/-- The reason why letters after a single dash end the reading: they ask for
help, or make no sense after the name of an action. -/
def helpLetters : List Char → Refusal
  | 'h' :: _ => .help
  | _ => .misuse

/-- Reads the arguments of an action; `limit` is the number of its files, and
`mayDump` tells whether it has a file for the stack. -/
def operands (limit : Nat) (mayDump : Bool) :
    Reading → (found : Operands) → List String → Except Refusal Operands
  | .dump, _, [] => .error .misuse
  | _, found, [] => .ok found
  | .files, found, arg :: rest => do
    let found ← found.addFile limit arg
    operands limit mayDump .files found rest
  | .dump, found, arg :: rest => do
    let name ← separate arg
    let found ← found.setDump name
    operands limit mayDump .options found rest
  | .options, found, arg :: rest =>
    match shape arg with
    | .separator => operands limit mayDump .files found rest
    | .plain => do
      let found ← found.addFile limit arg
      operands limit mayDump .options found rest
    | .short cs => .error (helpLetters cs)
    | .long name value =>
      if name = "help".toList && value.isNone then .error .help
      else if mayDump && name = "dump-stack".toList then
        match value with
        | some v => do
          let name ← attached v
          let found ← found.setDump name
          operands limit mayDump .options found rest
        | none => operands limit mayDump .dump found rest
      else .error .misuse

/-- The action with a given name and arguments. -/
def action (name : String) (args : List String) : Except Refusal Action :=
  if name = "run" then do
    let found ← operands 1 true .options .empty args
    match found.files with
    | [file] => .ok (.run file found.dump)
    | _ => .error .misuse
  else if name = "disassemble" then do
    let found ← operands 1 false .options .empty args
    match found.files with
    | [file] => .ok (.disassemble file)
    | _ => .error .misuse
  else if name = "version" then do
    let found ← operands 0 false .options .empty args
    match found.files with
    | [] => .ok .version
    | _ => .error .misuse
  else if name = "help" then
    match args with
    | [] => .error .help
    | [topic] =>
      if topic ∈ ["run", "disassemble", "version", "help"] then .error .help
      else .error .misuse
    | _ => .error .misuse
  else .error .misuse

/-! ## Options for the log -/

/-- What letters after a single dash ask for. -/
inductive Letters where
  /-- More verbosity. -/
  | verbose (times : Nat)
  /-- More verbosity and a log file, whose name may be attached. -/
  | logFile (times : Nat) (attached : Option (List Char))
  /-- Help, or nothing that makes sense. -/
  | refused (why : Refusal)

/-- Reads letters after a single dash. -/
def letters : (times : Nat) → List Char → Letters
  | times, [] => .verbose times
  | times, 'v' :: rest => letters (times + 1) rest
  | _, 'h' :: _ => .refused .help
  | times, 'l' :: rest =>
    match rest with
    | [] => .logFile times none
    | '=' :: name => .logFile times (some name)
    | name => .logFile times (some name)
  | _, _ => .refused .misuse

/-- The highest verbosity that is told apart. -/
def verbosityLimit : Nat :=
  255

/-- The options for the log found so far. -/
structure LogOptions where
  verbosity : Nat
  file : Option String

/-- More verbosity, up to the limit. -/
def LogOptions.raise (o : LogOptions) (times : Nat) : LogOptions :=
  { o with verbosity := min verbosityLimit (o.verbosity + times) }

/-- Sets the log file. -/
def LogOptions.setFile (o : LogOptions) (name : String) :
    Except Refusal LogOptions := do
  let file ← setOnce o.file name
  return { o with file := file }

/-- Reads the options for the log and the action after them; `awaited` tells
whether the next argument has to be the log file. -/
def parseFrom :
    (awaited : Bool) → (found : LogOptions) → List String →
      Except Refusal Invocation
  | _, _, [] => .error .misuse
  | true, found, arg :: rest => do
    let name ← separate arg
    let found ← found.setFile name
    parseFrom false found rest
  | false, found, arg :: rest =>
    match shape arg with
    | .separator => .error .misuse
    | .plain => do
      let what ← action arg rest
      return ⟨found.verbosity, found.file, what⟩
    | .long name value =>
      if name = "verbose".toList && value.isNone then
        parseFrom false (found.raise 1) rest
      else if name = "help".toList && value.isNone then .error .help
      else if name = "log-file".toList then
        match value with
        | some v => do
          let name ← attached v
          let found ← found.setFile name
          parseFrom false found rest
        | none => parseFrom true found rest
      else .error .misuse
    | .short cs =>
      match letters 0 cs with
      | .refused why => .error why
      | .verbose times => parseFrom false (found.raise times) rest
      | .logFile times (some v) => do
        let name ← attached v
        let found ← (found.raise times).setFile name
        parseFrom false found rest
      | .logFile times none => parseFrom true (found.raise times) rest

/-- Reads a command line. -/
def parse (args : List String) : Except Refusal Invocation :=
  parseFrom false ⟨0, none⟩ args

end Command

end Bytecode
