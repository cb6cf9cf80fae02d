import Bytecode.Command.Arguments
import Bytecode.Command.Host
import Bytecode.Disassembly

/-!
Carrying out a command line.

The log is set up first, then the action is carried out. The stack of a program
is written out whether the program ended or failed; if that cannot be done, it
is reported instead of the failure of the program. What goes wrong is reported
in one line on the standard error stream, and the exit code is 1. Arguments that
make no sense give the exit code 2.
-/

namespace Bytecode

namespace Command

/-! ## Errors -/

/-- Why an action could not be carried out. -/
inductive ActionError where
  /-- There is no level for this verbosity. -/
  | verbosity (n : Nat)
  /-- The log file cannot be created. -/
  | logFile (path : String) (error : SystemError)
  /-- The program file cannot be opened. -/
  | openProgram (path : String) (error : SystemError)
  /-- The program file holds no program. -/
  | readProgram (path : String) (error : FormatError)
  /-- The file for the stack cannot be created. -/
  | createDump (path : String) (error : SystemError)
  /-- The file for the stack cannot be written. -/
  | writeDump (error : SystemError)
  /-- The program failed. -/
  | fault (fault : Fault)

/-- The instruction at which a program failed, as text. -/
def instructionText : Option Instruction → String
  | some i => i.text
  | none => "<none>"

/-- The wording of the failure of a program. -/
def faultText (f : Fault) : String :=
  s!"VM trap at #{f.pc}: {f.trap.message} (instruction " ++
    s!"{instructionText f.instruction}, stack depth {f.depth})"

/-- The wording of an error. -/
def ActionError.message : ActionError → String
  | verbosity n => s!"Verbosity {n} is above the maximum of {Log.maximum}"
  | logFile path e => s!"Unable to create log file {path}: {e.message}"
  | openProgram path e => s!"Unable to open {path}: {e.message}"
  | readProgram path e => s!"Unable to read program {path}: {e.message}"
  | createDump path e => s!"Unable to create dump file {path}: {e.message}"
  | writeDump e => s!"Unable to write dump file: {e.message}"
  | fault f => faultText f

/-- The line that reports an error. -/
def ActionError.report (e : ActionError) : String :=
  "Error: " ++ Quoted.text e.message ++ "\n"

/-! ## The log -/

/-- Where log records go, and which of them. -/
structure Logging where
  level : Log.Level
  /-- The log file; without one, records go to the standard error stream. -/
  file : Option String

section

variable {m : Type → Type} [Monad m]

/-- Writes log records, each on a line. A record that cannot be written is
lost. -/
def emit (host : Host m) (logging : Logging) (records : List Log.Record) :
    ExceptT ActionError m Unit := do
  let kept := records.filter (·.keptAt logging.level)
  let lines := kept.flatMap fun r => Utf8.encode (r.line ++ "\n")
  match logging.file with
  | none => host.writeError lines
  | some path =>
    let _ ← host.appendFile path lines
    return ()

/-- The record made once the log is set up. -/
def loggingRecord (level : Log.Level) : Log.Record :=
  ⟨.debug, .logging, s!"Logging at level {level.name}"⟩

/-- Sets up the log. -/
def openLog (host : Host m) (verbosity : Nat) (file : Option String) :
    ExceptT ActionError m Logging := do
  match Log.Level.ofVerbosity? verbosity with
  | none => throw (.verbosity verbosity)
  | some level =>
    match file with
    | none => pure ()
    | some path =>
      match ← host.createFile path with
      | .ok () => pure ()
      | .error e => throw (.logFile path e)
    let logging : Logging := ⟨level, file⟩
    emit host logging [loggingRecord level]
    return logging

/-! ## Actions -/

/-- The record made once a program has been read. -/
def readRecord (path : String) (program : Program) : Log.Record :=
  ⟨.debug, .command,
    s!"Read {path} with {program.constants.length} constants and " ++
      s!"{program.code.length} instructions"⟩

/-- Reads a program file. -/
def readProgram (host : Host m) (logging : Logging) (path : String) :
    ExceptT ActionError m Program := do
  match ← host.openFile path with
  | .error e => throw (.openProgram path e)
  | .ok source =>
    match (Program.read source).1 with
    | .error e => throw (.readProgram path e)
    | .ok program =>
      emit host logging [readRecord path program]
      return program

/-- The lines for the values of a stack, counted from an index. -/
def dumpLines : (index : Nat) → List Value → String
  | _, [] => ""
  | index, v :: rest =>
    s!"stack[{index}]: {v.text}\n" ++ dumpLines (index + 1) rest

/-- Writes a stack to a file. -/
def dumpStack (host : Host m) (path : String) (stack : Stack) :
    ExceptT ActionError m Unit := do
  match ← host.createFile path with
  | .error e => throw (.createDump path e)
  | .ok () =>
    match ← host.appendFile path (Utf8.encode (dumpLines 0 stack.values)) with
    | .error e => throw (.writeDump e)
    | .ok () => return ()

/-- Writes a stack to a file if one was named. -/
def dumpStack? (host : Host m) (dump : Option String) (stack : Stack) :
    ExceptT ActionError m Unit :=
  match dump with
  | none => pure ()
  | some path => dumpStack host path stack

/-- The record made once a program has ended. -/
def haltedRecord (steps : Nat) : Log.Record :=
  ⟨.info, .command, s!"Program halted after {steps} instructions"⟩

/-- Carries out a program. -/
def run (host : Host m) (logging : Logging) (file : String)
    (dump : Option String) : ExceptT ActionError m Unit := do
  let program ← readProgram host logging file
  let outcome ← host.execute program
  emit host logging outcome.log
  match outcome.result with
  | .ok () =>
    emit host logging [haltedRecord outcome.machine.steps]
    dumpStack? host dump outcome.machine.stack
  | .error f =>
    dumpStack? host dump outcome.machine.stack
    throw (.fault f)

/-- Shows a program. -/
def disassemble (host : Host m) (logging : Logging) (file : String) :
    ExceptT ActionError m Unit := do
  let program ← readProgram host logging file
  host.writeOutput (Utf8.encode ((Disassembly.ofProgram program).text ++ "\n"))

/-- The version of the machine. -/
def versionText : String :=
  "rickvm version 0.1.0\n"

/-- Carries out a command line that makes sense. -/
def perform (host : Host m) (invocation : Invocation) :
    ExceptT ActionError m Unit := do
  let logging ← openLog host invocation.verbosity invocation.logFile
  match invocation.action with
  | .run file dump => run host logging file dump
  | .disassemble file => disassemble host logging file
  | .version => host.writeOutput (Utf8.encode versionText)

/-! ## The command line -/

/-- How the command line is used. -/
def usageText : String :=
  "Rick bytecode virtual machine\n\n" ++
    "Usage: rickvm [OPTIONS] <COMMAND>\n\n" ++
    "Commands:\n" ++
    "  run FILE [--dump-stack FILE]  Loads and executes a program file\n" ++
    "  disassemble FILE              Prints a program file as JSON\n" ++
    "  version                       Prints the version number\n\n" ++
    "Options:\n" ++
    "  -v, --verbose        Turn on verbose logging\n" ++
    "  -l, --log-file FILE  Write the log to a file\n" ++
    "  -h, --help           Print help\n"

/-- Carries out a command line; the result is the exit code. -/
def handle (host : Host m) (args : List String) : m Nat := do
  match parse args with
  | .error .help =>
    host.writeOutput (Utf8.encode usageText)
    return 0
  | .error .misuse =>
    host.writeError (Utf8.encode usageText)
    return 2
  | .ok invocation =>
    match ← (perform host invocation).run with
    | .ok () => return 0
    | .error e =>
      host.writeError (Utf8.encode e.report)
      return 1

end

end Command

end Bytecode
