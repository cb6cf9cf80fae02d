import Bytecode.Command.Perform

/-!
The command line on a real system.

The program runs on the standard streams: a line is taken from the standard
input when an instruction asks for one, after everything written so far has been
put out.
-/

namespace Bytecode

namespace Command

/-- The reason that an error of the system stands for. -/
def SystemError.ofError (e : IO.Error) : SystemError :=
  match e with
  | .noFileOrDirectory .. => .notFound
  | .inappropriateType _ code _ =>
    if code = 21 then .isDirectory else .notDirectory
  | .resourceExhausted _ code text =>
    if code = 28 then .noSpace else .other text
  | e => .other (toString e)

/-- Does something to a file. -/
def attempt {α : Type} (act : IO α) : IO (Except SystemError α) := do
  try return .ok (← act)
  catch e => return .error (.ofError e)

/-- Opens a file and reads what is in it. -/
def openSystemFile (path : String) : IO (Except SystemError Source) := do
  match ← attempt (IO.FS.Handle.mk path .read) with
  | .error e => return .error e
  | .ok handle =>
    match ← attempt handle.readBinToEnd with
    | .ok bytes => return .ok (Source.ofBytes bytes.toList)
    | .error e => return .ok ⟨[], .failing e.message⟩

/-- Reads up to a line end, or as far as there is something to read. -/
partial def readLineBytes (stream : IO.FS.Stream) (read : ByteArray) :
    IO ByteArray := do
  let byte ← stream.read 1
  if byte.isEmpty then return read
  else if byte.toList = [Source.lineEnd] then return read ++ byte
  else readLineBytes stream (read ++ byte)

/-- The next line of the standard input as a source. -/
def nextLine : IO Source := do
  match ← attempt (readLineBytes (← IO.getStdin) .empty) with
  | .ok bytes => return Source.ofBytes bytes.toList
  | .error e => return ⟨[], .failing e.message⟩

/-- Does to the standard output what was done to a sink. -/
def replay (events : List Event) : IO Unit := do
  let output ← IO.getStdout
  for event in events do
    match event with
    | .write bytes => output.write ⟨bytes.toArray⟩
    | .flush => output.flush
    | _ => pure ()

/-- Whether the next instruction asks for a line. -/
def asksForLine (m : Machine) : Bool :=
  match m.program.code[m.pc]? with
  | some .readInt | some .readString => !m.halted
  | _ => false

/-- Runs a machine on the standard streams. -/
partial def converse (m : Machine) (log : List Log.Record) :
    IO (Outcome Unit) := do
  let input ←
    if asksForLine m then
      (← IO.getStdout).flush
      nextLine
    else pure (Source.ofBytes [])
  let s := m.step (Console.fresh input Sink.unlimited)
  replay s.console.events
  let log := log ++ s.log
  match s.result with
  | .ok .running => converse s.machine log
  | .ok .halted => return ⟨.ok (), s.machine, s.console, log⟩
  | .error fault =>
    (← IO.getStdout).flush
    return ⟨.error fault, s.machine, s.console, log⟩

/-- The system as a host. -/
def systemHost : Host IO where
  openFile := openSystemFile
  createFile path := do
    match ← attempt (IO.FS.Handle.mk path .write) with
    | .ok _ => return .ok ()
    | .error e => return .error e
  appendFile path bytes :=
    attempt do
      let handle ← IO.FS.Handle.mk path .append
      handle.write ⟨bytes.toArray⟩
      handle.flush
  writeOutput bytes := replay [.write bytes, .flush]
  writeError bytes := do (← IO.getStderr).write ⟨bytes.toArray⟩
  execute program := converse (.start program) [program.loaded]

end Command

end Bytecode

/-- The command line. -/
def main (args : List String) : IO UInt32 := do
  let code ← Bytecode.Command.handle Bytecode.Command.systemHost args
  return UInt32.ofNat code
