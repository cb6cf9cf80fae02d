import Bytecode.Command.FileTree
import Bytecode.Command.Perform

/-!
A session: a command line carried out on a tree of files and a given standard
input, with everything it does kept as a value.
-/

namespace Bytecode

namespace Command

/-- The state of a session. -/
structure Session where
  files : FileTree
  input : Source
  output : Bytes
  errors : Bytes

namespace Session

/-- The session before anything is done. -/
def start (files : FileTree) (input : Bytes) : Session :=
  ⟨files, Source.ofBytes input, [], []⟩

/-- Takes over a changed tree of files. -/
def withFiles (s : Session) :
    Except SystemError FileTree → Except SystemError Unit × Session
  | .ok files => (.ok (), { s with files := files })
  | .error e => (.error e, s)

/-- Runs a program on the standard streams, which never fail. -/
def execute (program : Program) (s : Session) : Outcome Unit × Session :=
  let outcome :=
    Bytecode.execute program (Console.fresh s.input Sink.unlimited)
  (outcome,
    { s with
      input := outcome.console.input
      output := s.output ++ outcome.console.written })

/-- A session as a system to run on. -/
def host : Host (StateM Session) where
  openFile path := fun s => (s.files.openFile path, s)
  createFile path := fun s => s.withFiles (s.files.createFile path)
  appendFile path bytes :=
    fun s => s.withFiles (s.files.appendFile path bytes)
  writeOutput bytes := fun s => ((), { s with output := s.output ++ bytes })
  writeError bytes := fun s => ((), { s with errors := s.errors ++ bytes })
  execute program := execute program

end Session

/-- The exit code of a command line and the session afterwards. -/
def session (args : List String) (files : FileTree) (input : Bytes) :
    Nat × Session :=
  (handle Session.host args).run (Session.start files input)

end Command

end Bytecode
