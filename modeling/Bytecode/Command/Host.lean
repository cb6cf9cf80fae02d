import Bytecode.Machine

/-!
What the command line needs from the system that it runs on.

A host offers files, the standard streams and the running of a program on them.
The command line is written against this interface, so the same text serves for
a real system and for a `Session`, which is a value.
-/

namespace Bytecode

namespace Command

/-- Why the system refuses an operation on a file. -/
inductive SystemError where
  | notFound
  | notDirectory
  | isDirectory
  | noSpace
  /-- Any other reason, in the system's words. -/
  | other (text : String)
deriving DecidableEq

/-- The system's words for a reason. -/
def SystemError.message : SystemError → String
  | notFound => "No such file or directory (os error 2)"
  | notDirectory => "Not a directory (os error 20)"
  | isDirectory => "Is a directory (os error 21)"
  | noSpace => "No space left on device (os error 28)"
  | other text => text

/-- A system to run on. -/
structure Host (m : Type → Type) where
  /-- Opens a file for reading. -/
  openFile : String → m (Except SystemError Source)
  /-- Creates a file, or empties it if it exists. -/
  createFile : String → m (Except SystemError Unit)
  /-- Writes at the end of a file. -/
  appendFile : String → Bytes → m (Except SystemError Unit)
  /-- Writes to the standard output. -/
  writeOutput : Bytes → m Unit
  /-- Writes to the standard error stream. -/
  writeError : Bytes → m Unit
  /-- Runs a program on the standard input and the standard output. -/
  execute : Program → m (Outcome Unit)

end Command

end Bytecode
