/-!
Log records: what is reported beside the output of a program, and which records
are kept at which verbosity.
-/

namespace Bytecode

namespace Log

/-- How important a record is. -/
inductive Level where
  | error
  | warn
  | info
  | debug
  | trace
deriving DecidableEq

/-- The name of a level. -/
def Level.name : Level → String
  | error => "ERROR"
  | warn => "WARN"
  | info => "INFO"
  | debug => "DEBUG"
  | trace => "TRACE"

/-- The verbosity that a level needs. -/
def Level.rank : Level → Nat
  | error => 0
  | warn => 1
  | info => 2
  | debug => 3
  | trace => 4

/-- The highest verbosity. -/
def maximum : Nat :=
  4

/-- The level that a verbosity reaches. -/
def Level.ofVerbosity? : Nat → Option Level
  | 0 => some error
  | 1 => some warn
  | 2 => some info
  | 3 => some debug
  | 4 => some trace
  | _ => none

/-- The part of the program that makes a record. -/
inductive Origin where
  /-- The machine. -/
  | machine
  /-- The setting up of the log. -/
  | logging
  /-- The command line. -/
  | command
deriving DecidableEq

/-- The name of a part. -/
def Origin.name : Origin → String
  | machine => "rick_vm::vm"
  | logging => "rickvm::logger"
  | command => "rickvm::cli"

/-- A record. -/
structure Record where
  level : Level
  origin : Origin
  text : String
deriving DecidableEq

/-- A record without its date. -/
def Record.line (r : Record) : String :=
  s!"[{r.level.name} {r.origin.name}] {r.text}"

/-- Whether a record is kept at a level. -/
def Record.keptAt (level : Level) (r : Record) : Bool :=
  r.level.rank ≤ level.rank

end Log

end Bytecode
