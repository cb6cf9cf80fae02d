import Bytecode.Bytes
import Bytecode.Code
import Bytecode.Command.Arguments
import Bytecode.Command.FileTree
import Bytecode.Command.Host
import Bytecode.Command.Perform
import Bytecode.Command.Session
import Bytecode.Console
import Bytecode.Constant
import Bytecode.ConstantPool
import Bytecode.Decimal.Layout
import Bytecode.Decimal.Shortest
import Bytecode.Disassembly
import Bytecode.Effect
import Bytecode.FormatError
import Bytecode.Instruction
import Bytecode.Json.Document
import Bytecode.Json.Fault
import Bytecode.Json.NumberLiteral
import Bytecode.Json.Printer
import Bytecode.Json.StringLiteral
import Bytecode.Json.Value
import Bytecode.Log
import Bytecode.Machine
import Bytecode.Main
import Bytecode.Program
import Bytecode.Sink
import Bytecode.Source
import Bytecode.Text.Blank
import Bytecode.Text.Combining
import Bytecode.Text.Ignorable
import Bytecode.Text.Numeral
import Bytecode.Text.Printable
import Bytecode.Text.Quoted
import Bytecode.Text.Range
import Bytecode.Text.Utf8
import Bytecode.Trap
import Bytecode.Value
import Bytecode.Proofs.PoolGrammar
import Bytecode.Proofs.Utf8Roundtrip
import Bytecode.Proofs.JsonStrings
import Bytecode.Proofs.JsonNumbers
import Bytecode.Proofs.PoolReading
import Bytecode.Proofs.CodeRoundtrip
import Bytecode.Proofs.FileRoundtrip
import Bytecode.Proofs.FileVerdicts
import Bytecode.Proofs.FileSections
import Bytecode.Proofs.FileBoundaries
import Bytecode.Proofs.BlockReading
import Bytecode.Proofs.BrokenFiles
import Bytecode.Proofs.InstructionPlaces
import Bytecode.Proofs.DisassemblyEntries
import Bytecode.Proofs.MachineRuns
import Bytecode.Proofs.TypeWalk
import Bytecode.Proofs.Reloading
import Bytecode.Proofs.Demands
import Bytecode.Proofs.MachineUse
import Bytecode.Proofs.FailedSteps
import Bytecode.Proofs.StackFrame
import Bytecode.Proofs.Courses
import Bytecode.Proofs.RunLength
import Bytecode.Proofs.Streams
import Bytecode.Proofs.AttemptRecords
import Bytecode.Proofs.LineReading
import Bytecode.Proofs.Resumption
import Bytecode.Proofs.Flushing
import Bytecode.Proofs.OutputLimit
import Bytecode.Proofs.FileWriting
import Bytecode.Proofs.FileAcceptance
import Bytecode.Proofs.FilesApart
import Bytecode.Proofs.RunCommand
import Bytecode.Proofs.FaultReports
import Bytecode.Proofs.FailingInput
import Bytecode.Proofs.WordArithmetic
import Bytecode.Proofs.IntegerLines
import Bytecode.Proofs.JsonLayout
import Bytecode.Proofs.DisassemblyText
import Bytecode.Proofs.PoolForm
import Bytecode.Proofs.LoggedRuns
