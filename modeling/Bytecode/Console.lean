import Bytecode.Sink
import Bytecode.Source
import Bytecode.Text.Utf8

/-!
The streams that a running program reads from and writes to, with a record of
what was done to them.

The record lists events in the order in which they happened. All that was
written can be told from it, and so can whether a flush came before a read.
-/

namespace Bytecode

/-- Something done to the streams. -/
inductive Event where
  /-- These bytes were accepted. -/
  | write (bytes : Bytes)
  /-- The output was flushed. -/
  | flush
  /-- Flushing the output failed. -/
  | failedFlush
  /-- A line was asked for. -/
  | read
deriving DecidableEq

namespace Event

/-- The bytes that an event put out. -/
def written : Event → Bytes
  | write bytes => bytes
  | _ => []

/-- The events as a bystander sees them: writes that follow each other are one,
and a failed flush leaves no mark. -/
def joined : List Event → List Event
  | [] => []
  | failedFlush :: rest => joined rest
  | write bytes :: rest =>
    match joined rest with
    | write more :: rest => write (bytes ++ more) :: rest
    | rest => write bytes :: rest
  | e :: rest => e :: joined rest

end Event

/-- The streams of a running program. -/
structure Console where
  input : Source
  output : Sink
  events : List Event
deriving DecidableEq

namespace Console

/-- Streams to which nothing has been done. -/
def fresh (input : Source) (output : Sink) : Console :=
  ⟨input, output, []⟩

/-- All bytes written. -/
def written (console : Console) : Bytes :=
  console.events.flatMap Event.written

/-- Writes bytes. Writing nothing is no event. -/
def write (bytes : Bytes) (console : Console) : Except String Unit × Console :=
  let w := console.output.write bytes
  let events :=
    if w.accepted = [] then console.events
    else console.events ++ [.write w.accepted]
  (w.result, { console with output := w.sink, events := events })

/-- Flushes the output. -/
def flush (console : Console) : Except String Unit × Console :=
  let (result, output) := console.output.flush
  let event :=
    match result with
    | .ok () => Event.flush
    | .error _ => Event.failedFlush
  (result, { console with output := output, events := console.events ++ [event] })

/-- The reason given for a line that is not UTF-8. -/
def notUtf8 : String :=
  "stream did not contain valid UTF-8"

/-- A line without its line end, which is a line feed with or without one
carriage return before it. -/
def withoutLineEnd (line : List Char) : List Char :=
  match line.reverse with
  | '\n' :: '\r' :: rest => rest.reverse
  | '\n' :: rest => rest.reverse
  | _ => line

/-- Reads a line. One that is not UTF-8 is used up all the same. -/
def readLine (console : Console) : Except Ending (List Char) × Console :=
  let (result, input) := console.input.takeLine
  let console :=
    { console with input := input, events := console.events ++ [.read] }
  match result with
  | .error ending => (.error ending, console)
  | .ok bytes =>
    match Utf8.decode? bytes with
    | some line => (.ok (withoutLineEnd line), console)
    | none => (.error (.failing notUtf8), console)

end Console

end Bytecode
