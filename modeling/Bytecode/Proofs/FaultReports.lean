import Bytecode.Proofs.FileAcceptance
import Bytecode.Proofs.FileVerdicts
import Bytecode.Proofs.RunCommand

/-!
What is reported when a program fails.

The stack of a program that failed is written out before its failure is reported,
and writing it out can fail as well (`FileTree.Accepts`). Then that is reported in
place of the failure of the program (`session_run_fault`).

A log file comes and grows while the program is read and carried out. The tree
stays one with the same directories and devices (`Session.stopped_resembles`), so
whether a path accepts the stack can be told from the tree as it was at the start.
-/

namespace Bytecode

namespace Command

namespace FileTree

/-! ## Files beside a log -/

theorem resembles_opened {tree after : FileTree} {log : Option String}
    (opens : tree.opened log = .ok after) : tree.Resembles after := by
  cases log with
  | none =>
    cases opens
    exact .refl tree
  | some path => exact resembles_of_createFile opens

theorem resembles_appended (tree : FileTree) (path : String) (bytes : Bytes) :
    tree.Resembles (tree.appended path bytes) := by
  unfold appended
  split
  · next after appends => exact resembles_of_appendFile appends
  · exact .refl tree

/-- A file is read as before once something has been put elsewhere. -/
theorem contents?_put {tree : FileTree} {path : String} {place : Place}
    {bytes : Bytes} (held : tree.contents? path = some bytes)
    (free : tree.node? place ≠ some .directory)
    (elsewhere : tree.find path ≠ .ok place) (node : Node) :
    (tree.put place node).contents? path = some bytes := by
  rw [contents?_eq_some_iff] at held ⊢
  unfold openFile at held ⊢
  cases found : tree.find path with
  | error e =>
    rw [found] at held
    cases held
  | ok here =>
    have leads : (tree.put place node).find path = .ok here :=
      ((leads_of_follow found).put free node).follow
    have different : here ≠ place := fun same => elsewhere (same ▸ found)
    rw [found] at held
    rw [leads]
    dsimp only [bind, Except.bind] at held ⊢
    rwa [tree.node?_put_of_ne different]

/-- Writing to a log that has been set up leaves what a file holds, unless the
file is empty: it may be the log. -/
theorem contents?_appended {tree created : FileTree} {log path : String}
    {bytes : Bytes} (creates : tree.createFile log = .ok created)
    (held : created.contents? path = some bytes) (content : bytes ≠ [])
    (lines : Bytes) : (created.appended log lines).contents? path = some bytes := by
  cases creates_of_createFile creates with
  | @file place target free =>
    have writable : tree.Writable log := ⟨place, target, free⟩
    have there := tree.node?_put_self free.ne_nil (.file [])
    have appends := writable.appendFile [] lines
    rw [write_of_target target, write_of_target target, List.nil_append] at appends
    unfold appended
    rw [appends]
    dsimp only
    rw [← tree.put_put place (.file [])]
    refine contents?_put held (by rw [there]; nofun) (fun found => content ?_) _
    -- The path leads to the log, which is empty.
    rw [contents?_eq_some_iff] at held
    unfold openFile at held
    rw [found] at held
    dsimp only [bind, Except.bind] at held
    rw [there] at held
    exact (congrArg Source.bytes (Except.ok.inj held)).symm
  | @device place node target there noFile noDirectory =>
    have appends := appendFile_of_target target lines
    rw [there] at appends
    unfold appended
    rw [appends]
    cases node with
    | file old => exact absurd rfl (noFile old)
    | directory => exact absurd rfl noDirectory
    | nullDevice | zeroDevice => exact held
    | fullDevice =>
      dsimp only
      split
      · next after same =>
        split at same
        · cases same
          exact held
        · cases same
      · exact held

end FileTree

/-! ## Sessions -/

/-- What the error stream shows of log records. -/
def Logging.shown (logging : Logging) (records : List Log.Record) : Bytes :=
  match logging.file with
  | none => logLines logging.level records
  | some _ => []

theorem Logging.shown_append (logging : Logging) (first second : List Log.Record) :
    logging.shown (first ++ second) = logging.shown first ++ logging.shown second := by
  unfold shown
  cases logging.file with
  | none => exact logLines_append _ first second
  | some path => rfl

namespace Session

variable {s after : Session}

theorem recorded_errors (s : Session) (logging : Logging)
    (records : List Log.Record) :
    (s.recorded logging records).errors = s.errors ++ logging.shown records := by
  unfold recorded Logging.shown
  cases logging.file with
  | none => rfl
  | some path => exact (List.append_nil _).symm

theorem recorded_resembles (s : Session) (logging : Logging)
    (records : List Log.Record) :
    s.files.Resembles (s.recorded logging records).files := by
  unfold recorded
  cases logging.file with
  | none => exact .refl _
  | some path => exact s.files.resembles_appended path _

theorem outcome_recorded (s : Session) (logging : Logging)
    (records : List Log.Record) (program : Program) :
    (s.recorded logging records).outcome program = s.outcome program := by
  unfold recorded
  cases logging.file with
  | none => rfl
  | some path => rfl

/-- An error in writing out a stack. -/
inductive DumpError (path : String) : ActionError → Prop
  | create (e : SystemError) : DumpError path (.createDump path e)
  | write (e : SystemError) : DumpError path (.writeDump e)

/-- Writing out a stack succeeds exactly if the path that is named accepts its
text, and shows nothing on the error stream. -/
theorem exists_takes_dumpStack? (s : Session) (dump : Option String)
    (stack : Stack) :
    ∃ result after, s.Takes (dumpStack? host dump stack) result after ∧
      after.errors = s.errors ∧
      ((result = .ok () ∧ ∀ path ∈ dump, s.files.Accepts path (stackText stack)) ∨
        ∃ path ∈ dump, ¬ s.files.Accepts path (stackText stack) ∧
          ∃ e, DumpError path e ∧ result = .error e) := by
  cases dump with
  | none => exact ⟨_, _, takes_pure s (), rfl, .inl ⟨rfl, nofun⟩⟩
  | some path =>
    cases s.files.overwrites path (stackText stack) with
    | @refused e refused never =>
      exact ⟨_, _, takes_dumpStack?_refused refused, rfl,
        .inr ⟨path, rfl, never, _, .create e, rfl⟩⟩
    | @cut created e creates refused never =>
      exact ⟨_, _, takes_dumpStack?_cut creates refused, rfl,
        .inr ⟨path, rfl, never, _, .write e, rfl⟩⟩
    | done creates appends accepts =>
      refine ⟨_, _, takes_dumpStack?_done creates appends, rfl, .inl ⟨rfl, ?_⟩⟩
      rintro _ ⟨⟩
      exact accepts

/-- The session once a program that was read has been carried out and logged. -/
def stopped (s : Session) (logging : Logging) (file : String) (program : Program) :
    Session :=
  let o := s.outcome program
  ((s.recorded logging [readRecord file program]).used o).recorded logging o.log

theorem stopped_errors (s : Session) (logging : Logging) (file : String)
    (program : Program) :
    (s.stopped logging file program).errors = s.errors ++
      logging.shown (readRecord file program :: (s.outcome program).log) := by
  have parts := logging.shown_append [readRecord file program] (s.outcome program).log
  unfold stopped
  rw [recorded_errors]
  change (s.recorded logging _).errors ++ _ = _
  rw [recorded_errors, List.append_assoc, ← parts]
  rfl

theorem stopped_resembles (s : Session) (logging : Logging) (file : String)
    (program : Program) :
    s.files.Resembles (s.stopped logging file program).files :=
  (s.recorded_resembles logging _).trans (recorded_resembles _ logging _)

/-- A program that was read is carried out and logged; how it ended tells what is
done then. -/
theorem takes_run_of_stopped {logging : Logging} {file : String}
    {dump : Option String} {program : Program} {result : Except ActionError Unit}
    (read : s.files.program file = .ok program)
    (rest : let o := s.outcome program
      (s.stopped logging file program).Takes
        (match o.result with
        | .ok () => do
          emit host logging [haltedRecord o.machine.steps]
          dumpStack? host dump o.machine.stack
        | .error fault => do
          dumpStack? host dump o.machine.stack
          throw (.fault fault)) result after) :
    s.Takes (run host logging file dump) result after := by
  have reads := s.takes_readProgram logging file
  rw [read] at reads
  unfold run
  refine reads.bind ?_
  refine (takes_execute _ program).bind ?_
  rw [outcome_recorded]
  exact (takes_emit _ logging _).bind rest

/-- After a program has failed, its stack is written out first; what goes wrong
there comes in place of the fault. -/
theorem takes_run_fault {logging : Logging} {file : String} {dump : Option String}
    {program : Program} {fault : Fault} {result : Except ActionError Unit}
    (read : s.files.program file = .ok program)
    (failed : (s.outcome program).result = .error fault)
    (dumps : (s.stopped logging file program).Takes
      (dumpStack? host dump (s.outcome program).machine.stack) result after) :
    s.Takes (run host logging file dump)
      (result.bind fun _ => .error (.fault fault)) after := by
  refine takes_run_of_stopped read ?_
  dsimp only
  rw [failed]
  cases result with
  | error e => exact dumps.bind_error
  | ok _ => exact dumps.bind (takes_throw _ _)

/-- Running a program that fails gives its fault exactly if its stack can be
written out, and the error of writing it out otherwise. -/
theorem exists_takes_run_fault {logging : Logging} {file : String} {bytes : Bytes}
    {program : Program} {fault : Fault} (held : s.files.contents? file = some bytes)
    (decoded : Program.decode bytes = .ok program)
    (failed : (s.outcome program).result = .error fault) (dump : Option String) :
    let text := stackText (s.outcome program).machine.stack
    ∃ e after, s.Takes (run host logging file dump) (.error e) after ∧
      after.errors = s.errors ++
        logging.shown (readRecord file program :: (s.outcome program).log) ∧
      ((e = .fault fault ∧ ∀ path ∈ dump, s.files.Accepts path text) ∨
        ∃ path ∈ dump, ¬ s.files.Accepts path text ∧ DumpError path e) := by
  intro text
  obtain ⟨result, after, dumps, quiet, outcome⟩ :=
    (s.stopped logging file program).exists_takes_dumpStack? dump
      (s.outcome program).machine.stack
  have read := FileTree.program_of_contents? held
  rw [decoded] at read
  have takes := takes_run_fault read failed dumps
  have accepts_iff := fun path =>
    (s.stopped_resembles logging file program).accepts_iff path text
  rw [s.stopped_errors] at quiet
  rcases outcome with ⟨rfl, accepts⟩ | ⟨path, named, refused, e, error, rfl⟩
  · exact ⟨_, _, takes, quiet, .inl ⟨rfl, fun path named =>
      (accepts_iff path).1 (accepts path named)⟩⟩
  · exact ⟨_, _, takes, quiet, .inr ⟨path, named,
      mt (accepts_iff path).2 refused, error⟩⟩

/-- What a file holds that is not empty can still be read after the log of a
session has been set up. -/
theorem contents?_recorded {files opened : FileTree} {logging : Logging}
    {path : String} {bytes : Bytes} (opens : files.opened logging.file = .ok opened)
    (held : opened.contents? path = some bytes) (content : bytes ≠ [])
    (input : Bytes) (records : List Log.Record) :
    ((Session.start opened input).recorded logging records).files.contents? path =
      some bytes := by
  unfold recorded
  cases log : logging.file with
  | none => exact held
  | some name =>
    rw [log] at opens
    exact FileTree.contents?_appended opens held content _

end Session

/-! ## Reports -/

open PoolError (opening opening_ofList)

theorem opening_faultText (fault : Fault) :
    opening (faultText fault) = ['V', 'M'] := by
  change opening ("VM trap at #" ++ toString fault.pc ++ ": " ++
    fault.trap.message ++ " (instruction " ++
      (instructionText fault.instruction ++ ", stack depth " ++
        toString fault.depth ++ ")")) = _
  simp only [String.append_assoc]
  exact opening_ofList _ _ _ _

/-- No failure to write out a stack is worded like the failure of a program. -/
theorem Session.DumpError.message_ne {path : String} {e : ActionError}
    (error : DumpError path e) (fault : Fault) : e.message ≠ faultText fault := by
  intro same
  have openings : opening e.message = ['U', 'n'] := by
    cases error with
    | create e =>
      change opening ("Unable to create dump file " ++ path ++ ": " ++ e.message) = _
      simp only [String.append_assoc]
      exact opening_ofList _ _ _ _
    | write e => exact opening_ofList _ _ _ _
  rw [same, opening_faultText] at openings
  exact absurd openings (by decide)

/-- Running a program that fails ends with the exit code 1. The failure is reported
exactly if no file is named for the stack or the path that is named accepts its
text; otherwise the failure to write it out is reported instead. -/
theorem session_run_fault {args : List String} {verbosity : Nat}
    {level : Log.Level} {log dump : Option String} {file : String}
    {files opened : FileTree} {bytes : Bytes} {program : Program} {fault : Fault}
    (input : Bytes)
    (parsed : parse args = .ok ⟨verbosity, log, .run file dump⟩)
    (known : Log.Level.ofVerbosity? verbosity = some level)
    (opens : files.opened log = .ok opened)
    (held : opened.contents? file = some bytes)
    (decoded : Program.decode bytes = .ok program)
    (failed : (execute program
      (Console.fresh (Source.ofBytes input) Sink.unlimited)).result = .error fault) :
    let o := execute program (Console.fresh (Source.ofBytes input) Sink.unlimited)
    let trapMessage := s!"VM trap at #{fault.pc}: {fault.trap.message} (instruction " ++
      s!"{instructionText fault.instruction}, stack depth {fault.depth})"
    ∃ after message, session args files input = (1, after) ∧
      after.errors =
        Logging.shown ⟨level, log⟩
            (loggingRecord level :: readRecord file program :: o.log) ++
          Utf8.encode ("Error: " ++ Quoted.text message ++ "\n") ∧
      (message = trapMessage ↔
        ∀ path ∈ dump, files.Accepts path (stackText o.machine.stack)) ∧
      (message ≠ trapMessage → ∃ path ∈ dump, ∃ e : SystemError,
        message = s!"Unable to create dump file {path}: {e.message}" ∨
          message = s!"Unable to write dump file: {e.message}") := by
  intro o trapMessage
  let s := (Session.start opened input).recorded ⟨level, log⟩ [loggingRecord level]
  have content : bytes ≠ [] := by
    rintro rfl
    cases decoded
  have held : s.files.contents? file = some bytes :=
    Session.contents?_recorded opens held content input _
  have same : s.outcome program = o :=
    (Session.start opened input).outcome_recorded _ _ program
  have stops : (s.outcome program).result = .error fault := by
    rw [same]
    exact failed
  have alike : files.Resembles s.files :=
    (FileTree.resembles_opened opens).trans
      ((Session.start opened input).recorded_resembles ⟨level, log⟩ _)
  have accepts_iff := fun path =>
    alike.accepts_iff path (stackText o.machine.stack)
  obtain ⟨e, after, takes, errors, outcome⟩ :=
    Session.exists_takes_run_fault held decoded stops dump
  have ends := session_eq_of_logged_run parsed known opens takes
  have shown : after.errors = Logging.shown ⟨level, log⟩
      (loggingRecord level :: readRecord file program :: o.log) := by
    have parts := Logging.shown_append ⟨level, log⟩ [loggingRecord level]
      (readRecord file program :: o.log)
    rw [errors, same, Session.recorded_errors]
    exact parts.symm
  rw [same] at outcome
  have reported : (after.reported (.error e)).errors = after.errors ++
      Utf8.encode ("Error: " ++ Quoted.text e.message ++ "\n") := rfl
  rw [shown] at reported
  refine ⟨_, e.message, ends, reported, ?_⟩
  rcases outcome with ⟨rfl, accepts⟩ | ⟨path, named, refused, error⟩
  · refine ⟨⟨fun _ path named => ?_, fun _ => rfl⟩, fun other => absurd rfl other⟩
    exact (accepts_iff path).1 (accepts path named)
  · have different : e.message ≠ trapMessage := error.message_ne fault
    refine ⟨⟨fun equal => absurd equal different, fun all => ?_⟩,
      fun _ => ⟨path, named, ?_⟩⟩
    · exact absurd ((accepts_iff path).2 (all path named)) refused
    · cases error with
      | create e => exact ⟨e, .inl rfl⟩
      | write e => exact ⟨e, .inr rfl⟩

/-- A division by zero, with a log file and the stack sent to a device that drops
it: the division is reported. -/
theorem session_run_fault_division :
    let program : Program :=
      ⟨[.int 10, .int 0], [.loadConst 0, .loadConst 1, .binary .div, .halt]⟩
    let files := FileTree.initial.addFile "d.rk" program.encode
    let args := ["--log-file", "log", "run", "d.rk", "--dump-stack", "/dev/null"]
    ∃ after, session args files [] = (1, after) ∧
      after.errors = Utf8.encode ("Error: \"VM trap at #2: division by zero " ++
        "(instruction DIV, stack depth 2)\"\n") := by
  intro program files args
  have parsed : parse args =
      .ok ⟨0, some "log", .run "d.rk" (some "/dev/null")⟩ := by rfl
  have opens : files.opened (some "log") =
      .ok (files.put ["home", "log"] (.file [])) := by rfl
  have held : (files.put ["home", "log"] (.file [])).contents? "d.rk" =
      some program.encode := by rfl
  have decoded : Program.decode program.encode = .ok program := by rfl
  have accepts : ∀ bytes, ∀ path ∈ some "/dev/null", files.Accepts path bytes := by
    rintro bytes path ⟨⟩
    exact ⟨["dev", "null"], by rfl, nofun, nofun⟩
  obtain ⟨after, message, ends, errors, reported, -⟩ :=
    session_run_fault [] parsed rfl opens held decoded (by rfl)
  obtain rfl := reported.2 (accepts _)
  exact ⟨after, ends, errors.trans (by decide +kernel)⟩

/-- The failure of a program can go unreported: here there is no directory for the
file that the stack is to be written to. -/
theorem session_hides_fault :
    ¬ ∀ args file dump files bytes program input fault,
      parse args = .ok ⟨0, none, .run file dump⟩ →
      files.contents? file = some bytes → Program.decode bytes = .ok program →
      (execute program
        (Console.fresh (Source.ofBytes input) Sink.unlimited)).result = .error fault →
      ∃ after, session args files input = (1, after) ∧
        Utf8.encode ("Error: " ++ Quoted.text
          (s!"VM trap at #{fault.pc}: {fault.trap.message} (instruction " ++
            s!"{instructionText fault.instruction}, stack depth {fault.depth})") ++
          "\n") <:+ after.errors := by
  intro every
  let program : Program :=
    ⟨[.int 10, .int 0], [.loadConst 0, .loadConst 1, .binary .div, .halt]⟩
  let files := FileTree.initial.addFile "d.rk" program.encode
  let args := ["run", "d.rk", "--dump-stack", "no/dump.txt"]
  obtain ⟨after, ends, reported⟩ := every args "d.rk" (some "no/dump.txt") files
    program.encode program [] ⟨.divisionByZero, 2, some (.binary .div), 2⟩
    (by rfl) (by rfl) (by rfl) (by rfl)
  have errors : (session args files []).2.errors = Utf8.encode
      ("Error: \"Unable to create dump file no/dump.txt: " ++
        "No such file or directory (os error 2)\"\n") := by
    decide +kernel
  rw [ends] at errors
  rw [errors] at reported
  revert reported
  decide +kernel

end Command

end Bytecode
