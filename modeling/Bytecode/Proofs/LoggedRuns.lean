import Bytecode.Proofs.AttemptRecords
import Bytecode.Proofs.FaultReports
import Bytecode.Proofs.FilesApart

/-!
Runs that differ in their logs only.

A session that keeps a log is compared with one that keeps none
(`Session.Shadows`): they have the same input and output, and their trees differ in
the log file only, if there is one. Making records keeps them so, and every other
action comes to the same in both as long as the paths that it uses keep away from
the log file. Hence what a run comes to does not depend on the log
(`Session.exists_run`), nor does what a command line comes to
(`session_run_apart_from_log`).

It is not enough that the log file is not one of the others. A path that takes it
for a directory leads nowhere, but the system words that otherwise once the file is
there (`session_run_through_log`).
-/

namespace Bytecode

namespace Command

/-! ## Logs in trees -/

namespace FileTree

variable {tree other : FileTree} {log : Option String} {own : Option Place}
variable {paths : List String}

/-- Where the file of a log is, if it has one. -/
inductive LogAt (tree : FileTree) : Option String → Option Place → Prop
  | stream : LogAt tree none none
  | file {name : String} {place : Place} :
    tree.target name = .ok place → LogAt tree (some name) (some place)

theorem LogAt.resembles (kept : tree.LogAt log own) (alike : tree.Resembles other) :
    other.LogAt log own := by
  cases kept with
  | stream => exact .stream
  | file found => exact .file (alike.target found)

/-- Each of these paths keeps away from a file at the place, if there is one. -/
def Clear (tree : FileTree) (own : Option Place) (paths : List String) : Prop :=
  ∀ path ∈ paths, ∀ place ∈ own, (tree.put place (.file [])).Avoids path place

/-- A log can be kept apart from these paths: it goes to the error stream, or to a
file that can be created and that each of the paths keeps away from. -/
def LogsApart (tree : FileTree) (log : Option String) (paths : List String) : Prop :=
  ∀ name ∈ log, ∃ place, tree.target name = .ok place ∧ tree.IsFree place ∧
    tree.Clear (some place) paths

theorem LogsApart.exists_opened (apart : tree.LogsApart log paths) :
    ∃ own opened, tree.opened log = .ok opened ∧ tree.LogAt log own ∧
      tree.Beside own [] opened ∧ tree.Clear own paths := by
  cases log with
  | none => exact ⟨none, tree, rfl, .stream, .refl tree [], fun _ _ => nofun⟩
  | some name =>
    obtain ⟨place, found, free, clear⟩ := apart name rfl
    have creates := Writable.createFile ⟨place, found, free⟩
    rw [write_of_target found] at creates
    exact ⟨some place, _, creates, .file found,
      .of_put (fun _ _ => rfl) free.ne_nil [], clear⟩

end FileTree

/-- Among these records, those of single instructions are the ones for each
instruction that the program in a file attempts, in order: they tell its place and
how many values are on the stack before it. -/
def TellsAttempts (records : List Log.Record) (read : Except ActionError Program)
    (console : Console) : Prop :=
  ∀ k r, (Log.traces records)[k]? = some r ↔
    ∃ program i depth, read = .ok program ∧ program.Attempts console k i depth ∧
      r = ⟨.trace, .machine, s!"pc={k} {i.text} (stack depth {depth})"⟩

theorem tellsAttempts_error {e : ActionError} (console : Console) :
    TellsAttempts [] (.error e) console := by
  intro k r
  constructor
  · nofun
  · rintro ⟨_, _, _, ⟨⟩, _⟩

theorem traces_runRecords (file : String) (program : Program) (o : Outcome Unit) :
    Log.traces (runRecords file program o) = Log.traces o.log := by
  unfold runRecords
  rw [Log.traces_append]
  change Log.traces o.log ++ _ = _
  cases o.result with
  | ok _ => exact List.append_nil _
  | error fault => exact List.append_nil _

theorem tellsAttempts_runRecords (file : String) (program : Program)
    (console : Console) :
    TellsAttempts (runRecords file program (execute program console)) (.ok program)
      console := by
  intro k r
  rw [traces_runRecords, execute_traces]
  constructor
  · rintro ⟨i, depth, attempts, rfl⟩
    exact ⟨program, i, depth, rfl, attempts, rfl⟩
  · rintro ⟨_, i, depth, ⟨⟩, attempts, rfl⟩
    exact ⟨i, depth, attempts, rfl⟩

/-! ## Sessions beside one without a log -/

namespace Session

/-- A session that has made records is otherwise like one that keeps no log. -/
structure Shadows (logging : Logging) (own : Option Place)
    (records : List Log.Record) (bare s : Session) : Prop where
  input : s.input = bare.input
  output : s.output = bare.output
  errors : s.errors = logging.shown records
  logAt : s.files.LogAt logging.file own
  files : bare.files.Beside own (logLines logging.level records) s.files

namespace Shadows

variable {logging : Logging} {own : Option Place} {records : List Log.Record}
variable {bare s after : Session} {file : String} {dump : Option String}

theorem recorded (shadows : Shadows logging own records bare s)
    (more : List Log.Record) :
    Shadows logging own (records ++ more) bare (s.recorded logging more) := by
  have errors := s.recorded_errors logging more
  rw [shadows.errors, ← logging.shown_append] at errors
  have logAt := shadows.logAt.resembles (s.recorded_resembles logging more)
  rcases logging with ⟨level, log⟩
  have kept : s.files.LogAt log own := shadows.logAt
  cases kept with
  | stream =>
    exact ⟨shadows.input, shadows.output, errors, logAt,
      ⟨nofun, shadows.files.elsewhere⟩⟩
  | @file name place found =>
    have grown : s.files.appended name (logLines level more) =
        s.files.put place (.file (logLines level (records ++ more))) := by
      unfold FileTree.appended
      rw [FileTree.appendFile_of_target found, shadows.files.there place rfl,
        logLines_append]
    have files := FileTree.Beside.of_put shadows.files.elsewhere
      (FileTree.aims_of_target found).ne_nil (logLines level (records ++ more))
    rw [← grown] at files
    exact ⟨shadows.input, shadows.output, errors, logAt, files⟩

theorem used (shadows : Shadows logging own records bare s) (o : Outcome Unit) :
    Shadows logging own records (bare.used o) (s.used o) where
  input := rfl
  output := congrArg (· ++ o.console.written) shadows.output
  errors := shadows.errors
  logAt := shadows.logAt
  files := shadows.files

theorem outcome (shadows : Shadows logging own records bare s) (program : Program) :
    s.outcome program = bare.outcome program := by
  unfold Session.outcome
  rw [shadows.input]

theorem withFiles (shadows : Shadows logging own records bare s)
    {tree other : FileTree}
    (beside : tree.Beside own (logLines logging.level records) other)
    (alike : s.files.Resembles other) :
    Shadows logging own records { bare with files := tree }
      { s with files := other } where
  input := shadows.input
  output := shadows.output
  errors := shadows.errors
  logAt := shadows.logAt.resembles alike
  files := beside

theorem stopped (shadows : Shadows logging own records bare s) (file : String)
    (program : Program) :
    Shadows logging own
      (records ++ readRecord file program :: (bare.outcome program).log)
      (bare.used (bare.outcome program)) (s.stopped logging file program) := by
  unfold Session.stopped
  rw [shadows.outcome]
  have carried := ((shadows.recorded [readRecord file program]).used
    (bare.outcome program)).recorded (bare.outcome program).log
  rwa [List.append_assoc] at carried

section

variable {paths : List String} {path : String}
variable (shadows : Shadows logging own records bare s)
variable (clear : bare.files.Clear own paths) (named : path ∈ paths)

include shadows clear named

theorem openFile_eq : s.files.openFile path = bare.files.openFile path :=
  shadows.files.openFile_eq (shadows.files.avoids (clear path named))

theorem contents?_eq : s.files.contents? path = bare.files.contents? path := by
  unfold FileTree.contents?
  rw [shadows.openFile_eq clear named]

theorem program_eq : s.files.program path = bare.files.program path := by
  unfold FileTree.program
  rw [shadows.openFile_eq clear named]

end

/-- Writing out a stack comes to the same beside a log. -/
theorem dumps (shadows : Shadows logging own records bare s)
    (clear : bare.files.Clear own dump.toList) {stack : Stack}
    {result : Except ActionError Unit}
    (takes : bare.Takes (dumpStack? host dump stack) result after) :
    ∃ s', s.Takes (dumpStack? host dump stack) result s' ∧
      Shadows logging own records after s' ∧
      ∀ path ∈ dump, s'.files.contents? path = after.files.contents? path := by
  cases dump with
  | none =>
    obtain ⟨rfl, rfl⟩ := takes.unique (takes_pure bare ())
    exact ⟨s, takes_pure s (), shadows, nofun⟩
  | some path =>
    have avoids := shadows.files.avoids (clear path List.mem_cons_self)
    cases shadows.files.createFile avoids with
    | refused refused refused' =>
      obtain ⟨rfl, rfl⟩ := takes.unique (takes_dumpStack?_refused refused)
      refine ⟨s, takes_dumpStack?_refused refused', shadows, ?_⟩
      rintro _ ⟨⟩
      exact shadows.contents?_eq clear List.mem_cons_self
    | @changed tree other creates creates' beside =>
      have alike := FileTree.resembles_of_createFile creates
      have alike' := FileTree.resembles_of_createFile creates'
      have created := shadows.withFiles beside alike'
      -- The path leads to its place still, whatever has been created there.
      obtain ⟨place, target⟩ := FileTree.exists_target_of_createFile creates
      have target' := (shadows.files.target_eq avoids).trans target
      have apart := shadows.files.target_apart avoids target'
      have found := alike.target target
      have found' := alike'.target target'
      cases beside.appendFile apart found found' (stackText stack) with
      | refused refused refused' =>
        obtain ⟨rfl, rfl⟩ := takes.unique (takes_dumpStack?_cut creates refused)
        refine ⟨_, takes_dumpStack?_cut creates' refused', created, ?_⟩
        rintro _ ⟨⟩
        exact beside.contents?_eq apart found found'
      | @changed tree' other' appends appends' beside' =>
        have grown := FileTree.resembles_of_appendFile appends
        have grown' := FileTree.resembles_of_appendFile appends'
        obtain ⟨rfl, rfl⟩ := takes.unique (takes_dumpStack?_done creates appends)
        refine ⟨_, takes_dumpStack?_done creates' appends',
          created.withFiles beside' grown', ?_⟩
        rintro _ ⟨⟩
        exact beside'.contents?_eq apart (grown.target found) (grown'.target found')

/-- A file that holds no program is refused alike beside a log. -/
theorem runs_error (shadows : Shadows logging own records bare s)
    (clear : bare.files.Clear own (file :: dump.toList)) {e : ActionError}
    (read : bare.files.program file = .error e) :
    s.Takes (run host logging file dump) (.error e) s ∧
      ∀ path ∈ dump, s.files.contents? path = bare.files.contents? path := by
  have reads := s.takes_readProgram logging file
  rw [shadows.program_eq clear List.mem_cons_self, read] at reads
  refine ⟨reads.bind_error, fun path named => ?_⟩
  exact shadows.contents?_eq clear
    (List.mem_cons_of_mem _ (Option.mem_toList.2 named))

/-- Carrying out a program comes to the same beside a log, which takes the records
of it. -/
theorem runs (shadows : Shadows logging own records bare s)
    (clear : bare.files.Clear own (file :: dump.toList)) {program : Program}
    (read : bare.files.program file = .ok program)
    {result : Except ActionError Unit}
    (dumps : (bare.used (bare.outcome program)).Takes
      (dumpStack? host dump (bare.outcome program).machine.stack) result after) :
    ∃ s', s.Takes (run host logging file dump)
        (match (bare.outcome program).result with
        | .ok () => result
        | .error fault => result.bind fun _ => .error (.fault fault)) s' ∧
      Shadows logging own (records ++ runRecords file program (bare.outcome program))
        after s' ∧
      ∀ path ∈ dump, s'.files.contents? path = after.files.contents? path := by
  have read' := (shadows.program_eq clear List.mem_cons_self).trans read
  have clear' := (List.forall_mem_cons.1 clear).2
  have stopped := shadows.stopped file program
  have outcome := shadows.outcome program
  unfold runRecords
  cases ended : (bare.outcome program).result with
  | error fault =>
    obtain ⟨s', dumps', beside, dumped⟩ := stopped.dumps clear' dumps
    rw [← outcome] at ended dumps'
    rw [List.append_nil]
    exact ⟨s', takes_run_fault read' ended dumps', beside, dumped⟩
  | ok _ =>
    have halted := stopped.recorded
      [haltedRecord (bare.outcome program).machine.steps]
    obtain ⟨s', dumps', beside, dumped⟩ := halted.dumps clear' dumps
    rw [List.append_assoc] at beside
    refine ⟨s', takes_run_of_stopped read' ?_, beside, dumped⟩
    dsimp only
    rw [outcome, ended]
    exact (takes_emit _ logging _).bind dumps'

end Shadows

/-- What running a program comes to, and the records that it makes, do not depend on
the log. -/
theorem exists_run (bare : Session) (file : String) (dump : Option String) :
    ∃ result after more,
      TellsAttempts more (bare.files.program file)
        (Console.fresh bare.input Sink.unlimited) ∧
      ∀ {logging own records s}, Shadows logging own records bare s →
        bare.files.Clear own (file :: dump.toList) →
        ∃ s', s.Takes (run host logging file dump) result s' ∧
          Shadows logging own (records ++ more) after s' ∧
          ∀ path ∈ dump, s'.files.contents? path = after.files.contents? path := by
  cases read : bare.files.program file with
  | error e =>
    refine ⟨.error e, bare, [], tellsAttempts_error _, ?_⟩
    intro logging own records s shadows clear
    obtain ⟨takes, same⟩ := shadows.runs_error clear read
    rw [List.append_nil]
    exact ⟨s, takes, shadows, same⟩
  | ok program =>
    obtain ⟨result, after, dumps⟩ : ∃ result after,
        (bare.used (bare.outcome program)).Takes
          (dumpStack? host dump (bare.outcome program).machine.stack) result after :=
      ⟨_, _, rfl⟩
    exact ⟨_, after, _, tellsAttempts_runRecords file program _,
      fun shadows clear => shadows.runs clear read dumps⟩

/-- What the result of an action adds to the error stream. -/
def report : Except ActionError Unit → Bytes
  | .ok () => []
  | .error e => Utf8.encode e.report

theorem reported_errors (s : Session) (result : Except ActionError Unit) :
    (s.reported result).errors = s.errors ++ report result := by
  cases result with
  | ok _ => exact (List.append_nil _).symm
  | error e => rfl

/-- After a session, a line for each of these records is where the log was sent, and
a report is on the error stream, after the log if it was sent there. -/
def HoldsLog (after : Session) (log : Option String) (kept : List Log.Record)
    (report : Bytes) : Prop :=
  let lines := kept.flatMap fun r => Utf8.encode (r.line ++ "\n")
  match log with
  | none => after.errors = lines ++ report
  | some name => after.errors = report ∧ after.files.contents? name = some lines

theorem Shadows.holdsLog {level : Log.Level} {log : Option String}
    {own : Option Place} {records : List Log.Record} {bare s : Session}
    (shadows : Shadows ⟨level, log⟩ own records bare s)
    (result : Except ActionError Unit) :
    (s.reported result).HoldsLog log (records.filter (·.keptAt level))
      (report result) := by
  have errors := s.reported_errors result
  rw [shadows.errors] at errors
  have kept : s.files.LogAt log own := shadows.logAt
  cases kept with
  | stream => exact errors
  | @file name place found =>
    refine ⟨errors, ?_⟩
    rw [reported_files]
    exact (FileTree.aims_of_target found).contents? (shadows.files.there place rfl)

end Session

/-! ## The command line -/

theorem keptAt_trace (r : Log.Record) : r.keptAt .trace = true := by
  rcases r with ⟨level, origin, text⟩
  cases level <;> rfl

/-- At the highest verbosity, the log tells all instructions that are attempted. -/
theorem TellsAttempts.kept {more : List Log.Record} {read : Except ActionError Program}
    {console : Console} (tells : TellsAttempts more read console) {verbosity : Nat}
    {level : Log.Level} (known : Log.Level.ofVerbosity? verbosity = some level)
    (highest : verbosity = 4) :
    TellsAttempts ((loggingRecord level :: more).filter (·.keptAt level)) read
      console := by
  rw [highest] at known
  cases known
  rw [List.filter_eq_self.2 fun r _ => keptAt_trace r]
  exact tells

/-- What a command line that runs a program comes to does not depend on its log. -/
theorem exists_session_run (files : FileTree) (input : Bytes) (file : String)
    (dump : Option String) :
    ∃ result output tree, ∀ {args verbosity log},
      parse args = .ok ⟨verbosity, log, .run file dump⟩ →
      verbosity ≤ Log.maximum → files.LogsApart log (file :: dump.toList) →
      ∃ after kept, session args files input = (exitCode result, after) ∧
        after.output = output ∧
        (∀ path ∈ dump, after.files.contents? path = FileTree.contents? tree path) ∧
        (∀ place, (∀ name ∈ log, files.target name ≠ .ok place) →
          after.files.node? place = FileTree.node? tree place) ∧
        after.HoldsLog log kept (Session.report result) ∧
        (verbosity = 4 → TellsAttempts kept (files.program file)
          (Console.fresh (Source.ofBytes input) Sink.unlimited)) := by
  obtain ⟨result, bare, more, tells, runs⟩ :=
    (Session.start files input).exists_run file dump
  refine ⟨result, bare.output, bare.files, ?_⟩
  intro args verbosity log parsed low apart
  obtain ⟨level, known⟩ := Log.Level.exists_ofVerbosity? low
  obtain ⟨own, opened, opens, logAt, beside, clear⟩ := apart.exists_opened
  have started : Session.Shadows ⟨level, log⟩ own [] (.start files input)
      (.start opened input) := by
    refine ⟨rfl, rfl, ?_, logAt.resembles (FileTree.resembles_opened opens), beside⟩
    cases log with
    | none | some name => rfl
  obtain ⟨s, takes, shadows, dumped⟩ :=
    runs (started.recorded [loggingRecord level]) clear
  refine ⟨_, _, session_eq_of_logged_run parsed known opens takes, ?_, ?_, ?_,
    shadows.holdsLog result, tells.kept known⟩
  · rw [Session.reported_output, shadows.output]
  · rw [Session.reported_files]
    exact dumped
  · intro place elsewhere
    rw [Session.reported_files]
    refine shadows.files.elsewhere place fun owned => ?_
    cases logAt with
    | stream => cases owned
    | file found =>
      cases owned
      exact elsewhere _ rfl found

/-- Running a program does not depend on the log. With any two verbosities that there
are, and logs that go to the error stream or to files that can be created and that
the paths of the program and of the stack keep away from, the exit code, the output,
the written stack and all other files are the same, and so is what is reported. At
the highest verbosity, the log tells the instructions that are attempted, one by one
and in order. -/
theorem session_run_apart_from_log {args args' : List String}
    {verbosity verbosity' : Nat} {log log' dump : Option String} {file : String}
    {files : FileTree} (input : Bytes)
    (parsed : parse args = .ok ⟨verbosity, log, .run file dump⟩)
    (parsed' : parse args' = .ok ⟨verbosity', log', .run file dump⟩)
    (low : verbosity ≤ Log.maximum) (low' : verbosity' ≤ Log.maximum)
    (apart : files.LogsApart log (file :: dump.toList))
    (apart' : files.LogsApart log' (file :: dump.toList)) :
    let console := Console.fresh (Source.ofBytes input) Sink.unlimited
    ∃ code report after after' kept kept',
      session args files input = (code, after) ∧
      session args' files input = (code, after') ∧
      after.output = after'.output ∧
      (∀ path ∈ dump, after.files.contents? path = after'.files.contents? path) ∧
      (∀ place, (∀ name ∈ log, files.target name ≠ .ok place) →
        (∀ name ∈ log', files.target name ≠ .ok place) →
        after.files.node? place = after'.files.node? place) ∧
      ((code = 0 ∧ report = []) ∨ (code = 1 ∧ ∃ message,
        report = Utf8.encode ("Error: " ++ Quoted.text message ++ "\n"))) ∧
      after.HoldsLog log kept report ∧ after'.HoldsLog log' kept' report ∧
      (verbosity = 4 → TellsAttempts kept (files.program file) console) ∧
      (verbosity' = 4 → TellsAttempts kept' (files.program file) console) := by
  intro console
  obtain ⟨result, output, tree, ends⟩ := exists_session_run files input file dump
  obtain ⟨after, kept, runs, written, dumped, others, holds, tells⟩ :=
    ends parsed low apart
  obtain ⟨after', kept', runs', written', dumped', others', holds', tells'⟩ :=
    ends parsed' low' apart'
  refine ⟨exitCode result, Session.report result, after, after', kept, kept', runs,
    runs', written.trans written'.symm, ?_, ?_, ?_, holds, holds', tells, tells'⟩
  · intro path named
    rw [dumped path named, dumped' path named]
  · intro place elsewhere elsewhere'
    rw [others place elsewhere, others' place elsewhere']
  · cases result with
    | ok _ => exact .inl ⟨rfl, rfl⟩
    | error e => exact .inr ⟨rfl, e.message, rfl⟩

/-- A division by zero with all records on the error stream, and with a few of them
in a file: the second error stream is the end of the first, which tells the division
although it fails. -/
theorem session_run_apart_from_log_division :
    let program : Program :=
      ⟨[.int 10, .int 0], [.loadConst 0, .loadConst 1, .binary .div, .halt]⟩
    let files := FileTree.initial.addFile "d.rk" program.encode
    let args := ["-vvvv", "run", "d.rk", "--dump-stack", "out"]
    let args' := ["-vv", "-l", "log", "run", "d.rk", "--dump-stack", "out"]
    ∃ code after after' kept, session args files [] = (code, after) ∧
      session args' files [] = (code, after') ∧ after.output = after'.output ∧
      after.files.contents? "out" = after'.files.contents? "out" ∧
      after'.errors <:+ after.errors ∧
      (Log.traces kept)[2]? =
        some ⟨.trace, .machine, "pc=2 DIV (stack depth 2)"⟩ := by
  intro program files args args'
  have parsed : parse args = .ok ⟨4, none, .run "d.rk" (some "out")⟩ := by rfl
  have parsed' : parse args' = .ok ⟨2, some "log", .run "d.rk" (some "out")⟩ := by rfl
  have apart : files.LogsApart none ["d.rk", "out"] := nofun
  have apart' : files.LogsApart (some "log") ["d.rk", "out"] := by
    rintro _ ⟨⟩
    refine ⟨["home", "log"], by rfl, .inl (by rfl), ?_⟩
    have there : (files.put ["home", "log"] (.file [])).node? ["home", "log"] =
        some (.file []) := by rfl
    intro path member place owned
    cases owned
    simp only [List.mem_cons, List.not_mem_nil, or_false] at member
    rcases member with rfl | rfl
    · have found : (files.put ["home", "log"] (.file [])).find "d.rk" =
          .ok ["home", "d.rk"] := by rfl
      exact FileTree.avoids_of_find there found (by decide)
    · have found : (files.put ["home", "log"] (.file [])).target "out" =
          .ok ["home", "out"] := by rfl
      exact FileTree.avoids_of_target there found (by decide)
  obtain ⟨code, report, after, after', kept, kept', ends, ends', output, dumped, -, -,
    holds, holds', tells, -⟩ :=
    session_run_apart_from_log [] parsed parsed' (by decide) (by decide) apart apart'
  have attempts : program.Attempts
      (Console.fresh (Source.ofBytes []) Sink.unlimited) 2 (.binary .div) 2 :=
    ⟨_, _, .step rfl (.step rfl .here), rfl, rfl⟩
  refine ⟨code, after, after', kept, ends, ends', output, dumped "out" rfl, ?_, ?_⟩
  · rw [holds'.1]
    exact ⟨_, holds.symm⟩
  · exact (tells rfl 2 _).2 ⟨program, _, _, by rfl, attempts, by rfl⟩

/-- It is not enough that no other path leads to the log file. A path that takes it
for a directory is refused for another reason once the file is there. -/
theorem session_run_through_log :
    ¬ ∀ args args' log file dump files input,
      parse args = .ok ⟨0, none, .run file dump⟩ →
      parse args' = .ok ⟨0, some log, .run file dump⟩ →
      (∃ place, files.target log = .ok place ∧ files.IsFree place ∧
        ∀ path ∈ file :: dump.toList,
          (files.put place (.file [])).find path ≠ .ok place) →
      ∃ report kept kept', (session args files input).2.HoldsLog none kept report ∧
        (session args' files input).2.HoldsLog (some log) kept' report := by
  intro every
  let files := FileTree.initial.addFile "e.rk" (Program.encode ⟨[], [.halt]⟩)
  let args := ["run", "e.rk", "--dump-stack", "log/x"]
  let args' := ["-l", "log", "run", "e.rk", "--dump-stack", "log/x"]
  have distinct : ∀ path ∈ ["e.rk", "log/x"],
      (files.put ["home", "log"] (.file [])).find path ≠ .ok ["home", "log"] := by
    decide +kernel
  obtain ⟨report, kept, kept', holds, holds'⟩ := every args args' "log" "e.rk"
    (some "log/x") files [] (by rfl) (by rfl)
    ⟨["home", "log"], by rfl, .inl (by rfl), distinct⟩
  have errors : (session args files []).2.errors = Utf8.encode
      ("Error: \"Unable to create dump file log/x: " ++
        "No such file or directory (os error 2)\"\n") := by
    decide +kernel
  have errors' : (session args' files []).2.errors = Utf8.encode
      ("Error: \"Unable to create dump file log/x: " ++
        "Not a directory (os error 20)\"\n") := by
    decide +kernel
  -- The report of the one session would end the error stream of the other.
  have ends : (session args' files []).2.errors <:+ (session args files []).2.errors := by
    rw [holds'.1]
    exact ⟨_, holds.symm⟩
  rw [errors, errors'] at ends
  revert ends
  decide +kernel

end Command

end Bytecode
