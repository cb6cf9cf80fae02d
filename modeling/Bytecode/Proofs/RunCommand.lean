import Bytecode.Command.Session
import Bytecode.Proofs.FileWriting

/-!
The command that runs a program file.

`Session.Takes` says what an action makes of a session. Actions compose as their
code does, so each function of the command line has one statement about the
session after it: the log only adds to the error stream (`Session.logged`), or to
a file of its own (`Session.recorded`), and writing out a stack only changes the
tree of files (`Session.dumped`). Together they give the session after the
command, in which the output, the written stack and the exit code are those of
`execute`.
-/

namespace Bytecode

theorem Utf8.encode_append (first second : String) :
    encode (first ++ second) = encode first ++ encode second := by
  unfold encode encodeChars
  rw [String.toList_append, List.flatMap_append]

theorem Log.Level.exists_ofVerbosity? {verbosity : Nat}
    (low : verbosity ≤ Log.maximum) :
    ∃ level, Log.Level.ofVerbosity? verbosity = some level := by
  match verbosity, low with
  | 0, _ => exact ⟨_, rfl⟩
  | 1, _ => exact ⟨_, rfl⟩
  | 2, _ => exact ⟨_, rfl⟩
  | 3, _ => exact ⟨_, rfl⟩
  | 4, _ => exact ⟨_, rfl⟩

namespace Command

/-! ## Texts -/

/-- The lines of the log for these records. -/
def logLines (level : Log.Level) (records : List Log.Record) : Bytes :=
  (records.filter (·.keptAt level)).flatMap fun r => Utf8.encode (r.line ++ "\n")

theorem logLines_append (level : Log.Level) (first second : List Log.Record) :
    logLines level (first ++ second) =
      logLines level first ++ logLines level second := by
  unfold logLines
  rw [List.filter_append, List.flatMap_append]

/-- The records made from the reading of a program to its end. -/
def runRecords (file : String) (program : Program) (o : Outcome Unit) :
    List Log.Record :=
  readRecord file program :: o.log ++
    match o.result with
    | .ok () => [haltedRecord o.machine.steps]
    | .error _ => []

/-- The line for a value of a stack. -/
def stackLine (index : Nat) (v : Value) : Bytes :=
  Utf8.encode s!"stack[{index}]: {v.text}\n"

theorem encode_dumpLines (first : Nat) (values : List Value) :
    Utf8.encode (dumpLines first values) =
      (values.mapIdx fun index v => stackLine (first + index) v).flatten := by
  induction values generalizing first with
  | nil => rfl
  | cons v values ih =>
    unfold dumpLines
    rw [Utf8.encode_append, ih, List.mapIdx_cons, List.flatten_cons, Nat.add_zero]
    simp only [Nat.add_assoc, Nat.add_comm 1]
    rfl

/-- The text that a stack is written out as. -/
def stackText (stack : Stack) : Bytes :=
  (stack.values.mapIdx stackLine).flatten

theorem encode_dumpLines_zero (stack : Stack) :
    Utf8.encode (dumpLines 0 stack.values) = stackText stack := by
  rw [encode_dumpLines]
  simp only [Nat.zero_add]
  rfl

/-! ## Stacks and logs in files -/

namespace FileTree

/-- The tree once a stack has been written out, if a file for it is named. -/
def dumped (tree : FileTree) (dump : Option String) (stack : Stack) : FileTree :=
  match dump with
  | none => tree
  | some path => tree.write path (stackText stack)

/-- The tree once a log file has been set up, if one is named. -/
def opened (tree : FileTree) : Option String → Except SystemError FileTree
  | none => .ok tree
  | some path => tree.createFile path

/-- The tree once bytes have been written at the end of a file, as far as that
can be done. -/
def appended (tree : FileTree) (path : String) (bytes : Bytes) : FileTree :=
  match tree.appendFile path bytes with
  | .ok after => after
  | .error _ => tree

/-- The program in a file, or why there is none. -/
def program (tree : FileTree) (path : String) : Except ActionError Program :=
  match tree.openFile path with
  | .error e => .error (.openProgram path e)
  | .ok source => (Program.read source).1.mapError (.readProgram path)

theorem program_of_contents? {tree : FileTree} {path : String} {bytes : Bytes}
    (held : tree.contents? path = some bytes) :
    tree.program path = (Program.decode bytes).mapError (.readProgram path) := by
  unfold program
  rw [contents?_eq_some_iff.1 held]
  rfl

theorem contents?_dumped {tree : FileTree} {dump : Option String}
    (writable : ∀ path ∈ dump, tree.Writable path) (stack : Stack) :
    ∀ path ∈ dump,
      (tree.dumped dump stack).contents? path = some (stackText stack) := by
  rintro path ⟨⟩
  exact (writable path rfl).contents?_write (stackText stack)

theorem node?_dumped (tree : FileTree) {dump : Option String} {place : Place}
    (elsewhere : ∀ path ∈ dump, tree.target path ≠ .ok place) (stack : Stack) :
    (tree.dumped dump stack).node? place = tree.node? place := by
  cases dump with
  | none => rfl
  | some path =>
    exact tree.node?_write_of_ne (elsewhere path rfl) (stackText stack)

end FileTree

/-! ## Actions -/

namespace Session

/-- From a session, an action gives a result and leaves a session. -/
def Takes {α : Type} (s : Session) (act : ExceptT ActionError (StateM Session) α)
    (result : Except ActionError α) (after : Session) : Prop :=
  act.run.run s = (result, after)

section

variable {α β : Type} {s s' s'' : Session}
variable {act : ExceptT ActionError (StateM Session) α}
variable {next : α → ExceptT ActionError (StateM Session) β}

theorem takes_pure (s : Session) (a : α) : s.Takes (pure a) (.ok a) s := rfl

theorem takes_throw (s : Session) (e : ActionError) :
    s.Takes (throw e : ExceptT ActionError (StateM Session) α) (.error e) s := rfl

theorem Takes.unique {result result' : Except ActionError α}
    (first : s.Takes act result s') (second : s.Takes act result' s'') :
    result = result' ∧ s' = s'' :=
  Prod.mk.inj (first.symm.trans second)

theorem Takes.bind {a : α} {result : Except ActionError β}
    (first : s.Takes act (.ok a) s') (second : s'.Takes (next a) result s'') :
    s.Takes (act >>= next) result s'' := by
  change (ExceptT.bindCont next (act.run.run s).1).run (act.run.run s).2 = _
  rw [first]
  exact second

theorem Takes.bind_error {e : ActionError} (first : s.Takes act (.error e) s') :
    s.Takes (act >>= next) (.error e) s' := by
  change (ExceptT.bindCont next (act.run.run s).1).run (act.run.run s).2 = _
  rw [first]
  rfl

end

/-! ## Log and files -/

/-- The session once records have been logged. -/
def logged (s : Session) (level : Log.Level) (records : List Log.Record) :
    Session :=
  { s with errors := s.errors ++ logLines level records }

/-- The session once a stack has been written out. -/
def dumped (s : Session) (dump : Option String) (stack : Stack) : Session :=
  { s with files := s.files.dumped dump stack }

theorem logged_logged (s : Session) (level : Log.Level)
    (first second : List Log.Record) :
    (s.logged level first).logged level second = s.logged level (first ++ second) := by
  unfold logged
  rw [logLines_append, List.append_assoc]

theorem takes_withFiles (s : Session)
    (change : FileTree → Except SystemError FileTree) {files : FileTree}
    (changed : change s.files = .ok files) :
    s.Takes (liftM (m := StateM Session) fun s => s.withFiles (change s.files))
      (.ok (.ok ())) { s with files := files } := by
  change (Except.ok (s.withFiles (change s.files)).1,
    (s.withFiles (change s.files)).2) = _
  rw [changed]
  rfl

theorem takes_withFiles_error (s : Session)
    (change : FileTree → Except SystemError FileTree) {e : SystemError}
    (refused : change s.files = .error e) :
    s.Takes (liftM (m := StateM Session) fun s => s.withFiles (change s.files))
      (.ok (.error e)) s := by
  change (Except.ok (s.withFiles (change s.files)).1,
    (s.withFiles (change s.files)).2) = _
  rw [refused]
  rfl

theorem takes_createFile (s : Session) {path : String} {files : FileTree}
    (created : s.files.createFile path = .ok files) :
    s.Takes (liftM (host.createFile path)) (.ok (.ok ()))
      { s with files := files } :=
  s.takes_withFiles (·.createFile path) created

theorem takes_appendFile (s : Session) {path : String} {bytes : Bytes}
    {files : FileTree} (appended : s.files.appendFile path bytes = .ok files) :
    s.Takes (liftM (host.appendFile path bytes)) (.ok (.ok ()))
      { s with files := files } :=
  s.takes_withFiles (·.appendFile path bytes) appended

theorem takes_createFile_error (s : Session) {path : String} {e : SystemError}
    (refused : s.files.createFile path = .error e) :
    s.Takes (liftM (host.createFile path)) (.ok (.error e)) s :=
  s.takes_withFiles_error (·.createFile path) refused

theorem takes_appendFile_error (s : Session) {path : String} {bytes : Bytes}
    {e : SystemError} (refused : s.files.appendFile path bytes = .error e) :
    s.Takes (liftM (host.appendFile path bytes)) (.ok (.error e)) s :=
  s.takes_withFiles_error (·.appendFile path bytes) refused

/-- The session once records have been sent to a log. A log file that does not
take them stays as it is. -/
def recorded (s : Session) (logging : Logging) (records : List Log.Record) :
    Session :=
  match logging.file with
  | none => s.logged logging.level records
  | some path =>
    { s with files := s.files.appended path (logLines logging.level records) }

@[simp]
theorem recorded_none (s : Session) (level : Log.Level)
    (records : List Log.Record) :
    s.recorded ⟨level, none⟩ records = s.logged level records :=
  rfl

theorem takes_emit (s : Session) (logging : Logging) (records : List Log.Record) :
    s.Takes (emit host logging records) (.ok ()) (s.recorded logging records) := by
  rcases logging with ⟨level, file⟩
  cases file with
  | none => rfl
  | some path =>
    change (Except.ok (), (s.withFiles (s.files.appendFile path _)).2) = _
    unfold recorded FileTree.appended logLines
    dsimp only
    cases s.files.appendFile path _ with
    | ok files => rfl
    | error e => rfl

theorem takes_openLog (s : Session) {verbosity : Nat} {level : Log.Level}
    {log : Option String} {files : FileTree}
    (known : Log.Level.ofVerbosity? verbosity = some level)
    (opened : s.files.opened log = .ok files) :
    s.Takes (openLog host verbosity log) (.ok ⟨level, log⟩)
      (recorded { s with files := files } ⟨level, log⟩ [loggingRecord level]) := by
  unfold openLog
  rw [known]
  cases log with
  | none =>
    cases opened
    exact (s.takes_emit ⟨level, none⟩ _).bind (takes_pure _ _)
  | some path =>
    refine Takes.bind ((s.takes_createFile opened).bind (takes_pure _ _)) ?_
    exact (takes_emit _ ⟨level, some path⟩ _).bind (takes_pure _ _)

section

variable {s : Session} {path : String} {stack : Stack} {created after : FileTree}
variable {e : SystemError}

theorem takes_dumpStack?_refused (refused : s.files.createFile path = .error e) :
    s.Takes (dumpStack? host (some path) stack) (.error (.createDump path e)) s := by
  unfold dumpStack? dumpStack
  exact (s.takes_createFile_error refused).bind (takes_throw s _)

theorem takes_dumpStack?_cut (creates : s.files.createFile path = .ok created)
    (refused : created.appendFile path (stackText stack) = .error e) :
    s.Takes (dumpStack? host (some path) stack) (.error (.writeDump e))
      { s with files := created } := by
  unfold dumpStack? dumpStack
  rw [encode_dumpLines_zero]
  refine (s.takes_createFile creates).bind ?_
  refine (takes_appendFile_error { s with files := created } refused).bind ?_
  exact takes_throw _ _

theorem takes_dumpStack?_done (creates : s.files.createFile path = .ok created)
    (appends : created.appendFile path (stackText stack) = .ok after) :
    s.Takes (dumpStack? host (some path) stack) (.ok ()) { s with files := after } := by
  unfold dumpStack? dumpStack
  rw [encode_dumpLines_zero]
  refine (s.takes_createFile creates).bind ?_
  refine (takes_appendFile { s with files := created } appends).bind ?_
  exact takes_pure _ ()

end

theorem takes_dumpStack? {s : Session} {dump : Option String}
    (writable : ∀ path ∈ dump, s.files.Writable path) (stack : Stack) :
    s.Takes (dumpStack? host dump stack) (.ok ()) (s.dumped dump stack) := by
  cases dump with
  | none => exact takes_pure s ()
  | some path =>
    have writable := writable path rfl
    -- The file is created empty, and then takes the whole text.
    have appended := writable.appendFile [] (stackText stack)
    rw [List.nil_append] at appended
    exact takes_dumpStack?_done writable.createFile appended

/-! ## Running a program -/

theorem takes_readProgram (s : Session) (logging : Logging) (path : String) :
    s.Takes (readProgram host logging path) (s.files.program path)
      (match s.files.program path with
      | .ok program => s.recorded logging [readRecord path program]
      | .error _ => s) := by
  have opens : s.Takes (liftM (host.openFile path)) (.ok (s.files.openFile path)) s := rfl
  unfold readProgram FileTree.program
  refine opens.bind ?_
  cases s.files.openFile path with
  | error e => exact takes_throw s _
  | ok source =>
    dsimp only
    cases (Program.read source).1 with
    | error e => exact takes_throw s _
    | ok program => exact (s.takes_emit logging _).bind (takes_pure _ program)

/-- What comes of a program on the standard streams of a session. -/
def outcome (s : Session) (program : Program) : Outcome Unit :=
  Bytecode.execute program (Console.fresh s.input Sink.unlimited)

/-- The session once a program has used its standard streams. -/
def used (s : Session) (o : Outcome Unit) : Session :=
  { s with
    input := o.console.input
    output := s.output ++ o.console.written }

theorem outcome_logged (s : Session) (level : Log.Level)
    (records : List Log.Record) (program : Program) :
    (s.logged level records).outcome program = s.outcome program :=
  rfl

theorem used_logged (s : Session) (level : Log.Level) (records : List Log.Record)
    (o : Outcome Unit) :
    (s.logged level records).used o = (s.used o).logged level records :=
  rfl

theorem takes_execute (s : Session) (program : Program) :
    s.Takes (liftM (host.execute program)) (.ok (s.outcome program))
      (s.used (s.outcome program)) :=
  rfl

/-- The session once a program has been read and carried out. -/
def ran (s : Session) (level : Log.Level) (file : String) (dump : Option String)
    (program : Program) : Session :=
  let o := s.outcome program
  ((s.used o).logged level (runRecords file program o)).dumped dump o.machine.stack

theorem takes_run {s : Session} {file : String} {dump : Option String}
    {bytes : Bytes} {program : Program}
    (held : s.files.contents? file = some bytes)
    (writable : ∀ path ∈ dump, s.files.Writable path)
    (decoded : Program.decode bytes = .ok program) (level : Log.Level) :
    s.Takes (run host ⟨level, none⟩ file dump)
      ((s.outcome program).result.mapError .fault)
      (s.ran level file dump program) := by
  have reads := s.takes_readProgram ⟨level, none⟩ file
  rw [FileTree.program_of_contents? held, decoded] at reads
  dsimp only [Except.mapError] at reads
  -- The log and the standard streams leave the files as they are.
  have writable : ∀ records, ∀ path ∈ dump,
      ((s.used (s.outcome program)).logged level records).files.Writable path :=
    fun _ => writable
  unfold run
  refine reads.bind ?_
  refine (takes_execute _ program).bind ?_
  rw [recorded_none, used_logged, outcome_logged]
  refine (takes_emit _ ⟨level, none⟩ _).bind ?_
  rw [recorded_none, logged_logged]
  dsimp only [ran, runRecords]
  cases (s.outcome program).result with
  | ok _ =>
    refine (takes_emit _ ⟨level, none⟩ _).bind ?_
    rw [recorded_none, logged_logged]
    exact takes_dumpStack? (writable _) _
  | error fault =>
    rw [List.append_nil]
    exact (takes_dumpStack? (writable _) _).bind (takes_throw _ _)

/-- The session once the result of an action has been reported. -/
def reported (s : Session) : Except ActionError Unit → Session
  | .ok () => s
  | .error e => { s with errors := s.errors ++ Utf8.encode e.report }

@[simp]
theorem reported_files (s : Session) (result : Except ActionError Unit) :
    (s.reported result).files = s.files := by
  cases result with
  | ok _ => rfl
  | error e => rfl

@[simp]
theorem reported_output (s : Session) (result : Except ActionError Unit) :
    (s.reported result).output = s.output := by
  cases result with
  | ok _ => rfl
  | error e => rfl

end Session

/-! ## The command line -/

/-- The exit code for the result of an action. -/
def exitCode : Except ActionError Unit → Nat
  | .ok () => 0
  | .error _ => 1

theorem session_eq_of_perform {args : List String} {invocation : Invocation}
    {files : FileTree} {input : Bytes} {result : Except ActionError Unit}
    {after : Session} (parsed : parse args = .ok invocation)
    (takes : (Session.start files input).Takes (perform Session.host invocation)
      result after) :
    session args files input = (exitCode result, after.reported result) := by
  unfold session handle
  rw [parsed]
  dsimp only
  rw [StateT.run_bind, takes]
  cases result with
  | ok _ => rfl
  | error e => rfl

theorem session_eq_of_logged_run {args : List String} {verbosity : Nat}
    {level : Log.Level} {log : Option String} {file : String} {dump : Option String}
    {files opened : FileTree} {input : Bytes} {result : Except ActionError Unit}
    {after : Session} (parsed : parse args = .ok ⟨verbosity, log, .run file dump⟩)
    (known : Log.Level.ofVerbosity? verbosity = some level)
    (opens : files.opened log = .ok opened)
    (takes : ((Session.start opened input).recorded ⟨level, log⟩
      [loggingRecord level]).Takes (run Session.host ⟨level, log⟩ file dump)
      result after) :
    session args files input = (exitCode result, after.reported result) :=
  session_eq_of_perform parsed
    (((Session.start files input).takes_openLog known opens).bind takes)

theorem session_eq_of_run {args : List String} {verbosity : Nat}
    {level : Log.Level} {file : String} {dump : Option String} {files : FileTree}
    {input : Bytes} {result : Except ActionError Unit} {after : Session}
    (parsed : parse args = .ok ⟨verbosity, none, .run file dump⟩)
    (known : Log.Level.ofVerbosity? verbosity = some level)
    (takes : ((Session.start files input).logged level [loggingRecord level]).Takes
      (run Session.host ⟨level, none⟩ file dump) result after) :
    session args files input = (exitCode result, after.reported result) :=
  session_eq_of_logged_run parsed known rfl takes

/-- Running a program file does what `execute` does on the standard input: a
file that holds no program changes nothing, and otherwise the output is what the
program writes, its stack is written out however it ended, nothing else changes
in the tree of files, and the exit code tells whether it came to its end. A fault
is reported after the log. -/
theorem session_run {args : List String} {verbosity : Nat} {file : String}
    {dump : Option String} {files : FileTree} {bytes : Bytes} (input : Bytes)
    (parsed : parse args = .ok ⟨verbosity, none, .run file dump⟩)
    (low : verbosity ≤ Log.maximum) (held : files.contents? file = some bytes)
    (writable : ∀ path ∈ dump, files.Writable path) :
    ∃ code after, session args files input = (code, after) ∧
      match Program.decode bytes with
      | .error _ => code = 1 ∧ after.output = [] ∧ after.files = files
      | .ok program =>
        let o := execute program (Console.fresh (Source.ofBytes input) Sink.unlimited)
        after.output = o.console.written ∧
          (∀ path ∈ dump,
            after.files.contents? path = some (stackText o.machine.stack)) ∧
          (∀ place, (∀ path ∈ dump, files.target path ≠ .ok place) →
            after.files.node? place = files.node? place) ∧
          (code = 0 ↔ o.result = .ok ()) ∧
          ∀ trap pc i depth, o.result = .error ⟨trap, pc, i, depth⟩ → code = 1 ∧
            ∃ level, Log.Level.ofVerbosity? verbosity = some level ∧
              after.errors =
                logLines level (loggingRecord level :: runRecords file program o) ++
                  Utf8.encode ("Error: " ++ Quoted.text
                    (s!"VM trap at #{pc}: {trap.message} (instruction " ++
                      s!"{instructionText i}, stack depth {depth})") ++ "\n") := by
  obtain ⟨level, known⟩ := Log.Level.exists_ofVerbosity? low
  let s := (Session.start files input).logged level [loggingRecord level]
  cases decoded : Program.decode bytes with
  | error e =>
    have reads := s.takes_readProgram ⟨level, none⟩ file
    have held : s.files.contents? file = some bytes := held
    rw [FileTree.program_of_contents? held, decoded] at reads
    dsimp only [Except.mapError] at reads
    exact ⟨_, _, session_eq_of_run parsed known reads.bind_error, rfl, rfl, rfl⟩
  | ok program =>
    have takes := Session.takes_run (s := s) held writable decoded level
    refine ⟨_, _, session_eq_of_run parsed known takes, ?_⟩
    have same : execute program (Console.fresh (Source.ofBytes input) Sink.unlimited) =
      s.outcome program := rfl
    have started : s.errors = logLines level [loggingRecord level] := rfl
    dsimp only
    rw [same, Session.reported_output, Session.reported_files]
    refine ⟨rfl, FileTree.contents?_dumped writable _,
      fun place elsewhere => files.node?_dumped elsewhere _, ?_, ?_⟩
    · cases (s.outcome program).result with
      | ok _ => exact ⟨fun _ => rfl, fun _ => rfl⟩
      | error fault => exact ⟨nofun, nofun⟩
    · intro trap pc i depth ended
      rw [ended]
      refine ⟨rfl, level, known, ?_⟩
      change s.errors ++ _ ++ _ = _
      rw [started, ← logLines_append]
      rfl

/-- A division by zero, with the stack written out and one `-v`: the exit code is 1,
and the two operands are in the file. -/
theorem session_run_division :
    let program : Program :=
      ⟨[.int 10, .int 0], [.newline, .loadConst 0, .loadConst 1, .binary .div, .halt]⟩
    let files := FileTree.initial.addFile "d.rk" program.encode
    let args := ["-v", "run", "d.rk", "--dump-stack", "out"]
    ∃ after, session args files [] = (1, after) ∧ after.output = [0x0A] ∧
      after.files.contents? "out" =
        some (Utf8.encode "stack[0]: 10\nstack[1]: 0\n") ∧
      after.errors = Utf8.encode ("Error: \"VM trap at #3: division by zero " ++
        "(instruction DIV, stack depth 2)\"\n") := by
  intro program files args
  have parsed : parse args = .ok ⟨1, none, .run "d.rk" (some "out")⟩ := by rfl
  have held : files.contents? "d.rk" = some program.encode := by rfl
  have writable : ∀ path ∈ some "out", files.Writable path := by
    rintro path ⟨⟩
    exact ⟨["home", "out"], by rfl, .inl (by rfl)⟩
  obtain ⟨code, after, ends, rest⟩ := session_run [] parsed (by decide) held writable
  have decoded : Program.decode program.encode = .ok program := by rfl
  rw [decoded] at rest
  obtain ⟨output, dumped, -, -, failed⟩ := rest
  obtain ⟨rfl, level, known, errors⟩ := failed _ _ _ _ (by rfl)
  cases known
  exact ⟨after, ends, output.trans (by decide +kernel),
    (dumped "out" rfl).trans (by decide +kernel), errors.trans (by decide +kernel)⟩

end Command

end Bytecode
