import Bytecode.Proofs.Streams

/-!
The records that a run makes of its instructions.

Every step that attempts an instruction makes one record of it, before the
instruction is carried out or fails; a step that finds the program ended, or finds
no instruction, makes none. So the records of a run are those of the instructions
that it attempts, in order (`log_run`), and the records of single instructions in
the log of an execution tell them one by one, with the number of values on the stack
before each (`execute_traces`).
-/

namespace Bytecode

/-- The records of single instructions. -/
def Log.traces (records : List Log.Record) : List Log.Record :=
  records.filter (·.level = .trace)

theorem Log.traces_append (first second : List Log.Record) :
    traces (first ++ second) = traces first ++ traces second :=
  List.filter_append first second

/-- The program attempts an instruction after a number of others were carried out,
with a number of values on the stack. -/
def Program.Attempts (program : Program) (console : Console) (k : Nat)
    (i : Instruction) (depth : Nat) : Prop :=
  ∃ m streams, Machine.Leads k (Machine.start program) console m streams ∧
    m.attempted? = some i ∧ m.stack.depth = depth

namespace Machine

variable {m m' : Machine} {console console' : Console}

theorem Leads.pc_eq {calls : Nat} (leads : Leads calls m console m' console') :
    m'.pc = m.pc + calls := by
  induction leads with
  | here => rfl
  | step running _ ih =>
    rw [ih, (step_running running).2.2]
    omega

/-- A step makes a record of the instruction that it attempts, and no other. -/
theorem log_step (m : Machine) (console : Console) :
    (m.step console).log = (m.attempted?.map m.record).toList := by
  have stepped := m.step_stepped console
  generalize m.step console = s at stepped
  cases stepped with
  | ended ended =>
    have none : m.attempted? = none := if_pos ended
    rw [none]
    rfl
  | outside running missing =>
    have none : m.attempted? = none :=
      (if_neg (Bool.eq_false_iff.1 running)).trans missing
    rw [none]
    rfl
  | failed running found _ | halts running found _ | goesOn running found _ _ =>
    have attempted : m.attempted? = _ :=
      (if_neg (Bool.eq_false_iff.1 running)).trans found
    rw [attempted]
    rfl

/-- A step after which the program goes on has attempted an instruction. -/
theorem attempted_of_running (running : (m.step console).result = .ok .running) :
    ∃ i, m.attempted? = some i := by
  have stepped := m.step_stepped console
  generalize m.step console = s at stepped running
  cases stepped with
  | goesOn notEnded found _ _ =>
    exact ⟨_, (if_neg (Bool.eq_false_iff.1 notEnded)).trans found⟩
  | ended _ | outside _ _ | failed _ _ _ | halts _ _ _ => cases running

/-- The instruction that is attempted first is the one at the start. -/
theorem leads_zero_iff {r : Log.Record} :
    (∃ m' console' i, Leads 0 m console m' console' ∧ m'.attempted? = some i ∧
      m'.record i = r) ↔ m.attempted?.map m.record = some r := by
  rw [Option.map_eq_some_iff]
  constructor
  · rintro ⟨_, _, i, ⟨⟩, attempted⟩
    exact ⟨i, attempted⟩
  · rintro ⟨i, attempted⟩
    exact ⟨m, console, i, .here, attempted⟩

/-- The records of a run are those of the instructions that it attempts, in
order. -/
theorem log_run (m : Machine) (console : Console) (k : Nat) (r : Log.Record) :
    (m.run console).log[k]? = some r ↔
      ∃ m' console' i, Leads k m console m' console' ∧ m'.attempted? = some i ∧
        m'.record i = r := by
  induction m, console using run_induction generalizing k with
  | stops m console stopping =>
    rw [run_of_stopping stopping]
    change (m.step console).log[k]? = some r ↔ _
    rw [log_step]
    cases k with
    | zero =>
      rw [leads_zero_iff]
      cases m.attempted? <;> rfl
    | succ k =>
      constructor
      · intro made
        cases attempted : m.attempted? with
        | none | some i =>
          rw [attempted] at made
          cases made
      · rintro ⟨_, _, _, leads, -⟩
        cases leads with
        | step running _ => exact absurd running stopping
  | goesOn m console running ih =>
    obtain ⟨i, attempted⟩ := attempted_of_running running
    rw [run_of_running running]
    dsimp only
    rw [log_step, attempted]
    cases k with
    | zero =>
      rw [leads_zero_iff, attempted]
      rfl
    | succ k =>
      refine (ih k).trans ?_
      constructor
      · rintro ⟨m', console', j, leads, rest⟩
        exact ⟨m', console', j, .step running leads, rest⟩
      · rintro ⟨m', console', j, leads, rest⟩
        cases leads with
        | step _ leads => exact ⟨m', console', j, leads, rest⟩

end Machine

/-! ## Executions -/

theorem level_of_log_run {m : Machine} {console : Console} {r : Log.Record}
    (member : r ∈ (m.run console).log) : r.level = .trace := by
  obtain ⟨k, made⟩ := List.getElem?_of_mem member
  obtain ⟨_, _, _, -, -, rfl⟩ := (m.log_run console k r).1 made
  rfl

/-- The records of single instructions in the log of an execution are those of the
run: the others are of its start and of a flush that failed. -/
theorem traces_execute (program : Program) (console : Console) :
    Log.traces (execute program console).log =
      ((Machine.start program).run console).log := by
  have all : Log.traces ((Machine.start program).run console).log =
      ((Machine.start program).run console).log :=
    List.filter_eq_self.2 fun _ member => decide_eq_true (level_of_log_run member)
  have loaded : ∀ records, Log.traces (program.loaded :: records) = Log.traces records :=
    fun _ => rfl
  unfold execute
  dsimp only
  split
  · rw [loaded, all]
  · split
    · rw [loaded, all]
    · rw [List.cons_append, loaded, Log.traces_append, all]
      exact List.append_nil _

/-- The records of single instructions in the log of an execution: one for each
instruction that is attempted, in order, which tells its place and how many values
were on the stack before it. -/
theorem execute_traces (program : Program) (console : Console) (k : Nat)
    (r : Log.Record) :
    (Log.traces (execute program console).log)[k]? = some r ↔
      ∃ i depth, program.Attempts console k i depth ∧
        r = ⟨.trace, .machine, s!"pc={k} {i.text} (stack depth {depth})"⟩ := by
  have placed : ∀ {m streams}, Machine.Leads k (.start program) console m streams →
      m.pc = k := fun leads => leads.pc_eq.trans (Nat.zero_add k)
  rw [traces_execute, Machine.log_run]
  constructor
  · rintro ⟨m, streams, i, leads, attempted, rfl⟩
    refine ⟨i, _, ⟨m, streams, leads, attempted, rfl⟩, ?_⟩
    rw [Machine.record, placed leads]
  · rintro ⟨i, _, ⟨m, streams, leads, attempted, rfl⟩, rfl⟩
    refine ⟨m, streams, i, leads, attempted, ?_⟩
    rw [Machine.record, placed leads]

end Bytecode
