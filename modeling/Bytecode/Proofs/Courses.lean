import Bytecode.Proofs.MachineRuns

/-!
The course of a run, step by step.

`Machine.Leads` counts the steps after which the program goes on: it names the
machine and the streams at every place of a run, where `Ran` relates only its
start and its end. A run is a number of such steps and one last step, which
decides what comes of the whole (`Machine.RunsIn`), and it needs no more steps
than there are instructions left, and one.

`Machine.lockstep` compares the courses of one machine on two pairs of streams.
Given a translation of streams, either the steps of the two runs correspond to
the end, or there is a first step at which they part, and up to that step they
correspond.
-/

namespace Bytecode

/-- What comes of a run whose last step this is. -/
def Outcome.last (s : Outcome Progress) : Outcome Unit :=
  { s with result := s.result.map fun _ => () }

/-- The effect with a translation applied to the streams. -/
def Effect.through (f : Console → Console) (e : Effect) : Effect :=
  { e with console := f e.console }

/-- The outcome with a translation applied to the streams. -/
def Outcome.through {α : Type} (f : Console → Console) (o : Outcome α) :
    Outcome α :=
  { o with console := f o.console }

namespace Machine

variable {m m' : Machine} {console console' : Console}

/-! ## Courses -/

/-- A number of steps after each of which the program goes on. -/
inductive Leads : Nat → Machine → Console → Machine → Console → Prop
  | here {m : Machine} {console : Console} : Leads 0 m console m console
  | step {calls : Nat} {m m' : Machine} {console console' : Console} :
    (m.step console).result = .ok .running →
    Leads calls (m.step console).machine (m.step console).console m' console' →
    Leads (calls + 1) m console m' console'

/-- The run of a machine makes this many steps: after all but the last the program
goes on, after the last it does not, and the run ends as that step does. -/
def RunsIn (calls : Nat) (m : Machine) (console : Console) : Prop :=
  ∃ before m' console', calls = before + 1 ∧
    Leads before m console m' console' ∧
    (m'.step console').result ≠ .ok .running ∧
    (m.run console).result = (m'.step console').last.result ∧
    (m.run console).machine = (m'.step console').machine ∧
    (m.run console).console = (m'.step console').console

theorem run_of_running (running : (m.step console).result = .ok .running) :
    let rest := (m.step console).machine.run (m.step console).console
    m.run console = { rest with log := (m.step console).log ++ rest.log } := by
  have stepped := m.step_stepped console
  generalize m.step console = s at stepped running
  cases stepped with
  | ended _ | outside _ _ | failed _ _ _ | halts _ _ _ => cases running
  | goesOn notEnded found notHalt effect =>
    exact (Ran.goesOn notEnded found notHalt effect (run_ran _ _)).eq_run

theorem run_of_stopping (stopping : (m.step console).result ≠ .ok .running) :
    m.run console = (m.step console).last := by
  have stepped := m.step_stepped console
  generalize m.step console = s at stepped stopping
  cases stepped with
  | ended ended => exact (Ran.ended ended).eq_run
  | outside running missing => exact (Ran.outside running missing).eq_run
  | failed running found effect => exact (Ran.failed running found effect).eq_run
  | halts running found effect => exact (Ran.halts running found effect).eq_run
  | goesOn _ _ _ _ => exact absurd rfl stopping

/-- What holds of a machine that stops at once, and passes from the rest of a run
to the whole, holds of every machine: the program counter moves towards the end of
the code as long as the program goes on. -/
theorem run_induction {motive : Machine → Console → Prop}
    (stops : ∀ m console, (m.step console).result ≠ .ok .running →
      motive m console)
    (goesOn : ∀ m console, (m.step console).result = .ok .running →
      motive (m.step console).machine (m.step console).console →
        motive m console)
    (m : Machine) (console : Console) : motive m console := by
  generalize left : m.program.code.length - m.pc = n
  induction n using Nat.strongRecOn generalizing m console with
  | _ n ih =>
    by_cases running : (m.step console).result = .ok .running
    · obtain ⟨inside, sameProgram, nextPc⟩ := step_running running
      refine goesOn m console running (ih _ ?_ _ _ rfl)
      rw [sameProgram, nextPc]
      omega
    · exact stops m console running

theorem Leads.trans {a b : Nat} {m₁ m₂ m₃ : Machine}
    {console₁ console₂ console₃ : Console}
    (first : Leads a m₁ console₁ m₂ console₂)
    (second : Leads b m₂ console₂ m₃ console₃) :
    Leads (a + b) m₁ console₁ m₃ console₃ := by
  induction first with
  | here => rwa [Nat.zero_add]
  | step running _ ih =>
    rw [Nat.add_right_comm]
    exact .step running (ih second)

/-- Of two courses with the same start, the longer one goes on from the end of
the shorter. -/
theorem Leads.rest {a b : Nat} {m₁ m₂ m₃ : Machine}
    {console₁ console₂ console₃ : Console}
    (short : Leads a m₁ console₁ m₂ console₂)
    (long : Leads (a + b) m₁ console₁ m₃ console₃) :
    Leads b m₂ console₂ m₃ console₃ := by
  induction short with
  | here => rwa [Nat.zero_add] at long
  | step _ _ ih =>
    rw [Nat.add_right_comm] at long
    cases long with
    | step _ rest => exact ih rest

theorem Leads.program_eq {calls : Nat} (leads : Leads calls m console m' console') :
    m'.program = m.program := by
  induction leads with
  | here => rfl
  | step running _ ih => exact ih.trans (step_running running).2.1

theorem Leads.reachable {calls : Nat} {program : Program}
    (leads : Leads calls m console m' console')
    (reachable : Reachable program m) : Reachable program m' := by
  induction leads with
  | here => exact reachable
  | step _ _ ih => exact ih (reachable.step _)

/-- A run and what is left of it end alike. -/
theorem Leads.run {calls : Nat} (leads : Leads calls m console m' console') :
    ∃ log, m.run console = { m'.run console' with log := log } := by
  induction leads with
  | here => exact ⟨_, rfl⟩
  | step running _ ih =>
    obtain ⟨log, rest⟩ := ih
    have whole := run_of_running running
    rw [rest] at whole
    exact ⟨_, whole⟩

/-- A run takes at most one step for each instruction that is left, and one. -/
theorem exists_runsIn (m : Machine) (console : Console) :
    ∃ calls ≤ m.program.code.length - m.pc + 1, RunsIn calls m console := by
  induction m, console using run_induction with
  | stops m console stopping =>
    have whole := run_of_stopping stopping
    refine ⟨1, Nat.le_add_left 1 _, 0, m, console, rfl, .here, stopping, ?_⟩
    rw [whole]
    exact ⟨rfl, rfl, rfl⟩
  | goesOn m console running ih =>
    obtain ⟨inside, sameProgram, nextPc⟩ := step_running running
    obtain ⟨calls, few, before, m', console', rfl, leads, stopping, last⟩ := ih
    rw [sameProgram, nextPc] at few
    refine ⟨before + 2, by omega, before + 1, m', console', rfl,
      .step running leads, stopping, ?_⟩
    rw [run_of_running running]
    exact last

/-! ## Two courses -/

theorem settle_through (m : Machine) (i : Instruction) (e : Effect)
    (f : Console → Console) :
    m.settle i (e.through f) = (m.settle i e).through f := by
  rcases e with ⟨result, stack, console⟩
  cases result with
  | error trap => rfl
  | ok progress => rfl

/-- Two runs of a machine, of which the second has the streams of the first in
translation, correspond to the end, or part at a first step. Along the way a
condition on the streams can be kept up, as long as the steps that correspond
keep it. -/
theorem lockstep (f : Console → Console) {good : Console → Prop}
    (keeps : ∀ (m : Machine) console, good console →
      m.step (f console) = (m.step console).through f →
        good (m.step console).console)
    (m : Machine) (console : Console) (start : good console) :
    (m.run (f console) = (m.run console).through f ∧
      good (m.run console).console) ∨
    ∃ calls m' console', Leads calls m console m' console' ∧
      Leads calls m (f console) m' (f console') ∧ good console' ∧
        m'.step (f console') ≠ (m'.step console').through f := by
  induction m, console using run_induction with
  | stops m console stopping =>
    by_cases same : m.step (f console) = (m.step console).through f
    · have stoppingToo : (m.step (f console)).result ≠ .ok .running := by
        rw [same]
        exact stopping
      rw [run_of_stopping stopping, run_of_stopping stoppingToo, same]
      exact .inl ⟨rfl, keeps m console start same⟩
    · exact .inr ⟨0, m, console, .here, .here, start, same⟩
  | goesOn m console running ih =>
    by_cases same : m.step (f console) = (m.step console).through f
    · have runningToo : (m.step (f console)).result = .ok .running := by
        rw [same]
        exact running
      rcases ih (keeps m console start same) with ⟨rest, stillGood⟩ | departure
      · rw [run_of_running running, run_of_running runningToo, same]
        refine .inl ⟨?_, stillGood⟩
        have restToo : ((m.step console).through f).machine.run
            ((m.step console).through f).console = _ := rest
        rw [restToo]
        rfl
      · obtain ⟨calls, m', console', leads, leadsToo, there, parts⟩ := departure
        refine .inr ⟨calls + 1, m', console', .step running leads,
          .step runningToo ?_, there, parts⟩
        rw [same]
        exact leadsToo
    · exact .inr ⟨0, m, console, .here, .here, start, same⟩

/-- Where all steps correspond, so do the runs. -/
theorem run_through {f : Console → Console}
    (alike : ∀ (m : Machine) console, m.step (f console) = (m.step console).through f)
    (m : Machine) (console : Console) :
    m.run (f console) = (m.run console).through f := by
  rcases @lockstep f (fun _ => True) (fun _ _ _ _ => trivial) m console trivial with
    ⟨same, -⟩ | ⟨_, m', console', -, -, -, parts⟩
  · exact same
  · exact absurd (alike m' console') parts

end Machine

/-! ## Executions -/

/-- What an execution reports is what the run from the start comes to: the flush
after a fault changes neither the fault nor the machine. -/
theorem execute_reports (program : Program) (console : Console) :
    (execute program console).result =
        ((Machine.start program).run console).result ∧
      (execute program console).machine =
        ((Machine.start program).run console).machine := by
  unfold execute
  dsimp only
  split
  · exact ⟨rfl, rfl⟩
  · split
    · exact ⟨rfl, rfl⟩
    · exact ⟨rfl, rfl⟩

end Bytecode
