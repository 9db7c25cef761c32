import RigBench.Scheduler.Task

/-!
A scheduler that runs named periodic tasks on one thread. A cycle sleeps to the earliest deadline
and runs every task whose deadline has passed, in the order they were added. Deadlines are
absolute, so that lateness does not add up.
-/
namespace RigBench

structure CycleReport where
  executed : List String := []
  /-- Tasks that ran longer than their period. -/
  overruns : List String := []
  deriving DecidableEq

inductive CycleEnd
  /-- A stop was seen while waiting. -/
  | stopped
  | completed (report : CycleReport)
  | failed (e : BenchError)
  | crashed
  deriving DecidableEq

inductive RunEnd
  | finished
  | failed (e : BenchError)
  | crashed
  deriving DecidableEq

inductive AddFault
  | refused (e : BenchError)
  | crashed
  deriving DecidableEq

structure Scheduler (ω : Type) where
  tasks : List (PeriodicTask ω) := []
  policy : OverrunPolicy := .warn
  /-- Samples kept per task. -/
  histogramSize : Nat
  cycles : Nat := 0

namespace Scheduler

variable {ω : Type}

def names (s : Scheduler ω) : List String := s.tasks.map (·.name)

def refusal? (s : Scheduler ω) (name : String) (period : Duration) : Option BenchError :=
  if period.isZero then some (.config (.zeroPeriod name))
  else if s.tasks.any (·.name == name) then some (.config (.duplicateTask name))
  else none

theorem refusal?_eq_none_iff {s : Scheduler ω} {name : String} {period : Duration} :
    s.refusal? name period = none ↔ period.isZero = false ∧ name ∉ s.names := by
  unfold refusal? names
  cases period.isZero <;> simp

def place (s : Scheduler ω) (name : String) (period : Duration) (job : Job ω) : Scheduler ω :=
  { s with tasks := s.tasks ++ [{ name, period, job, metrics := .new s.histogramSize period }] }

/-- Add a task. Its first run is one period after the scheduler starts. -/
def add (s : Scheduler ω) (name : String) (period : Duration) (job : Job ω) :
    Except BenchError (Scheduler ω) :=
  match s.refusal? name period with
  | some e => .error e
  | none => .ok (s.place name period job)

/-- Add a task whose statistics are yet to be allocated. -/
def register (s : Scheduler ω) (name : String) (period : Duration) (job : Job ω) :
    Except AddFault (Scheduler ω) :=
  match s.refusal? name period with
  | some e => .error (.refused e)
  | none =>
    if CycleMetrics.fits s.histogramSize then .ok (s.place name period job) else .error .crashed

def metrics? (s : Scheduler ω) (name : String) : Option CycleMetrics :=
  (s.tasks.find? (·.name == name)).map (·.metrics)

def snapshots (s : Scheduler ω) : List (String × MetricsSnapshot) :=
  s.tasks.map fun t => (t.name, t.metrics.snapshot)

def scheduleNew (s : Scheduler ω) (now : Nat) : Option (Scheduler ω) :=
  (s.tasks.mapM (PeriodicTask.schedule now)).map fun tasks => { s with tasks }

def earliest? (s : Scheduler ω) : Option Nat := (s.tasks.filterMap (·.deadline)).min?

variable [Clock ω]

/-- Run the tasks that are due at `now`, up to the first that ends the cycle. -/
def runDue (policy : OverrunPolicy) (now : Nat) :
    List (PeriodicTask ω) → CycleReport → ω → CycleEnd × List (PeriodicTask ω) × ω
  | [], report, w => (.completed report, [], w)
  | t :: ts, report, w =>
    let skip := fun (report : CycleReport) (t : PeriodicTask ω) (w : ω) =>
      let (e, ts, w) := runDue policy now ts report w
      (e, t :: ts, w)
    match t.deadline with
    | none => skip report t w
    | some due =>
      if now < due then skip report t w
      else match t.serve policy now due w with
        | (.crashed, t, w) => (.crashed, t :: ts, w)
        | (.failed e, t, w) => (.failed e, t :: ts, w)
        | (.fine overran, t, w) =>
          skip
            { executed := report.executed ++ [t.name]
              overruns := if overran then report.overruns ++ [t.name] else report.overruns } t w

def runReady (s : Scheduler ω) (w : ω) : CycleEnd × Scheduler ω × ω :=
  let (now, w) := Clock.read w
  match runDue s.policy now s.tasks {} w with
  | (.completed report, tasks, w) =>
    (.completed report, { s with tasks, cycles := s.cycles + 1 }, w)
  | (e, tasks, w) => (e, { s with tasks }, w)

/-- One cycle: schedule new tasks, wait for the earliest deadline, run what is due. -/
def runCycle (s : Scheduler ω) (w : ω) : CycleEnd × Scheduler ω × ω :=
  if s.tasks.isEmpty then (.failed (.config .noTasks), s, w)
  else
    let (now, w) := Clock.read w
    match s.scheduleNew now with
    | none => (.crashed, s, w)
    | some s =>
      match s.earliest? with
      | none => (.completed {}, s, w)
      | some deadline =>
        match Clock.waitFor deadline w with
        | (false, w) => (.stopped, s, w)
        | (true, w) => s.runReady w

/-- Run cycles until a stop is seen or one fails; nothing if that takes more than `fuel`. -/
def runLoop (fuel : Nat) (s : Scheduler ω) (w : ω) : Option (RunEnd × Scheduler ω × ω) :=
  match fuel with
  | 0 => none
  | fuel + 1 =>
    if Clock.stopping w then some (.finished, s, w)
    else match s.runCycle w with
      | (.completed _, s, w) => runLoop fuel s w
      | (.stopped, s, w) => some (.finished, s, w)
      | (.failed e, s, w) => some (.failed e, s, w)
      | (.crashed, s, w) => some (.crashed, s, w)

/-- Shut every task down, in order, whatever the others answer. -/
def shutdownAll (tasks : List (PeriodicTask ω)) (w : ω) : ω :=
  tasks.foldl (fun w t => (t.job.shutdown w).2) w

/-- Run cycles until the end, then shut the tasks down. A crash leaves no time for that. -/
def run (fuel : Nat) (s : Scheduler ω) (w : ω) : Option (RunEnd × Scheduler ω × ω) :=
  match s.runLoop fuel w with
  | none => none
  | some (.crashed, s, w) => some (.crashed, s, w)
  | some (result, s, w) => some (result, s, shutdownAll s.tasks w)

/-- The error a thread that crashed is known by. -/
def crashError : BenchError := .taskFault "bench-scheduler" "scheduler thread panicked"

end Scheduler
end RigBench
