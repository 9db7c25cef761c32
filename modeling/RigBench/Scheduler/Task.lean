import RigBench.Clock
import RigBench.Error
import RigBench.Metrics

/-!
Periodic tasks. The deadlines of a task lie on a grid: the reading at which it was first
scheduled plus whole periods.
-/
namespace RigBench

inductive OverrunPolicy
  | fault
  | warn
  | ignore
  deriving DecidableEq, Repr

inductive JobEnd
  | done
  | failed (e : BenchError)
  /-- The job tore down the thread it ran on. -/
  | crashed
  deriving DecidableEq

structure Job (ω : Type) where
  run : ω → JobEnd × ω
  shutdown : ω → Except BenchError Unit × ω := fun w => (.ok (), w)

/-- A named job with its period, its next deadline once it is scheduled, and its statistics. -/
structure PeriodicTask (ω : Type) where
  name : String
  period : Duration
  deadline : Option Nat := none
  job : Job ω
  metrics : CycleMetrics

/-- The first point after `now` on the grid of a deadline that has passed, with the number of
points skipped on the way. The deadline itself is served, not skipped. -/
def nextDeadline (due period now : Nat) : Nat × Nat :=
  let next := due + period
  if now < next then (next, 0)
  else
    let missed := (now - next) / period + 1
    (next + missed * period, missed)

theorem lt_nextDeadline {due period now : Nat} (h : 0 < period) :
    now < (nextDeadline due period now).1 := by
  unfold nextDeadline
  dsimp only
  split
  · assumption
  · have := Nat.lt_div_mul_add h (a := now - (due + period))
    rw [Nat.add_mul]
    omega

namespace PeriodicTask

variable {ω : Type}

/-- Schedule a task that is not yet scheduled, one period from now. There is no deadline at or
past the horizon of the clock. -/
def schedule (now : Nat) (t : PeriodicTask ω) : Option (PeriodicTask ω) :=
  match t.deadline with
  | some _ => some t
  | none =>
    let first := now + t.period.nanos
    if first < Clock.horizon then some { t with deadline := some first } else none

def isDue (now : Nat) (t : PeriodicTask ω) : Bool :=
  match t.deadline with
  | some due => due ≤ now
  | none => false

/-- Account for a run that served the deadline `due` in a cycle read at `now`: record its time,
move the deadline past `now`, count what was skipped. The flag tells of an overrun. -/
def account (t : PeriodicTask ω) (due now execution : Nat) : Bool × PeriodicTask ω :=
  let (overran, metrics) := t.metrics.record execution
  let (next, missed) := nextDeadline due t.period.nanos now
  (overran, { t with metrics := metrics.recordMissed missed, deadline := some next })

inductive Served
  | fine (overran : Bool)
  | failed (e : BenchError)
  | crashed

/-- Account for a run and judge it. Its own error goes before its overrun, and there is no next
deadline at or past the horizon of the clock. -/
def conclude (policy : OverrunPolicy) (now due execution : Nat) (result : JobEnd)
    (t : PeriodicTask ω) : Served × PeriodicTask ω :=
  match result with
  | .crashed => (.crashed, t)
  | result =>
    let (overran, t) := t.account due now execution
    if Clock.horizon ≤ t.deadline.getD 0 then (.crashed, t)
    else match result with
      | .failed e => (.failed (.taskFailed t.name e), t)
      | _ =>
        if overran && policy = .fault then
          (.failed (.taskOverran t.name (execution / 1000) t.period.micros), t)
        else (.fine overran, t)

def serve [Clock ω] (policy : OverrunPolicy) (now due : Nat) (t : PeriodicTask ω) (w : ω) :
    Served × PeriodicTask ω × ω :=
  let (start, w) := Clock.read w
  let (result, w) := t.job.run w
  let (finish, w) := Clock.read w
  let (served, t) := t.conclude policy now due (finish - start) result
  (served, t, w)

end PeriodicTask
end RigBench
