import RigBench.Error

/-!
The life cycle of an experiment: a bench is initialized once, after that an experiment starts and
stops any number of times.
-/
namespace RigBench

inductive ExperimentState
  | uninitialized
  | idle
  | running
  deriving DecidableEq, Repr, Inhabited

namespace ExperimentState

def name : ExperimentState → String
  | uninitialized => "UNINITIALIZED"
  | idle => "IDLE"
  | running => "RUNNING"

def all : List ExperimentState := [uninitialized, idle, running]

def ofName? (s : String) : Option ExperimentState := all.find? (·.name == s)

def canBecome : ExperimentState → ExperimentState → Bool
  | uninitialized, idle => true
  | idle, running => true
  | running, idle => true
  | _, _ => false

end ExperimentState

/-- A life cycle with the state before the current one and the number of steps made. -/
structure Lifecycle where
  state : ExperimentState := .uninitialized
  previous : Option ExperimentState := none
  transitions : Nat := 0
  deriving DecidableEq, Inhabited

namespace Lifecycle

/-- Make one step; a step that does not exist is refused and leaves all as it was. -/
def transition (c : Lifecycle) (target : ExperimentState) : Except BenchError Lifecycle :=
  if c.state.canBecome target then
    .ok ⟨target, some c.state, c.transitions + 1⟩
  else .error (.transition c.state.name target.name)

end Lifecycle
end RigBench
