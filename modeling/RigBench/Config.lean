import RigBench.ControlLoop
import RigBench.Scheduler.Task
import RigBench.SocketAddress

/-!
The settings of a bench server, with a default for each of them.
-/
namespace RigBench

structure ServerConfig where
  bind : SocketAddress := { ip := .v4 0 0 0 0, port := 50007 }
  workerThreads : Nat := 2
  /-- Frames each of the two queues holds. -/
  queueCapacity : Nat := 1024
  deriving DecidableEq

structure ControlConfig where
  period : Duration := .ofMillis 1000
  step : Duration := .ofMillis 1000
  /-- End an experiment after so much experiment time without a frame; zero for never. -/
  keepalive : Duration := .zero
  /-- Take in frames at the start of each tick, not in a task of their own. -/
  handleFramesInTick : Bool := true
  /-- Wall-clock time between runs of that task. -/
  linkPollPeriod : Duration := .ofMillis 10
  stopOnDisconnect : Bool := true
  deriving DecidableEq

structure SchedulerConfig where
  onOverrun : OverrunPolicy := .warn
  /-- Samples kept per task. -/
  histogramSize : Nat := 1000
  deriving DecidableEq

inductive RigKind
  | none
  | simulated
  deriving DecidableEq, Repr

structure RigConfig where
  kind : RigKind := .none
  timeConstant : Duration := .ofMillis 200
  deriving DecidableEq

structure Config where
  server : ServerConfig := {}
  control : ControlConfig := {}
  scheduler : SchedulerConfig := {}
  rig : RigConfig := {}
  deriving DecidableEq

namespace OverrunPolicy

def name : OverrunPolicy → String
  | fault => "fault"
  | warn => "warn"
  | ignore => "ignore"

def all : List OverrunPolicy := [fault, warn, ignore]

end OverrunPolicy

namespace RigKind

def name : RigKind → String
  | none => "none"
  | simulated => "simulated"

def all : List RigKind := [none, simulated]

end RigKind

namespace ControlConfig

def settings (c : ControlConfig) : ControlSettings :=
  ⟨c.step, c.keepalive, c.handleFramesInTick, c.stopOnDisconnect⟩

end ControlConfig

namespace Config

/-- The fields that must not be zero, in the order they are looked at, with what they are. -/
def zeroChecks (c : Config) : List (String × Bool) :=
  [("control.period", c.control.period.isZero),
   ("control.step", c.control.step.isZero),
   ("control.link_poll_period",
     !c.control.handleFramesInTick && c.control.linkPollPeriod.isZero),
   ("server.worker_threads", c.server.workerThreads == 0),
   ("server.queue_capacity", c.server.queueCapacity == 0),
   ("rig.time_constant", decide (c.rig.kind = .simulated) && c.rig.timeConstant.isZero)]

/-- Look for a value no server can work with; the first one found is the error. -/
def validate (c : Config) : Except BenchError Unit :=
  match c.zeroChecks.find? (·.2) with
  | some (field, _) => .error (.config (.mustBeNonZero field))
  | none => .ok ()

end Config
end RigBench
