import RigBench.World
import RigBench.Rig.Configured

/-!
The bench a configuration describes: one control loop on a schedule, and a task that takes in
frames where the loop does not.
-/
namespace RigBench

structure Assembly where
  scheduler : Scheduler (World ConfiguredRig)
  world : World ConfiguredRig

inductive AssemblyFault
  | notReady (e : BenchError)
  | notScheduled (e : BenchError)
  | crashed
  deriving DecidableEq

namespace Assembly

/-- A bench whose control loop is not yet made ready. -/
def bare (c : Config) : World ConfiguredRig :=
  { bench := .new c.server.queueCapacity c.server.queueCapacity }

def controlLoop (c : Config) : ControlLoop ConfiguredRig where
  rig := .ofConfig c.rig
  settings := c.control.settings
  watchesLink := true

/-- The tasks: control first, so that it goes first where both are due. -/
def schedule (c : Config) : Except AddFault (Scheduler (World ConfiguredRig)) := do
  let scheduler : Scheduler (World ConfiguredRig) :=
    { policy := c.scheduler.onOverrun, histogramSize := c.scheduler.histogramSize }
  let scheduler ← scheduler.register "control" c.control.period (World.controlJob 0)
  if c.control.handleFramesInTick then return scheduler
  else scheduler.register "link" c.control.linkPollPeriod World.linkJob

def ofConfig (c : Config) : Except AssemblyFault Assembly :=
  if FrameQueue.fits c.server.queueCapacity then
    match (bare c).addLoop (controlLoop c) with
    | (.error e, _) => .error (.notReady e)
    | (.ok _, world) =>
      match schedule c with
      | .error (.refused e) => .error (.notScheduled e)
      | .error .crashed => .error .crashed
      | .ok scheduler => .ok { scheduler, world }
  else .error .crashed

end Assembly
end RigBench
