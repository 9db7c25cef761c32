import RigBench.Command
import RigBench.ExperimentTime
import RigBench.FrameQueue
import RigBench.Lifecycle
import RigBench.Sample

/-!
The experiment between its two queues: frames from the client change it, samples go back. It does
no input or output of its own.
-/
namespace RigBench

structure BenchData where
  time : ExperimentTime := .zero
  measurement : Binary64 := .zero
  deriving DecidableEq, Inhabited

structure Trajectory where
  ramp : Ramp Binary64 := .zero
  output : Binary64 := .zero
  deriving DecidableEq, Inhabited

structure TransportStats where
  /-- Frames that did what they say. -/
  handled : Nat := 0
  /-- Frames that are malformed or not allowed now. -/
  rejected : Nat := 0
  /-- Frames that say nothing to the bench. -/
  ignored : Nat := 0
  sent : Nat := 0
  resets : Nat := 0
  deriving DecidableEq, Inhabited

structure Transport where
  input : FrameQueue
  output : FrameQueue
  lifecycle : Lifecycle := {}
  stats : TransportStats := {}
  data : BenchData := {}
  trajectory : Trajectory := {}
  /-- Experiment time at the last frame. -/
  keepaliveTime : ExperimentTime := .zero
  deriving DecidableEq

def Trajectory.follow (t : Trajectory) (data : BenchData) : Trajectory :=
  { t with output := t.ramp.evaluate data.time.millis }

namespace Transport

def new (input output : FrameQueue) : Transport := { input, output }

def state (t : Transport) : ExperimentState := t.lifecycle.state

def isRunning (t : Transport) : Bool := t.state == .running

/-- Make ready for a first experiment; only once. -/
def init (t : Transport) : Except BenchError Transport := do
  let lifecycle ← t.lifecycle.transition .idle
  return { t with lifecycle, data := {}, trajectory := {}, keepaliveTime := .zero }

def countHandled (t : Transport) : Transport :=
  { t with stats.handled := t.stats.handled + 1 }

def countRejected (t : Transport) : Transport :=
  { t with stats.rejected := t.stats.rejected + 1 }

def countIgnored (t : Transport) : Transport :=
  { t with stats.ignored := t.stats.ignored + 1 }

def startExperiment (t : Transport) : Transport :=
  match t.lifecycle.transition .running with
  | .ok lifecycle =>
    { t with
      lifecycle
      data := {}
      keepaliveTime := .zero
      trajectory.output := t.trajectory.ramp.evaluate 0 }.countHandled
  | .error _ => t.countRejected

/-- Stop the experiment; its clock and values stay as they are. -/
def stopExperiment (t : Transport) : Transport :=
  match t.lifecycle.transition .idle with
  | .ok lifecycle => { t with lifecycle }.countHandled
  | .error _ => t.countRejected

def dispatch (t : Transport) (f : Frame) : Transport :=
  match Command.decode f with
  | .ok (some .start) => t.startExperiment
  | .ok (some .stop) => t.stopExperiment
  | .ok (some .keepalive) => t.countHandled
  | .ok (some (.trajectory params)) =>
    match params.toRamp with
    | .ok ramp => { t with trajectory.ramp := ramp }.countHandled
    | .error _ => t.countRejected
  | .ok none => t.countIgnored
  | .error _ => t.countRejected

/-- Every frame, whatever it says, shows that the client is there. -/
def receive (t : Transport) (f : Frame) : Transport :=
  { t with keepaliveTime := t.data.time }.dispatch f

def handleFrames (t : Transport) : Nat × Transport :=
  let (frames, input) := t.input.drain
  (frames.length, frames.foldl receive { t with input })

/-- Take in waiting frames between ticks; before `init` they stay where they are. -/
def run (t : Transport) : Nat × Transport :=
  if t.state = .uninitialized then (0, t) else t.handleFrames

def sample (t : Transport) : BenchSample where
  time := t.data.time.wireMillis
  setpoint := t.trajectory.output
  measurement := t.data.measurement
  startValue := t.trajectory.ramp.startValue
  endValue := t.trajectory.ramp.endValue

def sendData (t : Transport) : Transport :=
  { t with output := t.output.push t.sample.toFrame, stats.sent := t.stats.sent + 1 }

/-- End any experiment and forget its data and unsent samples; the ramp stays. -/
def reset (t : Transport) : Transport :=
  let lifecycle :=
    if t.isRunning then (t.lifecycle.transition .idle).toOption.getD t.lifecycle else t.lifecycle
  { t with
    lifecycle
    data := {}
    trajectory.output := .zero
    keepaliveTime := .zero
    output := t.output.clear
    stats.resets := t.stats.resets + 1 }

/-- No frame came for longer than a window of experiment time; a window of zero never ends. -/
def keepaliveExpired (t : Transport) (window : Duration) : Bool :=
  !window.isZero && (t.keepaliveTime.advance window).millis < t.data.time.millis

end Transport
end RigBench
