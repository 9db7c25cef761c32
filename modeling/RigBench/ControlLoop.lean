import RigBench.Link
import RigBench.Rig
import RigBench.Transport

/-!
The control loop: on every tick of a running experiment it advances the time, drives the rig along
the ramp, measures and queues a sample. It ends the experiment when the client is gone.
-/
namespace RigBench

structure ControlSettings where
  step : Duration
  /-- Experiment time without a frame after which an experiment ends; zero for ever. -/
  keepalive : Duration
  framesInTick : Bool
  stopOnDisconnect : Bool
  deriving DecidableEq

inductive TickOutcome
  | idle
  | sampled
  | linkLost
  /-- A sample was queued, but no frame came for too long; the experiment was ended. -/
  | keepaliveExpired
  deriving DecidableEq, Repr

structure ControlLoop (ρ : Type) where
  rig : ρ
  settings : ControlSettings
  watchesLink : Bool := false
  ticks : Nat := 0
  deriving DecidableEq

namespace ControlLoop

variable {ρ : Type} [Rig ρ]

/-- Loop and transport after a call, with its result. -/
abbrev Call (ρ α : Type) := Except BenchError α × ControlLoop ρ × Transport

/-- Make rig and transport ready. A transport that is ready stays as it is. -/
def init (c : ControlLoop ρ) (t : Transport) : Call ρ Unit :=
  match Rig.init c.rig with
  | (.error e, rig) => (.error e, { c with rig }, t)
  | (.ok _, rig) =>
    if t.state = .uninitialized then
      match t.init with
      | .ok t' => (.ok (), { c with rig }, t')
      | .error e => (.error e, { c with rig }, t)
    else (.ok (), { c with rig }, t)

def lostLink (c : ControlLoop ρ) (link : LinkState) (t : Transport) : Bool :=
  c.settings.stopOnDisconnect && t.isRunning && c.watchesLink && !link.connected

/-- End the experiment and bring the rig to rest. -/
def abandon (c : ControlLoop ρ) (t : Transport) (outcome : TickOutcome) : Call ρ TickOutcome :=
  match Rig.safeState c.rig with
  | (.ok _, rig) => (.ok outcome, { c with rig }, t.reset)
  | (.error e, rig) => (.error e, { c with rig }, t.reset)

/-- One step of time with the set-point that belongs to it. -/
def advance (c : ControlLoop ρ) (t : Transport) : Transport :=
  let data := { t.data with time := t.data.time.advance c.settings.step }
  { t with data, trajectory := t.trajectory.follow data }

/-- Let time go on by a step, drive the rig to the set-point, measure and queue the sample. -/
def sample (c : ControlLoop ρ) (t : Transport) : Call ρ Unit :=
  let t := c.advance t
  match Rig.apply c.rig t.trajectory.output c.settings.step with
  | (.error e, rig) => (.error e, { c with rig }, t)
  | (.ok _, rig) =>
    match Rig.measure rig with
    | (.error e, rig) => (.error e, { c with rig }, t)
    | (.ok value, rig) => (.ok (), { c with rig }, { t with data.measurement := value }.sendData)

/-- Look at the keepalive window when a sample is queued. -/
def watch (c : ControlLoop ρ) (t : Transport) : Call ρ TickOutcome :=
  if t.keepaliveExpired c.settings.keepalive then c.abandon t .keepaliveExpired
  else (.ok .sampled, c, t)

def drive (c : ControlLoop ρ) (t : Transport) : Call ρ TickOutcome :=
  match c.sample t with
  | (.error e, c, t) => (.error e, c, t)
  | (.ok _, c, t) => c.watch t

/-- The transport when a tick has taken in the frames it takes in. -/
def intake (c : ControlLoop ρ) (t : Transport) : Transport :=
  if c.settings.framesInTick then t.handleFrames.2 else t

def tick (c : ControlLoop ρ) (link : LinkState) (t : Transport) : Call ρ TickOutcome :=
  let c := { c with ticks := c.ticks + 1 }
  let t := c.intake t
  if c.lostLink link t then c.abandon t .linkLost
  else if t.isRunning then c.drive t
  else (.ok .idle, c, t)

/-- Bring the rig to rest and let it go. -/
def shutdown (c : ControlLoop ρ) : Except BenchError Unit × ControlLoop ρ :=
  match Rig.safeState c.rig with
  | (.error e, rig) => (.error e, { c with rig })
  | (.ok _, rig) =>
    let (result, rig) := Rig.shutdown rig
    (result, { c with rig })

end ControlLoop
end RigBench
