import RigBench.Bench

/-!
What a bench shows of its run, and what such a history says: how many samples the experiment has
given, how long its client has been silent, which ramp is in force, whether the client has left.
-/
namespace RigBench

inductive Event
  /-- A frame was taken in and did what it says. -/
  | accepted (command : Command)
  /-- A frame was taken in and did nothing. -/
  | refused
  /-- A tick advanced the time and queued a sample. -/
  | sample (f : Frame)
  | connected
  | disconnected
  deriving DecidableEq

/-- All that happened since the bench was made ready, the newest first. -/
abbrev History := List Event

namespace History

/-- Samples queued since the last accepted start; none if no start was accepted. -/
def samplesSinceStart : History → Option Nat
  | [] => none
  | .accepted .start :: _ => some 0
  | .sample _ :: h => (samplesSinceStart h).map (· + 1)
  | _ :: h => samplesSinceStart h

/-- Samples queued since the last frame, of whatever kind; none if there was no frame. -/
def samplesSinceFrame : History → Option Nat
  | [] => none
  | .accepted _ :: _ => some 0
  | .refused :: _ => some 0
  | .sample _ :: h => (samplesSinceFrame h).map (· + 1)
  | _ :: h => samplesSinceFrame h

def ramp : History → Ramp Binary64
  | [] => .zero
  | .accepted (.trajectory params) :: h => params.toRamp.toOption.getD (ramp h)
  | _ :: h => ramp h

/-- The last sample of the current experiment. -/
def lastSample : History → Option Frame
  | [] => none
  | .accepted .start :: _ => none
  | .sample f :: _ => some f
  | _ :: h => lastSample h

/-- The client has left since the last accepted start. -/
def clientLeft : History → Bool
  | [] => false
  | .accepted .start :: _ => false
  | .disconnected :: _ => true
  | _ :: h => clientLeft h

def samples : History → List (Frame × History)
  | [] => []
  | .sample f :: h => samples h ++ [(f, .sample f :: h)]
  | _ :: h => samples h

theorem samplesSinceStart_sample {h : History} {k : Nat} (hk : h.samplesSinceStart = some k)
    (f : Frame) : samplesSinceStart (.sample f :: h) = some (k + 1) := by
  rw [samplesSinceStart, hk]
  rfl

theorem samplesSinceFrame_sample {h : History} {k : Nat} (hk : h.samplesSinceFrame = some k)
    (f : Frame) : samplesSinceFrame (.sample f :: h) = some (k + 1) := by
  rw [samplesSinceFrame, hk]
  rfl

end History

namespace Transport

/-- What taking in a frame shows: whether the transport counts it among those that did what they
say. -/
def eventOf (t : Transport) (f : Frame) : Event :=
  match Command.decode f with
  | .ok (some command) =>
    if (t.receive f).stats.handled = t.stats.handled + 1 then .accepted command else .refused
  | _ => .refused

theorem samples_eventOf (t : Transport) (f : Frame) (h : History) :
    History.samples (t.eventOf f :: h) = h.samples := by
  unfold eventOf
  split
  · split <;> rfl
  · rfl

/-- The history when frames have been taken in one after the other. -/
def note (t : Transport) : List Frame → History → History
  | [], h => h
  | f :: fs, h => (t.receive f).note fs (t.eventOf f :: h)

def noteFrames (t : Transport) (h : History) : History :=
  { t with input := t.input.drain.2 }.note t.input.drain.1 h

def noteRun (t : Transport) (h : History) : History :=
  if t.state = .uninitialized then h else t.noteFrames h

end Transport

namespace ControlLoop

variable {ρ : Type} [Rig ρ]

def noteIntake (c : ControlLoop ρ) (t : Transport) (h : History) : History :=
  if c.settings.framesInTick then t.noteFrames h else h

/-- The history when the sample of a running experiment is queued: the frame that is then the last
of the output queue. -/
def noteSample (c : ControlLoop ρ) (t : Transport) (h : History) : History :=
  match c.sample t with
  | (.ok _, _, t) => (t.output.frames.getLast?.toList.map .sample) ++ h
  | (.error _, _, _) => h

def noteTick (c : ControlLoop ρ) (link : LinkState) (t : Transport) (h : History) : History :=
  let h := c.noteIntake t h
  let t := c.intake t
  if c.lostLink link t then h
  else if t.isRunning then c.noteSample t h
  else h

end ControlLoop

def ClientAct.note (h : History) : ClientAct → History
  | .connect => .connected :: h
  | .disconnect => .disconnected :: h
  | .submit _ => h
  | .collect => h

inductive Act
  | tick
  | service
  | client (act : ClientAct)
  deriving DecidableEq

structure Run (ρ : Type) where
  loop : ControlLoop ρ
  bench : Bench
  history : History := []

namespace Run

variable {ρ : Type}

def start (c : ControlLoop ρ) (b : Bench) : Run ρ := { loop := c, bench := b }

variable [Rig ρ]

def step (r : Run ρ) : Act → Run ρ
  | .tick =>
    let (_, loop, bench) := r.bench.tick r.loop
    { loop, bench, history := r.loop.noteTick r.bench.link r.bench.transport r.history }
  | .service =>
    { r with
      bench := (r.bench.onTransport Transport.run).2
      history := r.bench.transport.noteRun r.history }
  | .client act => { r with bench := r.bench.undergo act, history := act.note r.history }

def after (r : Run ρ) (acts : List Act) : Run ρ := acts.foldl step r

theorem after_append_singleton (r : Run ρ) (acts : List Act) (a : Act) :
    r.after (acts ++ [a]) = (r.after acts).step a := by
  rw [after, List.foldl_append]
  rfl

end Run
end RigBench
