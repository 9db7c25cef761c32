import RigBench.ControlLoop
import RigBench.Frame.Decoder

/-!
A bench: the experiment with its queues, the link, and the stream a client sends.
-/
namespace RigBench

structure Bench where
  transport : Transport
  link : LinkState := {}
  decoder : FrameDecoder := {}
  deriving DecidableEq

namespace Bench

def new (inputCapacity outputCapacity : Nat) : Bench :=
  { transport := .new (.new inputCapacity) (.new outputCapacity) }

def submit (b : Bench) (f : Frame) : Bench :=
  { b with transport.input := b.transport.input.push f }

def receive (b : Bench) (bytes : Bytes) : Option BenchError × Bench :=
  let (frames, e, decoder) := (b.decoder.feed bytes).drain
  (e, { b with decoder, transport.input := b.transport.input.pushAll frames })

def collect (b : Bench) : List Frame × Bench :=
  let (frames, output) := b.transport.output.drain
  (frames, { b with transport.output := output })

def onTransport {α : Type} (b : Bench) (f : Transport → α × Transport) : α × Bench :=
  let (a, transport) := f b.transport
  (a, { b with transport })

/-- Make the transport ready; on failure it stays as it is. -/
def init (b : Bench) : Except BenchError Unit × Bench :=
  match b.transport.init with
  | .ok transport => (.ok (), { b with transport })
  | .error e => (.error e, b)

def tick {ρ : Type} [Rig ρ] (b : Bench) (c : ControlLoop ρ) :
    Except BenchError TickOutcome × ControlLoop ρ × Bench :=
  let (result, c, transport) := c.tick b.link b.transport
  (result, c, { b with transport })

/-- A session begins: the link is up, samples from before are stale and the stream starts anew. -/
def openSession (b : Bench) : Bench :=
  { b with
    link := b.link.connect
    decoder := {}
    transport.output := b.transport.output.clear }

/-- The session ends. Frames already read stay. -/
def closeSession (b : Bench) : Bench :=
  { b with link := b.link.disconnect, transport.output := b.transport.output.clear }

end Bench

inductive ClientAct
  | submit (f : Frame)
  | connect
  | disconnect
  | collect
  deriving DecidableEq

def Bench.undergo (b : Bench) : ClientAct → Bench
  | .submit f => b.submit f
  | .connect => { b with link := b.link.connect }
  | .disconnect => { b with link := b.link.disconnect }
  | .collect => b.collect.2

end RigBench
