import RigBench.Frame.Decoder
import RigBench.FrameQueue
import RigBench.Link

/-!
The server between its clients and the two queues, as a machine of small steps. An acceptor takes
in connections; each one it welcomes is served by a session of its own, which reads frames into the
input queue and writes those of the output queue. The link keeps it to one session at a time.
-/
namespace RigBench

/-- A value that others watch for changes. -/
structure Watch where
  value : Bool := false
  changes : Nat := 0
  /-- It will not be set again. -/
  closed : Bool := false
  deriving DecidableEq

namespace Watch

def set (w : Watch) (value : Bool) : Watch := { w with value, changes := w.changes + 1 }

def close (w : Watch) : Watch := { w with closed := true }

def isNewTo (w : Watch) (seen : Nat) : Bool := w.changes != seen || w.closed

end Watch

inductive SessionPhase
  /-- Discard samples from before. -/
  | starting
  | serving
  /-- Discard samples that are left. -/
  | ending
  /-- Take the link down. -/
  | cleared
  | over
  deriving DecidableEq

structure Session where
  phase : SessionPhase := .starting
  /-- Changes of the shutdown value it knows of. -/
  seen : Nat
  decoder : FrameDecoder := {}
  /-- Bytes of drained frames that are not yet written. -/
  unsent : Bytes := []
  written : Bytes := []
  deriving DecidableEq

inductive AcceptorPhase
  | looking
  /-- Wait for a connection or for news of the shutdown. -/
  | waiting
  | welcoming
  | closing
  | returned
  deriving DecidableEq

structure Server where
  input : FrameQueue
  output : FrameQueue
  link : LinkState := {}
  shutdown : Watch := {}
  acceptor : AcceptorPhase := .looking
  seen : Nat := 0
  /-- All sessions so far, in the order they began. -/
  sessions : List Session := []
  arrivals : Nat := 0
  /-- Connections that were closed at once. -/
  refused : Nat := 0
  deriving DecidableEq

/-- One step of the acceptor, of a session by its place, or of somebody outside. -/
inductive ServerEvent
  | look
  /-- A connection is accepted. It is closed at once while the link is up. -/
  | connect
  | acceptFails
  | welcome
  /-- The acceptor takes note of a change. -/
  | heed
  /-- The acceptor ends because nobody can tell it to any more. -/
  | abandon
  | finish
  | start (k : Nat)
  | receive (k : Nat) (bytes : Bytes)
  /-- The stream ends, or reading or writing fails. -/
  | hangUp (k : Nat)
  | drain (k : Nat)
  /-- So many bytes, at most, get written. -/
  | write (k count : Nat)
  /-- A session takes note of the shutdown value. -/
  | notice (k : Nat)
  | clear (k : Nat)
  | unmark (k : Nat)
  | push (f : Frame)
  | discard
  | take
  | setShutdown (value : Bool)
  | closeShutdown
  deriving DecidableEq

namespace Session

def advance (x : Session) (source target : SessionPhase) : Option Session :=
  if x.phase = source then some { x with phase := target } else none

/-- Take in bytes. The frames in them count even if the stream fails behind them. -/
def receive (x : Session) (bytes : Bytes) : List Frame × Session :=
  let (frames, e, decoder) := (x.decoder.feed bytes).drain
  (frames, { x with decoder, phase := if e.isSome then .ending else x.phase })

def load (x : Session) (frames : List Frame) : Session :=
  { x with unsent := Frame.encodeAll frames }

def write (x : Session) (count : Nat) : Session :=
  { x with unsent := x.unsent.drop count, written := x.written ++ x.unsent.take count }

end Session

namespace Server

def new (input output : FrameQueue) (shutdown : Watch) : Server :=
  { input, output, shutdown, seen := shutdown.changes }

def update (s : Server) (k : Nat) (f : Session → Option Session) : Option Server := do
  let x ← s.sessions[k]?
  return { s with sessions := s.sessions.set k (← f x) }

def during (s : Server) (phase : AcceptorPhase) (next : Server) : Option Server :=
  if s.acceptor = phase then some next else none

/-- The last session, if there was one, is over. -/
def isQuiet (s : Server) : Bool :=
  match s.sessions.getLast? with
  | some x => x.phase == .over
  | none => true

def step (s : Server) : ServerEvent → Option Server
  | .look =>
    s.during .looking { s with acceptor := if s.shutdown.value then .closing else .waiting }
  | .connect =>
    let s' := { s with arrivals := s.arrivals + 1 }
    s.during .waiting <|
      if s.link.connected then { s' with refused := s.refused + 1, acceptor := .looking }
      else { s' with acceptor := .welcoming }
  | .acceptFails => s.during .waiting { s with acceptor := .looking }
  | .welcome =>
    s.during .welcoming { s with
      link := s.link.connect
      sessions := s.sessions ++ [{ seen := s.seen }]
      acceptor := .looking }
  | .heed =>
    if s.shutdown.changes = s.seen then none
    else s.during .waiting { s with seen := s.shutdown.changes, acceptor := .looking }
  | .abandon =>
    if s.shutdown.closed && s.shutdown.changes == s.seen then
      s.during .waiting { s with acceptor := .closing }
    else none
  | .finish => if s.isQuiet then s.during .closing { s with acceptor := .returned } else none
  | .start k => update { s with output := s.output.clear } k (·.advance .starting .serving)
  | .receive k bytes => do
    let x ← s.sessions[k]?
    if x.phase = .serving then
      let (frames, x) := x.receive bytes
      return { s with input := s.input.pushAll frames, sessions := s.sessions.set k x }
    else none
  | .hangUp k => s.update k (·.advance .serving .ending)
  | .drain k =>
    let (frames, output) := s.output.drain
    update { s with output } k fun x =>
      if x.phase = .serving && x.unsent.isEmpty then some (x.load frames) else none
  | .write k count =>
    s.update k fun x => if x.phase = .serving then some (x.write count) else none
  | .notice k =>
    s.update k fun x =>
      if s.shutdown.isNewTo x.seen then
        Session.advance { x with seen := s.shutdown.changes } .serving .ending
      else none
  | .clear k => update { s with output := s.output.clear } k (·.advance .ending .cleared)
  | .unmark k => update { s with link := s.link.disconnect } k (·.advance .cleared .over)
  | .push f => some { s with output := s.output.push f }
  | .discard => some { s with output := s.output.clear }
  | .take => some { s with input := s.input.drain.2 }
  | .setShutdown value =>
    if s.shutdown.closed then none else some { s with shutdown := s.shutdown.set value }
  | .closeShutdown => some { s with shutdown := s.shutdown.close }

def run (s : Server) (events : List ServerEvent) : Option Server := events.foldlM step s

/-- Go on with the first of some steps that is possible, at most so often. -/
def settle (events : List ServerEvent) : Nat → Server → Server
  | 0, s => s
  | fuel + 1, s =>
    match events.findSome? s.step with
    | some s => settle events fuel s
    | none => s

/-- What the acceptor does of itself, without a connection. -/
def acceptorEvents : List ServerEvent := [.look, .heed, .abandon, .finish]

end Server
end RigBench
