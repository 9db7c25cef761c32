import RigBench.Program

/-!
Running the program on a host that no client reaches. The bench is then idle, so its first cycle
decides whether the schedule holds: every later one finds the same.
-/
namespace RigBench

structure Host where
  bindFault : SocketAddress → Option String
  /-- Least nanoseconds between two readings of the clock. -/
  resolution : Nat

namespace Host

/-- A host without a network. Any IPv4 address can be listened on; of the IPv6 ones only the
unspecified and those that stand for IPv4. -/
def isolated : Host where
  bindFault a :=
    match a.ip with
    | .v4 .. => none
    | .v6 gs =>
      match gs.toList with
      | [0, 0, 0, 0, 0, 0, 0, 0] | [0, 0, 0, 0, 0, 0xffff, _, _] => none
      | _ => some "Cannot assign requested address (os error 99)"
  resolution := 100

/-- Run the first cycle of a bench, at the time it is due. -/
def firstCycle (h : Host) (a : Assembly) : CycleEnd :=
  match a.scheduler.scheduleNew a.world.clock.now with
  | none => .crashed
  | some s =>
    match s.earliest? with
    | none => .completed {}
    | some deadline =>
      let ahead := List.replicate (1 + 2 * s.tasks.length) { nanos := h.resolution }
      (s.runReady { a.world with clock.now := deadline, ahead }).1

/-- The ending of a server that nobody interrupts; there is none if its schedule holds. The queues
are made before it listens. -/
def serve (h : Host) (c : Config) : Option Ending :=
  if !FrameQueue.fits c.server.queueCapacity then some .crashed
  else match h.bindFault c.server.bind with
  | some reason => some (.notListening c.server.bind reason)
  | none =>
    match Assembly.ofConfig c with
    | .error e => some (.notAssembled e)
    | .ok a =>
      match h.firstCycle a with
      | .stopped | .completed _ => none
      | .failed e => some (.ofRun (.failed e))
      | .crashed => some (.ofRun .crashed)

def run (h : Host) : Plan → Option Ending
  | .serve c => h.serve c
  | plan => Ending.ofPlan? plan

/-- The ending when an interrupt comes after the start. -/
def runInterrupted (h : Host) (plan : Plan) : Ending :=
  (h.run plan).getD (.ofRun .finished)

end Host
end RigBench
