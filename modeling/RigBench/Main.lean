import RigBench.Program
import Std.Async.Signal
import Std.Async.TCP
import Std.Async.Timer

/-!
The program at its command line. Everything is decided in `Plan`, `Bench` and `Scheduler`; here
files are read, the clock and the network are waited for, and texts are written.
-/
namespace RigBench.Main

open Std.Async
open Std.Async.TCP.Socket (Client)

abbrev Listener := Std.Async.TCP.Socket.Server

def isDirectory (path : String) : IO Bool := do
  try (← IO.FS.realPath path).isDir catch _ => return false

def lookUp (path : String) : IO (Except FileFault Bytes) := do
  match ← (IO.FS.readBinFile path).toBaseIO with
  | .ok bytes => return .ok bytes.toList
  | .error e =>
    if ← isDirectory path then return .error .directory
    return .error <| match e with
      | .noFileOrDirectory .. => .missing
      | .inappropriateType .. => .throughFile
      | e => .other (toString e)

def gather (paths : List String) : IO Lookup := do
  let found ← paths.mapM fun path => return (path, ← lookUp path)
  return fun path => ((found.find? (·.1 == path)).map (·.2)).getD (.error .missing)

def networkAddress (a : SocketAddress) : Std.Net.SocketAddress :=
  match a.ip with
  | .v4 w x y z => .v4 { addr := .ofParts w x y z, port := a.port }
  | .v6 gs => .v6 { addr := ⟨gs⟩, port := a.port }

/-- Listen at an address, or tell why that cannot be. -/
def listen (a : SocketAddress) : IO (Except String Listener) := do
  try
    let listener ← Std.Async.TCP.Socket.Server.mk
    listener.bind (networkAddress a)
    listener.listen 128
    return .ok listener
  catch
    | .resourceBusy .. => return .error "Address already in use (os error 98)"
    | .permissionDenied .. => return .error "Permission denied (os error 13)"
    | e => return .error (toString e)

inductive News
  | interrupt
  | time
  | connection (result : Except IO.Error Client)
  | bytes (result : Except IO.Error (Option ByteArray))
  | sent (result : Except IO.Error Unit)

structure Visit where
  client : Client
  incoming : Task News
  /-- Samples on their way to it. -/
  sending : Option (Task News) := none

structure Service where
  listener : Listener
  interrupt : Task News
  arrival : Task News
  /-- The clock of the bench begins here. -/
  origin : Nat
  assembly : Assembly
  visit : Option Visit := none

def tell {α : Type} (f : Except IO.Error α → News) (task : AsyncTask α) : Task News :=
  Task.map f task

def arrivalOf (listener : Listener) : IO (Task News) :=
  return tell .connection (← listener.accept.toIO)

def incomingOf (client : Client) : IO (Task News) :=
  return tell .bytes (← (client.recv? 512).toIO)

namespace Service

def mapBench (s : Service) (f : Bench → Bench) : Service :=
  { s with assembly.world.bench := f s.assembly.world.bench }

def now (s : Service) : IO Nat := return (← IO.monoNanosNow) - s.origin

def hangUp (s : Service) : Service := { s.mapBench Bench.closeSession with visit := none }

/-- Nanoseconds that each due job takes. A job does nothing but change the world it is given, so it
can be run once to be timed and once to count. -/
def timeJobs (a : Assembly) (now : Nat) : IO (List Nat) := do
  let mut world := a.world
  let mut times := []
  for task in a.scheduler.tasks do
    if task.isDue now then
      let before ← IO.monoNanosNow
      let (_, next) ← IO.lazyPure fun _ => task.job.run world
      times := times ++ [(← IO.monoNanosNow) - before]
      world := next
  return times

/-- Schedule what is new and run what is due; tell if that ended the schedule. -/
def runDue (s : Service) : IO (Option RunEnd × Service) := do
  let now ← s.now
  let some scheduler := s.assembly.scheduler.scheduleNew now | return (some .crashed, s)
  let a := { s.assembly with scheduler }
  if now < scheduler.earliest?.getD 0 then return (none, { s with assembly := a })
  let times ← timeJobs a now
  let ahead := {} :: times.flatMap fun (nanos : Nat) => [{}, { nanos }]
  let (result, scheduler, world) := scheduler.runReady { a.world with clock.now := now, ahead }
  return (match result with
    | .failed e => some (.failed e)
    | .crashed => some .crashed
    | .stopped | .completed _ => none, { s with assembly := { scheduler, world } })

/-- Send the queued samples, unless earlier ones are still on their way. -/
def send (s : Service) : IO Service := do
  let some visit := s.visit | return s
  if visit.sending.isSome then return s
  let (frames, bench) := s.assembly.world.bench.collect
  if frames.isEmpty then return s
  let task ← (visit.client.send ⟨(Frame.encodeAll frames).toArray⟩).toIO
  return { s.mapBench fun _ => bench with
    visit := some { visit with sending := some (tell .sent task) } }

/-- Milliseconds to wait at most: to the next deadline and not past a slice of the clock. -/
def patience (s : Service) : IO Nat := do
  let deadline := s.assembly.scheduler.earliest?.getD 0
  return min Clock.slice (deadline - (← s.now)) / 1000000

def news (s : Service) : IO News := do
  let timer ← (Std.Async.sleep (.ofNat (← s.patience))).toIO
  let visiting := match s.visit with
    | some visit => visit.incoming :: visit.sending.toList
    | none => []
  IO.waitAny (s.interrupt :: tell (fun _ => .time) timer :: s.arrival :: visiting) (by simp)

/-- Take in a connection; it is dropped while another client is served. -/
def welcome (s : Service) (client : Client) : IO Service := do
  if s.assembly.world.bench.link.connected then return s
  return { s.mapBench Bench.openSession with
    visit := some { client, incoming := ← incomingOf client } }

def receive (s : Service) (visit : Visit) (chunk : ByteArray) : IO Service := do
  let (e, bench) := s.assembly.world.bench.receive chunk.toList
  let s := s.mapBench fun _ => bench
  if e.isSome then return s.hangUp
  return { s with visit := some { visit with incoming := ← incomingOf visit.client } }

def heed (s : Service) : News → IO Service
  | .interrupt | .time => return s
  | .connection result => do
    let s := { s with arrival := ← arrivalOf s.listener }
    match result with
    | .ok client => s.welcome client
    | .error _ => return s
  | .bytes result =>
    match s.visit, result with
    | some visit, .ok (some chunk) => s.receive visit chunk
    | _, _ => return s.hangUp
  | .sent result =>
    match result with
    | .ok _ => return { s with visit := s.visit.map ({ · with sending := none }) }
    | .error _ => return s.hangUp

/-- Serve until the schedule ends or an interrupt comes. -/
partial def loop (s : Service) : IO RunEnd := do
  match ← s.runDue with
  | (some result, _) => return result
  | (none, s) =>
    let s ← s.send
    match ← s.news with
    | .interrupt => return .finished
    | news => loop (← s.heed news)

end Service

def serve (c : Config) : IO Ending := do
  if !FrameQueue.fits c.server.queueCapacity then return .crashed
  match ← listen c.server.bind with
  | .error reason => return .notListening c.server.bind reason
  | .ok listener =>
    match Assembly.ofConfig c with
    | .error e => return .notAssembled e
    | .ok assembly =>
      let interrupt ← (← Signal.Waiter.mk .sigint false).wait
      return .ofRun (← Service.loop {
        listener
        interrupt := tell (fun _ => .interrupt) interrupt
        arrival := ← arrivalOf listener
        origin := ← IO.monoNanosNow
        assembly })

/-- Do what the arguments say; the result is the exit code. -/
def run (arguments : List String) : IO UInt32 := do
  let envPath ← IO.getEnv ConfigSource.variableName
  let files ← gather (Plan.paths arguments envPath)
  let plan := Plan.make arguments envPath files
  let ending ← match plan with
    | .serve c => serve c
    | plan => pure ((Ending.ofPlan? plan).getD { code := 0 })
  IO.print ending.output
  IO.eprint ending.errors
  return ending.code.toUInt32

end RigBench.Main

def main (arguments : List String) : IO UInt32 := RigBench.Main.run arguments
