import RigBench.Bench
import RigBench.Clock.Virtual
import RigBench.Scheduler

/-!
The world a schedule runs in: a virtual clock, one bench, and what the tasks on it keep.
-/
namespace RigBench

/-- A task that does as it is told. Its runs count from one. -/
structure TaskScript where
  name : String
  /-- Nanoseconds each run takes; the last entry goes for all later runs. -/
  work : List Nat := []
  /-- The run that asks for a stop. -/
  stopAt : Option Nat := none
  /-- The run that tears down its thread. -/
  crashAt : Option Nat := none
  /-- The run that fails, and its error. -/
  failAt : Option (Nat × BenchError) := none
  shutdownFails : Bool := false
  runs : Nat := 0
  shutdowns : Nat := 0
  deriving DecidableEq

namespace TaskScript

def run (s : TaskScript) (clock : VirtualClock) : JobEnd × TaskScript × VirtualClock :=
  let k := s.runs + 1
  let s := { s with runs := k }
  let clock := match s.work[min k s.work.length - 1]? with
    | some nanos => clock.work nanos
    | none => clock
  let clock := if s.stopAt = some k then clock.stop else clock
  if s.crashAt = some k then (.crashed, s, clock)
  else match s.failAt with
    | some (n, e) => (if n = k then .failed e else .done, s, clock)
    | none => (.done, s, clock)

def shutdown (s : TaskScript) : Except BenchError Unit × TaskScript :=
  (if s.shutdownFails then .error (.io (.other "shutdown failed")) else .ok (),
    { s with shutdowns := s.shutdowns + 1 })

end TaskScript

/-- What happens between two readings of the clock. -/
structure Interval where
  nanos : Nat := 0
  acts : List ClientAct := []
  stop : Bool := false
  deriving DecidableEq

structure World (ρ : Type) where
  clock : VirtualClock := {}
  bench : Bench
  loops : List (ControlLoop ρ) := []
  scripts : List TaskScript := []
  /-- What happens before each of the next readings; nothing before later ones. -/
  ahead : List Interval := []

namespace World

variable {ρ : Type}

def pass (w : World ρ) (i : Interval) : World ρ :=
  let clock := if i.nanos = 0 then w.clock else w.clock.work i.nanos
  { w with
    clock := if i.stop then clock.stop else clock
    bench := i.acts.foldl Bench.undergo w.bench }

def read (w : World ρ) : Nat × World ρ :=
  match w.ahead with
  | [] => (w.clock.now, w)
  | i :: ahead =>
    let w := { w with ahead }.pass i
    (w.clock.now, w)

@[simp] theorem now_pass (w : World ρ) (i : Interval) :
    (w.pass i).clock.now = w.clock.now + i.nanos := by
  by_cases h : i.nanos = 0 <;> cases hs : i.stop <;>
    simp [pass, h, hs, VirtualClock.work, VirtualClock.stop]

theorem now_le_read (w : World ρ) : w.clock.now ≤ w.read.1 := by
  unfold read; split <;> simp

instance : Clock (World ρ) where
  read := read
  sleepUntil target w := { w with clock := w.clock.sleepUntil target }
  stopping w := w.clock.stopping
  le_read_sleepUntil target w :=
    Nat.le_trans (VirtualClock.le_now_sleepUntil target w.clock)
      (now_le_read { w with clock := w.clock.sleepUntil target })

def scriptJob (n : Nat) : Job (World ρ) where
  run w :=
    match w.scripts[n]? with
    | none => (.done, w)
    | some s =>
      let (result, s, clock) := s.run w.clock
      (result, { w with clock, scripts := w.scripts.set n s })
  shutdown w :=
    match w.scripts[n]? with
    | none => (.ok (), w)
    | some s =>
      let (result, s) := s.shutdown
      (result, { w with scripts := w.scripts.set n s })

def linkJob : Job (World ρ) where
  run w := (.done, { w with bench := (w.bench.onTransport Transport.run).2 })

variable [Rig ρ]

def controlJob (n : Nat) : Job (World ρ) where
  run w :=
    match w.loops[n]? with
    | none => (.done, w)
    | some c =>
      let (result, c, bench) := w.bench.tick c
      let w := { w with bench, loops := w.loops.set n c }
      match result with
      | .ok _ => (.done, w)
      | .error e => (.failed e, w)
  shutdown w :=
    match w.loops[n]? with
    | none => (.ok (), w)
    | some c =>
      let (result, c) := c.shutdown
      (result, { w with loops := w.loops.set n c })

/-- Make a control loop ready and give it to the world, with its place there. -/
def addLoop (w : World ρ) (c : ControlLoop ρ) : Except BenchError Nat × World ρ :=
  let (result, c, transport) := c.init w.bench.transport
  let w := { w with bench := { w.bench with transport } }
  match result with
  | .ok _ => (.ok w.loops.length, { w with loops := w.loops ++ [c] })
  | .error e => (.error e, w)

def addScript (w : World ρ) (s : TaskScript) : Nat × World ρ :=
  (w.scripts.length, { w with scripts := w.scripts ++ [s] })

end World
end RigBench
