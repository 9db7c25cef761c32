import RigBench.Clock

/-!
A clock that moves only by sleeping and working, to rehearse schedules on. Reading it costs
nothing, and an interrupted sleep goes on at once.
-/
namespace RigBench

structure VirtualClock where
  now : Nat := 0
  stopping : Bool := false
  /-- A stop is asked for when the clock is next moved to this reading or past it. -/
  stopAt : Option Nat := none
  /-- How much later than asked the next sleeps end. -/
  late : List Nat := []
  deriving DecidableEq, Inhabited

namespace VirtualClock

def moveTo (c : VirtualClock) (now : Nat) : VirtualClock :=
  match c.stopAt with
  | some at_ =>
    if at_ ≤ now then { c with now, stopping := true, stopAt := none } else { c with now }
  | none => { c with now }

def work (c : VirtualClock) (nanos : Nat) : VirtualClock := c.moveTo (c.now + nanos)

def sleepUntil (target : Nat) (c : VirtualClock) : VirtualClock :=
  match c.late with
  | [] => c.moveTo (max c.now target)
  | d :: rest => { c with late := rest }.moveTo (max c.now (target + d))

def stop (c : VirtualClock) : VirtualClock := { c with stopping := true }
def resume (c : VirtualClock) : VirtualClock := { c with stopping := false }
def stopFrom (c : VirtualClock) (reading : Nat) : VirtualClock := { c with stopAt := some reading }
def delay (c : VirtualClock) (lates : List Nat) : VirtualClock := { c with late := c.late ++ lates }

@[simp] theorem now_moveTo (c : VirtualClock) (now : Nat) : (c.moveTo now).now = now := by
  unfold moveTo; split
  · split <;> rfl
  · rfl

theorem le_now_sleepUntil (target : Nat) (c : VirtualClock) :
    target ≤ (c.sleepUntil target).now := by
  unfold sleepUntil; split <;> simp only [now_moveTo] <;> omega

instance : Clock VirtualClock where
  read c := (c.now, c)
  sleepUntil := sleepUntil
  stopping := VirtualClock.stopping
  le_read_sleepUntil := le_now_sleepUntil

end VirtualClock
end RigBench
