/-!
A monotonic clock with a flag that asks for a stop. Readings and sleeps happen in a world `ω`; a
reading may move it too, as time does.
-/
namespace RigBench

class Clock (ω : Type) where
  read : ω → Nat × ω
  /-- Sleep to an absolute reading, through any interruption. -/
  sleepUntil : Nat → ω → ω
  stopping : ω → Bool
  le_read_sleepUntil (target : Nat) (w : ω) : target ≤ (read (sleepUntil target w)).1

namespace Clock

variable {ω : Type} [Clock ω]

/-- Readings stay below this many nanoseconds. -/
def horizon : Nat := 9223372036854775808 * 1000000000

/-- The longest single sleep, so that a stop is noticed soon. -/
def slice : Nat := 50000000

/-- Sleep to a reading in slices. The flag says whether it was reached before a stop was seen. -/
def sleepTo (target : Nat) (w : ω) : Bool × ω :=
  if stopping w then (false, w)
  else if target ≤ (read w).1 then (true, (read w).2)
  else sleepTo target (sleepUntil (min target ((read w).1 + slice)) (read w).2)
termination_by target - (read w).1
decreasing_by
  have h := le_read_sleepUntil (min target ((read w).1 + slice)) (read w).2
  have : 0 < slice := by decide
  omega

/-- Wait for a deadline. A deadline that has passed only looks for a stop. -/
def waitFor (deadline : Nat) (w : ω) : Bool × ω :=
  let (now, w) := read w
  if deadline ≤ now then (!stopping w, w)
  else
    let (now', w) := read w
    sleepTo (now' + (deadline - now)) w

end Clock
end RigBench
