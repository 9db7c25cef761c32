import RigBench.Duration

/-!
Time on the experiment's own clock. It starts at zero with the experiment and moves by a fixed
step on every running tick, whatever the wall clock does.
-/
namespace RigBench

/-- Milliseconds since the experiment started. -/
structure ExperimentTime where
  millis : UInt64
  deriving DecidableEq, Inhabited

namespace ExperimentTime

def zero : ExperimentTime := ⟨0⟩

/-- The greatest time the clock can show; it stays there. -/
def last : Nat := 18446744073709551615

/-- The time as frames carry it: the low 32 bits. -/
def wireMillis (t : ExperimentTime) : UInt32 := t.millis.toUInt32

def advance (t : ExperimentTime) (step : Duration) : ExperimentTime :=
  ⟨.ofNat (min (t.millis.toNat + step.millis) last)⟩

def display (t : ExperimentTime) : String := toString t.millis.toNat ++ "ms"

theorem toNat_advance (t : ExperimentTime) (step : Duration) :
    (t.advance step).millis.toNat = min (t.millis.toNat + step.millis) last := by
  have : min (t.millis.toNat + step.millis) last < 2 ^ 64 := by
    have := Nat.min_le_right (t.millis.toNat + step.millis) last
    simp only [last] at *; omega
  simpa [advance] using this

theorem toNat_wireMillis (t : ExperimentTime) :
    t.wireMillis.toNat = t.millis.toNat % 4294967296 := by
  simp [wireMillis]

end ExperimentTime
end RigBench
