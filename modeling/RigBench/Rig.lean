import RigBench.Duration
import RigBench.Error

/-!
A rig takes a set-point on every tick and reports what it measures. The control loop knows no more
about it than this; a call that fails may still have changed the rig.
-/
namespace RigBench

/-- Result and rig after a call. -/
abbrev RigCall (ρ α : Type) := Except BenchError α × ρ

class Rig (ρ : Type) where
  name : ρ → String
  init : ρ → RigCall ρ Unit
  /-- Drive the rig towards a set-point for a length of experiment time. -/
  apply : ρ → Binary64 → Duration → RigCall ρ Unit
  measure : ρ → RigCall ρ Binary64
  /-- Bring the rig to rest. -/
  safeState : ρ → RigCall ρ Unit := fun r => (.ok (), r)
  shutdown : ρ → RigCall ρ Unit

/-- No hardware: the measured value is the last set-point. -/
structure NullRig where
  last : Binary64 := .zero
  deriving DecidableEq, Inhabited

instance : Rig NullRig where
  name _ := "none"
  init r := (.ok (), { r with last := .zero })
  apply r setpoint _ := (.ok (), { r with last := setpoint })
  measure r := (.ok r.last, r)
  safeState r := (.ok (), { r with last := .zero })
  shutdown r := (.ok (), r)

end RigBench
