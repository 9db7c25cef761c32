import RigBench.Rig

/-!
A plant with first-order lag: over a time `dt` the value closes the part `1 - exp (-dt / tau)` of
its distance to the set-point.
-/
namespace RigBench

def Duration.toSeconds (d : Duration) : Binary64 :=
  .ofNat d.seconds + .ofNat d.subsecNanos / .ofNat nanosPerSecond

structure SimulatedRig where
  timeConstant : Duration
  value : Binary64 := .zero
  ready : Bool := false
  deriving DecidableEq

namespace SimulatedRig

/-- The part of its distance that the value closes. -/
def gain (timeConstant dt : Duration) : Binary64 :=
  .one - (-dt.toSeconds / timeConstant.toSeconds).exp

def respond (r : SimulatedRig) (setpoint : Binary64) (dt : Duration) : Binary64 :=
  r.value + (setpoint - r.value) * gain r.timeConstant dt

instance : Rig SimulatedRig where
  name _ := "simulated"
  init r :=
    if r.timeConstant.isZero then (.error (.config (.mustBeNonZero "rig.time_constant")), r)
    else (.ok (), { r with value := .zero, ready := true })
  apply r setpoint dt :=
    if r.ready then (.ok (), { r with value := r.respond setpoint dt })
    else (.error (.io .rigNotInitialized), r)
  measure r := (.ok r.value, r)
  safeState r := (.ok (), { r with value := .zero })
  shutdown r := (.ok (), { r with ready := false })

end SimulatedRig
end RigBench
