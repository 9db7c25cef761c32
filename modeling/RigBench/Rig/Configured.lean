import RigBench.Config
import RigBench.Rig.Simulated

/-!
The rig that a configuration selects.
-/
namespace RigBench

inductive ConfiguredRig
  | null (rig : NullRig)
  | simulated (rig : SimulatedRig)
  deriving DecidableEq

namespace ConfiguredRig

def ofConfig (c : RigConfig) : ConfiguredRig :=
  match c.kind with
  | .none => null {}
  | .simulated => simulated { timeConstant := c.timeConstant }

def call {α : Type} (r : ConfiguredRig) (onNull : NullRig → RigCall NullRig α)
    (onSimulated : SimulatedRig → RigCall SimulatedRig α) : RigCall ConfiguredRig α :=
  match r with
  | null rig => let (x, rig) := onNull rig; (x, null rig)
  | simulated rig => let (x, rig) := onSimulated rig; (x, simulated rig)

instance : Rig ConfiguredRig where
  name
    | null rig => Rig.name rig
    | simulated rig => Rig.name rig
  init r := r.call Rig.init Rig.init
  apply r setpoint dt := r.call (Rig.apply · setpoint dt) (Rig.apply · setpoint dt)
  measure r := r.call Rig.measure Rig.measure
  safeState r := r.call Rig.safeState Rig.safeState
  shutdown r := r.call Rig.shutdown Rig.shutdown

end ConfiguredRig
end RigBench
