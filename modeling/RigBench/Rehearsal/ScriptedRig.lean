import RigBench.Rig.Configured

/-!
Rigs that fail on cue, to rehearse what a bench does then.
-/
namespace RigBench

/-- The calls of a rig that fail: some always, some at their nth call. -/
structure RigScript where
  init : Bool := false
  safeState : Bool := false
  shutdown : Bool := false
  apply : Option Nat := none
  measure : Option Nat := none
  deriving DecidableEq

/-- A rig whose measured value is the last set-point, also after a rest. -/
structure ScriptedRig where
  name : String
  script : RigScript
  last : Binary64 := .zero
  applies : Nat := 0
  measures : Nat := 0
  deriving DecidableEq

namespace ScriptedRig

def outcome {α : Type} (fails : Bool) (call : String) (a : α) : Except BenchError α :=
  if fails then .error (.io (.other ("rig " ++ call ++ " failed"))) else .ok a

instance : Rig ScriptedRig where
  name := ScriptedRig.name
  init r := (outcome r.script.init "init" (), r)
  apply r setpoint _ :=
    let fails := r.script.apply == some (r.applies + 1)
    (outcome fails "apply" (),
      { r with applies := r.applies + 1, last := if fails then r.last else setpoint })
  measure r :=
    (outcome (r.script.measure == some (r.measures + 1)) "measure" r.last,
      { r with measures := r.measures + 1 })
  safeState r := (outcome r.script.safeState "safe_state" (), r)
  shutdown r := (outcome r.script.shutdown "shutdown" (), r)

end ScriptedRig

inductive TrialRig
  | configured (rig : ConfiguredRig)
  | scripted (rig : ScriptedRig)
  deriving DecidableEq

namespace TrialRig

def call {α : Type} (r : TrialRig) (onConfigured : ConfiguredRig → RigCall ConfiguredRig α)
    (onScripted : ScriptedRig → RigCall ScriptedRig α) : RigCall TrialRig α :=
  match r with
  | configured rig => let (x, rig) := onConfigured rig; (x, configured rig)
  | scripted rig => let (x, rig) := onScripted rig; (x, scripted rig)

instance : Rig TrialRig where
  name
    | configured rig => Rig.name rig
    | scripted rig => Rig.name rig
  init r := r.call Rig.init Rig.init
  apply r setpoint dt := r.call (Rig.apply · setpoint dt) (Rig.apply · setpoint dt)
  measure r := r.call Rig.measure Rig.measure
  safeState r := r.call Rig.safeState Rig.safeState
  shutdown r := r.call Rig.shutdown Rig.shutdown

end TrialRig
end RigBench
