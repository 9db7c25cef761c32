import RigBench.Json.Value
import RigBench.Lifecycle
import RigBench.Ramp

/-!
Ramps and states as JSON. A ramp is an object of its four fields or the list of their values; an
object may hold other keys, but none of the four twice.
-/
namespace RigBench

open Json

def Json.Value.asTime? : Value → Option UInt64
  | .number n => n.asUInt64?
  | _ => none

def Json.Value.asDouble? : Value → Option Binary64
  | .number n => n.asBinary64?
  | _ => none

/-- The one member of a key; none or several give nothing. -/
def Json.uniqueMember? (members : List (Option String × Value)) (key : String) : Option Value :=
  match members.filter fun m => m.1 == some key with
  | [m] => some m.2
  | _ => none

/-- The ramp of a JSON value. Its window and values are taken as they are. -/
def Ramp.ofJson? : Value → Option (Ramp Binary64)
  | .array [a, b, c, d] => do
    return ⟨← a.asTime?, ← b.asTime?, ← c.asDouble?, ← d.asDouble?⟩
  | .object members =>
    if members.all fun m => m.1.isSome then do
      let startTime ← (← uniqueMember? members "start_time").asTime?
      let endTime ← (← uniqueMember? members "end_time").asTime?
      let startValue ← (← uniqueMember? members "start_value").asDouble?
      let endValue ← (← uniqueMember? members "end_value").asDouble?
      return ⟨startTime, endTime, startValue, endValue⟩
    else none
  | _ => none

/-- The state of a JSON value: its name, or an object with that name for its only key and nothing
under it. -/
def ExperimentState.ofJson? : Value → Option ExperimentState
  | .string (some s) => ofName? s
  | .object [(some s, .null)] => ofName? s
  | _ => none

end RigBench
