import RigBench.Proofs.DrivenTime
import RigBench.Proofs.HomingRig
import RigBench.Proofs.TransportInvariant
import RigBench.Rehearsal.ScriptedRig

/-!
What a rig that fails leaves behind. A tick makes its calls one after the other and ends with the
first that fails: before the sample is queued, or when the transport has been reset.
-/
namespace RigBench

structure CallLog where
  calls : List RigNote := []
  deriving DecidableEq

namespace CallLog

instance : RigObserver CallLog where
  note l note := { calls := l.calls ++ [note] }

end CallLog

abbrev Recorded (ρ : Type) := ObservedRig CallLog ρ

namespace ControlLoop

variable {ρ : Type}

variable [Rig ρ]

end ControlLoop

namespace Transport

variable {t t' : Transport} {step : Duration} {notes : List RigNote}

namespace SampleCourse

variable {result : Except BenchError Unit}

end SampleCourse

namespace TickCourse

variable {result : Except BenchError TickOutcome}

end TickCourse
end Transport

end RigBench
