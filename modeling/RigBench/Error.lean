import RigBench.Decimal.Layout

/-!
What can go wrong on the bench. An error is its cause; `BenchError.message` is the only place
that puts one into words.
-/
namespace RigBench

inductive ConfigFault
  | mustBeNonZero (field : String)
  | zeroPeriod (task : String)
  | duplicateTask (task : String)
  | noTasks
  | other (text : String)
  deriving DecidableEq

inductive FrameFault
  | idOutOfRange (id : UInt8)
  | payloadTooLong (length : Nat)
  | idOnStream (id : UInt8)
  | desynchronised
  | emptyExperimentCommand
  | shortTrajectory (length : Nat)
  | notASample (id : UInt8) (length : Nat)
  | other (text : String)
  deriving DecidableEq

inductive TrajectoryFault
  | reversedWindow (startTime endTime : UInt64)
  | nonFinite (startValue endValue : Binary64)
  | negativeTime (millis : Int16)
  | other (text : String)
  deriving DecidableEq

inductive IoFault
  | rigNotInitialized
  | bindFailed (address reason : String)
  | other (text : String)
  deriving DecidableEq

inductive BenchError
  | config (fault : ConfigFault)
  | frame (fault : FrameFault)
  | trajectory (fault : TrajectoryFault)
  /-- A step the experiment's life cycle does not have, by the names of its two states. -/
  | transition (source target : String)
  | io (fault : IoFault)
  | taskFailed (task : String) (cause : BenchError)
  /-- A scheduled task ran longer than its period, both in whole microseconds. -/
  | taskOverran (task : String) (execution period : Nat)
  | taskFault (task reason : String)
  | shutdown
  deriving DecidableEq

namespace ConfigFault

def message : ConfigFault → String
  | mustBeNonZero field => field ++ " must be non-zero"
  | zeroPeriod task => "task '" ++ task ++ "' has a zero period"
  | duplicateTask task => "task '" ++ task ++ "' already registered"
  | noTasks => "no tasks registered"
  | other text => text

end ConfigFault

namespace FrameFault

def message : FrameFault → String
  | idOutOfRange id => "frame id " ++ toString id.toNat ++ " out of range (max 63)"
  | payloadTooLong length => "payload of " ++ toString length ++ " bytes exceeds 255"
  | idOnStream id => "invalid frame id " ++ toString id.toNat ++ " on stream"
  | desynchronised => "stream desynchronised"
  | emptyExperimentCommand => "empty experiment command"
  | shortTrajectory length => "trajectory payload too short: " ++ toString length ++ " bytes"
  | notASample id length =>
    "not a bench data frame: id " ++ toString id.toNat ++ " with " ++ toString length ++ " bytes"
  | other text => text

end FrameFault

namespace TrajectoryFault

def message : TrajectoryFault → String
  | reversedWindow startTime endTime =>
    "end time " ++ toString endTime.toNat ++ "ms precedes start time " ++
      toString startTime.toNat ++ "ms"
  | nonFinite startValue endValue =>
    "non-finite boundary values (" ++ Decimal.render Decimal.plain startValue ++ ", " ++
      Decimal.render Decimal.plain endValue ++ ")"
  | negativeTime millis => "negative ramp time " ++ toString millis.toInt ++ " ms"
  | other text => text

end TrajectoryFault

namespace IoFault

def message : IoFault → String
  | rigNotInitialized => "simulated rig not initialized"
  | bindFailed address reason => "failed to bind " ++ address ++ ": " ++ reason
  | other text => text

end IoFault

namespace BenchError

def message : BenchError → String
  | config fault => "configuration error: " ++ fault.message
  | frame fault => "frame error: " ++ fault.message
  | trajectory fault => "invalid trajectory: " ++ fault.message
  | transition source target => "invalid state transition from " ++ source ++ " to " ++ target
  | io fault => "I/O error: " ++ fault.message
  | taskFailed task cause => "task '" ++ task ++ "' faulted: " ++ cause.message
  | taskOverran task execution period =>
    "task '" ++ task ++ "' faulted: execution took " ++ toString execution ++ "us, period is " ++
      toString period ++ "us"
  | taskFault task reason => "task '" ++ task ++ "' faulted: " ++ reason
  | shutdown => "shut down"

end BenchError
end RigBench
