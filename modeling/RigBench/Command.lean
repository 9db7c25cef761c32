import RigBench.Frame
import RigBench.Ramp

/-!
What a client says. Numbers in payloads are big-endian.

| id | payload |
|----|---------|
| 1  | one byte: 0 stops the experiment, anything else starts it |
| 2  | nothing: the client is still there |
| 12 | a ramp: `f64` start value, `f32` end value, `i16` start time, `i16` end time in ms |
-/
namespace RigBench

/-- A ramp as it travels: the end value in single precision, the times signed milliseconds. -/
structure TrajectoryParams where
  startValue : Binary64
  endValue : Binary32
  startTime : Int16
  endTime : Int16
  deriving DecidableEq

inductive Command
  | start
  | stop
  | keepalive
  | trajectory (params : TrajectoryParams)
  deriving DecidableEq

namespace TrajectoryParams

def size : Nat := 16

def encode (p : TrajectoryParams) : Bytes :=
  Bytes.ofNat 8 p.startValue.bits.toNat ++ Bytes.ofNat 4 p.endValue.bits.toNat ++
    Bytes.ofNat 2 p.startTime.toUInt16.toNat ++ Bytes.ofNat 2 p.endTime.toUInt16.toNat

@[simp] theorem length_encode (p : TrajectoryParams) : p.encode.length = size := by
  simp [encode, size]

/-- Read the first 16 bytes of a payload. -/
def decode (payload : Bytes) : Except BenchError TrajectoryParams :=
  if payload.length < size then .error (.frame (.shortTrajectory payload.length))
  else
    let field := fun start width => Bytes.toNat ((payload.drop start).take width)
    .ok
      { startValue := ⟨.ofNat (field 0 8)⟩
        endValue := ⟨.ofNat (field 8 4)⟩
        startTime := (UInt16.ofNat (field 12 2)).toInt16
        endTime := (UInt16.ofNat (field 14 2)).toInt16 }

def timeOf (millis : Int16) : Except BenchError UInt64 :=
  if millis < 0 then .error (.trajectory (.negativeTime millis))
  else .ok (.ofNat millis.toInt.toNat)

def toRamp (p : TrajectoryParams) : Except BenchError (Ramp Binary64) := do
  let startTime ← timeOf p.startTime
  let endTime ← timeOf p.endTime
  Ramp.make startTime endTime p.startValue p.endValue.widen

end TrajectoryParams

namespace Command

def experimentId : UInt8 := 1
def keepaliveId : UInt8 := 2
def trajectoryId : UInt8 := 12

/-- Read a frame; other identifiers mean nothing here. -/
def decode (f : Frame) : Except BenchError (Option Command) :=
  if f.id = experimentId then
    match f.payload with
    | [] => .error (.frame .emptyExperimentCommand)
    | flag :: _ => .ok (some (if flag = 0 then stop else start))
  else if f.id = keepaliveId then .ok (some keepalive)
  else if f.id = trajectoryId then (TrajectoryParams.decode f.payload).map (some <| .trajectory ·)
  else .ok none

def toFrame : Command → Frame
  | start => { id := experimentId, payload := [1] }
  | stop => { id := experimentId, payload := [0] }
  | keepalive => { id := keepaliveId, payload := [] }
  | trajectory p =>
    { id := trajectoryId, payload := p.encode, length_le := by simp [TrajectoryParams.size] }

end Command
end RigBench
