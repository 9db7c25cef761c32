import RigBench.Frame

/-!
What the bench tells a client once per running tick: frame 10 with a `u32` time in milliseconds
and four `f64` values, all big-endian.
-/
namespace RigBench

structure BenchSample where
  /-- Milliseconds of experiment time, modulo `2 ^ 32`. -/
  time : UInt32
  setpoint : Binary64
  measurement : Binary64
  startValue : Binary64
  endValue : Binary64
  deriving DecidableEq

namespace BenchSample

def frameId : UInt8 := 10

def size : Nat := 36

def encode (s : BenchSample) : Bytes :=
  Bytes.ofNat 4 s.time.toNat ++ Bytes.ofNat 8 s.setpoint.bits.toNat ++
    Bytes.ofNat 8 s.measurement.bits.toNat ++ Bytes.ofNat 8 s.startValue.bits.toNat ++
    Bytes.ofNat 8 s.endValue.bits.toNat

@[simp] theorem length_encode (s : BenchSample) : s.encode.length = size := by
  simp [encode, size]

def toFrame (s : BenchSample) : Frame :=
  { id := frameId, payload := s.encode, length_le := by simp [size] }

/-- Read a sample; bytes after the first 36 do not count. -/
def ofFrame (f : Frame) : Except BenchError BenchSample :=
  if f.id ≠ frameId ∨ f.payload.length < size then
    .error (.frame (.notASample f.id f.payload.length))
  else
    let field := fun start width => Bytes.toNat ((f.payload.drop start).take width)
    .ok
      { time := .ofNat (field 0 4)
        setpoint := ⟨.ofNat (field 4 8)⟩
        measurement := ⟨.ofNat (field 12 8)⟩
        startValue := ⟨.ofNat (field 20 8)⟩
        endValue := ⟨.ofNat (field 28 8)⟩ }

end BenchSample
end RigBench
