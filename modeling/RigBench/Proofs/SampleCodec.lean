import RigBench.Sample

/-!
A sample survives its trip over the wire: what a client reads from the frame of a sample is that
sample, bit for bit.
-/
namespace RigBench

namespace Bytes

theorem toNat_ofNat_uint32 (x : UInt32) : UInt32.ofNat (toNat (ofNat 4 x.toNat)) = x := by
  rw [toNat_ofNat]
  have hlt : x.toNat < Nat.pow 256 4 := x.toNat_lt
  rw [Nat.mod_eq_of_lt hlt, UInt32.ofNat_toNat]

theorem toNat_ofNat_uint64 (x : UInt64) : UInt64.ofNat (toNat (ofNat 8 x.toNat)) = x := by
  rw [toNat_ofNat]
  have hlt : x.toNat < Nat.pow 256 8 := x.toNat_lt
  rw [Nat.mod_eq_of_lt hlt, UInt64.ofNat_toNat]

end Bytes

namespace BenchSample

theorem field_encode (x : BenchSample) :
    x.encode.take 4 = Bytes.ofNat 4 x.time.toNat ∧
    (x.encode.drop 4).take 8 = Bytes.ofNat 8 x.setpoint.bits.toNat ∧
    (x.encode.drop 12).take 8 = Bytes.ofNat 8 x.measurement.bits.toNat ∧
    (x.encode.drop 20).take 8 = Bytes.ofNat 8 x.startValue.bits.toNat ∧
    (x.encode.drop 28).take 8 = Bytes.ofNat 8 x.endValue.bits.toNat := by
  refine ⟨?_, ?_, ?_, ?_, ?_⟩ <;>
    simp [encode, List.drop_append, List.drop_eq_nil_of_le,
      List.take_of_length_le]

@[simp] theorem ofFrame_toFrame (x : BenchSample) : ofFrame x.toFrame = .ok x := by
  obtain ⟨htime, hsetpoint, hmeasurement, hstart, hend⟩ := field_encode x
  have hfits : ¬(x.toFrame.id ≠ frameId ∨ x.toFrame.payload.length < size) := by
    simp [toFrame]
  rw [ofFrame, if_neg hfits]
  simp only [toFrame, List.drop_zero, htime, hsetpoint, hmeasurement, hstart, hend,
    Bytes.toNat_ofNat_uint32, Bytes.toNat_ofNat_uint64]

end BenchSample
end RigBench
