import Mathlib.Data.List.Induction
import RigBench.Command
import RigBench.Proofs.SampleCodec

/-!
Payloads of commands and samples are read back as they were written, and what is read from any
frame is what its bytes say: written again it gives those bytes, up to the end of the layout.
-/
namespace RigBench

namespace Bytes

theorem toNat_lt (bs : Bytes) : toNat bs < Nat.pow 256 bs.length := by
  induction bs using List.reverseRecOn with
  | nil => exact Nat.one_pos
  | append_singleton bs b ih =>
    have hb := b.toNat_lt
    rw [toNat_append_singleton, List.length_append, List.length_singleton]
    rw [show Nat.pow 256 (bs.length + 1) = Nat.pow 256 bs.length * 256 from rfl]
    omega

theorem ofNat_toNat (bs : Bytes) : ofNat bs.length (toNat bs) = bs := by
  induction bs using List.reverseRecOn with
  | nil => rfl
  | append_singleton bs b ih =>
    have hb := b.toNat_lt
    have hquot : (toNat bs * 256 + b.toNat) / 256 = toNat bs := by omega
    have hbyte : UInt8.ofNat (toNat bs * 256 + b.toNat) = b := by
      refine UInt8.toNat_inj.mp ?_
      rw [UInt8.toNat_ofNat']
      omega
    rw [toNat_append_singleton, List.length_append, List.length_singleton, ofNat, hquot, ih, hbyte]

theorem toNat_ofNat_uint16 (x : UInt16) : UInt16.ofNat (toNat (ofNat 2 x.toNat)) = x := by
  rw [toNat_ofNat]
  have hlt : x.toNat < Nat.pow 256 2 := x.toNat_lt
  rw [Nat.mod_eq_of_lt hlt, UInt16.ofNat_toNat]

theorem ofNat_uint16 {bs : Bytes} (h : bs.length = 2) :
    ofNat 2 (UInt16.ofNat (toNat bs)).toNat = bs := by
  have hlt := bs.toNat_lt
  rw [h] at hlt
  rw [UInt16.toNat_ofNat_of_lt' hlt, ← h, ofNat_toNat]

theorem ofNat_uint32 {bs : Bytes} (h : bs.length = 4) :
    ofNat 4 (UInt32.ofNat (toNat bs)).toNat = bs := by
  have hlt := bs.toNat_lt
  rw [h] at hlt
  rw [UInt32.toNat_ofNat_of_lt' hlt, ← h, ofNat_toNat]

theorem ofNat_uint64 {bs : Bytes} (h : bs.length = 8) :
    ofNat 8 (UInt64.ofNat (toNat bs)).toNat = bs := by
  have hlt := bs.toNat_lt
  rw [h] at hlt
  rw [UInt64.toNat_ofNat_of_lt' hlt, ← h, ofNat_toNat]

theorem length_field {bs : Bytes} {start width : Nat} (h : start + width ≤ bs.length) :
    ((bs.drop start).take width).length = width := by
  rw [List.length_take, List.length_drop]
  omega

theorem take_append_field (bs : Bytes) (start width : Nat) :
    bs.take start ++ (bs.drop start).take width = bs.take (start + width) :=
  List.take_add.symm

end Bytes

namespace TrajectoryParams

theorem field_encode (p : TrajectoryParams) :
    p.encode.take 8 = Bytes.ofNat 8 p.startValue.bits.toNat ∧
    (p.encode.drop 8).take 4 = Bytes.ofNat 4 p.endValue.bits.toNat ∧
    (p.encode.drop 12).take 2 = Bytes.ofNat 2 p.startTime.toUInt16.toNat ∧
    (p.encode.drop 14).take 2 = Bytes.ofNat 2 p.endTime.toUInt16.toNat := by
  refine ⟨?_, ?_, ?_, ?_⟩ <;>
    simp [encode, List.drop_append, List.drop_eq_nil_of_le, List.take_of_length_le]

theorem decode_encode (p : TrajectoryParams) : decode p.encode = .ok p := by
  obtain ⟨hstart, hend, hfrom, hto⟩ := p.field_encode
  have hfits : ¬p.encode.length < size := by simp
  rw [decode, if_neg hfits]
  simp only [List.drop_zero, hstart, hend, hfrom, hto, Bytes.toNat_ofNat_uint16,
    Bytes.toNat_ofNat_uint32, Bytes.toNat_ofNat_uint64, Int16.toInt16_toUInt16]

theorem encode_of_decode {payload : Bytes} {p : TrajectoryParams} (h : decode payload = .ok p) :
    p.encode = payload.take size := by
  unfold decode at h
  split at h
  · cases h
  · next hlong =>
    have hsize : size ≤ payload.length := Nat.le_of_not_lt hlong
    unfold size at hsize ⊢
    cases h
    simp only [encode, UInt16.toUInt16_toInt16]
    rw [Bytes.ofNat_uint64 (Bytes.length_field (by omega)),
      Bytes.ofNat_uint32 (Bytes.length_field (by omega)),
      Bytes.ofNat_uint16 (Bytes.length_field (by omega)),
      Bytes.ofNat_uint16 (Bytes.length_field (by omega)), List.drop_zero,
      Bytes.take_append_field, Bytes.take_append_field, Bytes.take_append_field]

end TrajectoryParams

namespace Command

/-- What a frame is read as. -/
inductive Reading (f : Frame) : Except BenchError (Option Command) → Prop
  | empty (hid : f.id = experimentId) (hpayload : f.payload = []) :
    Reading f (.error (.frame .emptyExperimentCommand))
  | stop (hid : f.id = experimentId) (hpayload : f.payload ≠ []) : Reading f (.ok (some stop))
  | start (hid : f.id = experimentId) (hpayload : f.payload ≠ []) : Reading f (.ok (some start))
  | keepalive (hid : f.id = keepaliveId) : Reading f (.ok (some keepalive))
  | short (hid : f.id = trajectoryId) (hshort : f.payload.length < TrajectoryParams.size) :
    Reading f (.error (.frame (.shortTrajectory f.payload.length)))
  | trajectory (hid : f.id = trajectoryId) (hlong : TrajectoryParams.size ≤ f.payload.length)
    (p : TrajectoryParams) (hp : TrajectoryParams.decode f.payload = .ok p) :
    Reading f (.ok (some (.trajectory p)))
  | other (hexperiment : f.id ≠ experimentId) (hkeepalive : f.id ≠ keepaliveId)
    (htrajectory : f.id ≠ trajectoryId) : Reading f (.ok none)

theorem reading_decode (f : Frame) : Reading f (decode f) := by
  unfold decode
  split
  · next hid =>
    cases hpayload : f.payload with
    | nil => exact .empty hid hpayload
    | cons flag rest =>
      have hne : f.payload ≠ [] := by simp [hpayload]
      by_cases hflag : flag = 0
      · simpa only [if_pos hflag] using .stop hid hne
      · simpa only [if_neg hflag] using .start hid hne
  · next hexperiment =>
    split
    · next hid => exact .keepalive hid
    · next hkeepalive =>
      split
      · next hid =>
        by_cases hshort : f.payload.length < TrajectoryParams.size
        · rw [TrajectoryParams.decode, if_pos hshort]
          exact .short hid hshort
        · obtain ⟨p, hp⟩ : ∃ p, TrajectoryParams.decode f.payload = .ok p :=
            ⟨_, if_neg hshort⟩
          rw [hp]
          exact .trajectory hid (Nat.le_of_not_lt hshort) p hp
      · next htrajectory => exact .other hexperiment hkeepalive htrajectory

theorem decode_toFrame (c : Command) : decode c.toFrame = .ok (some c) := by
  cases c with
  | start => rfl
  | stop => rfl
  | keepalive => rfl
  | trajectory p =>
    have hread : decode (trajectory p).toFrame =
        (TrajectoryParams.decode p.encode).map (some <| .trajectory ·) := rfl
    rw [hread, p.decode_encode]
    rfl

theorem exists_decode_error_iff (f : Frame) :
    (∃ e, decode f = .error e) ↔
      f.id = experimentId ∧ f.payload = [] ∨
        f.id = trajectoryId ∧ f.payload.length < TrajectoryParams.size := by
  have hr := reading_decode f
  generalize decode f = r at hr ⊢
  cases hr with
  | empty hid hpayload => exact iff_of_true ⟨_, rfl⟩ (.inl ⟨hid, hpayload⟩)
  | stop hid hpayload => simp [hid, hpayload, experimentId, trajectoryId]
  | start hid hpayload => simp [hid, hpayload, experimentId, trajectoryId]
  | keepalive hid => simp [hid, experimentId, keepaliveId, trajectoryId]
  | short hid hshort => exact iff_of_true ⟨_, rfl⟩ (.inr ⟨hid, hshort⟩)
  | trajectory hid hlong p hp => simp [hid, hlong, experimentId, trajectoryId]
  | other hexperiment _ htrajectory => simp [hexperiment, htrajectory]

theorem decode_eq_none_iff (f : Frame) :
    decode f = .ok none ↔ f.id ≠ experimentId ∧ f.id ≠ keepaliveId ∧ f.id ≠ trajectoryId := by
  have hr := reading_decode f
  generalize decode f = r at hr ⊢
  cases hr with
  | empty hid => simp [hid]
  | stop hid => simp [hid]
  | start hid => simp [hid]
  | keepalive hid => simp [hid]
  | short hid => simp [hid]
  | trajectory hid => simp [hid]
  | other hexperiment hkeepalive htrajectory =>
    exact iff_of_true rfl ⟨hexperiment, hkeepalive, htrajectory⟩

theorem toFrame_of_decode {f : Frame} {c : Command} (h : decode f = .ok (some c)) :
    c.toFrame.id = f.id ∧
      (f.id = trajectoryId → c.toFrame.payload = f.payload.take TrajectoryParams.size) := by
  have hr := reading_decode f
  rw [h] at hr
  cases hr with
  | stop hid => exact ⟨hid.symm, fun hid' => absurd (hid.symm.trans hid') (by decide)⟩
  | start hid => exact ⟨hid.symm, fun hid' => absurd (hid.symm.trans hid') (by decide)⟩
  | keepalive hid => exact ⟨hid.symm, fun hid' => absurd (hid.symm.trans hid') (by decide)⟩
  | trajectory hid _ p hp =>
    exact ⟨hid.symm, fun _ => TrajectoryParams.encode_of_decode hp⟩

end Command

namespace BenchSample

theorem exists_ofFrame_iff (f : Frame) :
    (∃ x, ofFrame f = .ok x) ↔ f.id = frameId ∧ size ≤ f.payload.length := by
  unfold ofFrame
  split
  · next hbad =>
    refine iff_of_false nofun fun ⟨hid, hlong⟩ => ?_
    exact hbad.elim (· hid) (Nat.not_lt_of_le hlong)
  · next hgood =>
    rw [not_or, not_not, Nat.not_lt] at hgood
    exact iff_of_true ⟨_, rfl⟩ hgood

theorem encode_of_ofFrame {f : Frame} {x : BenchSample} (h : ofFrame f = .ok x) :
    x.encode = f.payload.take size := by
  have hlong := ((exists_ofFrame_iff f).mp ⟨x, h⟩).2
  unfold ofFrame at h
  split at h
  · cases h
  · unfold size at hlong ⊢
    cases h
    simp only [encode]
    rw [Bytes.ofNat_uint32 (Bytes.length_field (by omega)),
      Bytes.ofNat_uint64 (Bytes.length_field (by omega)),
      Bytes.ofNat_uint64 (Bytes.length_field (by omega)),
      Bytes.ofNat_uint64 (Bytes.length_field (by omega)),
      Bytes.ofNat_uint64 (Bytes.length_field (by omega)), List.drop_zero,
      Bytes.take_append_field, Bytes.take_append_field, Bytes.take_append_field,
      Bytes.take_append_field]

end BenchSample

/-- Commands and samples are read back from their frames bit for bit. Of all frames, those that are
no command are the ones too short for what their identifier announces, those that say nothing are
the ones of other identifiers, and every other one gives a command that stands for it: with its
identifier, read back as itself, and for a ramp with the first 16 bytes. A sample is read exactly
from the frames of its identifier with 36 bytes or more, and these 36 bytes are what it is written
as. -/
theorem payloads_read_as_written :
    (∀ c : Command, Command.decode c.toFrame = .ok (some c)) ∧
    (∀ x : BenchSample, BenchSample.ofFrame x.toFrame = .ok x) ∧
    ∀ f : Frame,
      ((∃ e, Command.decode f = .error e) ↔
        f.id = 1 ∧ f.payload = [] ∨ f.id = 12 ∧ f.payload.length < 16) ∧
      (Command.decode f = .ok none ↔ f.id ≠ 1 ∧ f.id ≠ 2 ∧ f.id ≠ 12) ∧
      (∀ c, Command.decode f = .ok (some c) →
        c.toFrame.id = f.id ∧ Command.decode c.toFrame = .ok (some c) ∧
          (f.id = 12 → c.toFrame.payload = f.payload.take 16)) ∧
      ((∃ x, BenchSample.ofFrame f = .ok x) ↔ f.id = 10 ∧ 36 ≤ f.payload.length) ∧
      ∀ x, BenchSample.ofFrame f = .ok x →
        x.toFrame.id = 10 ∧ x.toFrame.payload = f.payload.take 36 := by
  refine ⟨Command.decode_toFrame, BenchSample.ofFrame_toFrame, fun f =>
    ⟨Command.exists_decode_error_iff f, Command.decode_eq_none_iff f, fun c hc => ?_,
      BenchSample.exists_ofFrame_iff f, fun x hx => ⟨rfl, BenchSample.encode_of_ofFrame hx⟩⟩⟩
  obtain ⟨hid, hbytes⟩ := Command.toFrame_of_decode hc
  exact ⟨hid, c.decode_toFrame, hbytes⟩

end RigBench
