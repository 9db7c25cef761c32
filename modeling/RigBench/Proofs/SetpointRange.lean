import RigBench.Proofs.Binary64Arithmetic
import RigBench.Proofs.ObservedRig
import RigBench.Proofs.TransportInvariant

/-!
Where the set-points of a ramp are finite. On the line between its values a ramp multiplies before
it divides, and the product may overflow although both values and the line are well within range.
-/
namespace RigBench

open Rounding

namespace Ramp

/-- At a time within the window, the difference of the values times the elapsed milliseconds does
not overflow. -/
def Moderate (r : Ramp Binary64) (t : UInt64) : Prop :=
  r.startTime ≤ t → t < r.endTime →
    |(r.endValue - r.startValue).value| * (t - r.startTime).toNat < Nearest.overflow

theorem IsOf.endValue {r : Ramp Binary64} {params : Option TrajectoryParams} (h : r.IsOf params) :
    ∃ x : Binary32, x.SameNumber r.endValue := by
  cases params with
  | none =>
    obtain rfl : r = .zero := h
    exact ⟨⟨0⟩, rfl, rfl, rfl, rfl⟩
  | some params => exact ⟨params.endValue, TrajectoryParams.Describes.endValue h⟩

/-- Both values are finite, the end value is no greater than singles are, and times fit a double. -/
structure Bounded (r : Ramp Binary64) : Prop where
  start_le : r.startTime ≤ r.endTime
  short : r.endTime.toNat < 2 ^ 15
  startFinite : r.startValue.isFinite = true
  endFinite : r.endValue.isFinite = true
  end_le : |r.endValue.value| ≤ 2 ^ (128 : ℤ)

theorem IsOf.bounded {r : Ramp Binary64} {params : Option TrajectoryParams} (h : r.IsOf params)
    (hw : r.WellFormed) : r.Bounded where
  start_le := hw.ordered
  short := by
    have := UInt64.le_iff_toNat_le.mp hw.bounded
    change r.endTime.toNat ≤ 32767 at this
    omega
  startFinite := hw.startFinite
  endFinite := hw.endFinite
  end_le := by
    obtain ⟨x, hx⟩ := h.endValue
    exact Binary64.abs_value_le (by decide) (by decide) hx.exponentField_le

namespace Bounded

variable {r : Ramp Binary64}

theorem difference_isFinite (hr : r.Bounded) : (r.endValue - r.startValue).isFinite = true := by
  have hstart := (Binary64.isDouble_unpacked hr.startFinite).abs_value_le
  have hend := hr.end_le
  rw [Binary64.isFinite_eq, (Binary64.rounds_sub hr.endFinite hr.startFinite).finite_iff]
  refine (abs_sub _ _).trans_lt ((add_le_add hend hstart).trans_lt ?_)
  have hpow : (2 : ℚ) ^ (128 : ℤ) < 2 ^ (970 : ℤ) := zpow_lt_zpow_right₀ one_lt_two (by norm_num)
  rw [Nearest.overflow_eq, show (971 : ℤ) = 970 + 1 from rfl, zpow_add_one₀ two_ne_zero]
  generalize (2 : ℚ) ^ (970 : ℤ) = unit at hpow ⊢
  linarith

theorem evaluate_within {t : UInt64} (hstart : r.startTime ≤ t) (hend : t < r.endTime) :
    r.evaluate t = r.startValue + (r.endValue - r.startValue) *
      .ofNat (t - r.startTime).toNat / .ofNat (r.endTime - r.startTime).toNat := by
  exact evaluate_inside hstart hend

theorem abs_way_le {D P Q : Binary64} {d : ℚ} {e w : ℕ} (hD : Rounds d D.unpacked)
    (hP : Rounds (D.value * e) P.unpacked) (hQ : Rounds (P.value / w) Q.unpacked)
    (hd : |d| ≤ 2 ^ (128 : ℤ)) (he : e < 2 ^ 15) (hw : 0 < w) : |Q.value| ≤ 2 ^ (143 : ℤ) := by
  have he' : (e : ℚ) ≤ 2 ^ (15 : ℤ) := by exact_mod_cast he.le
  have hw' : (1 : ℚ) ≤ w := by exact_mod_cast hw
  have hdifference : |D.value| ≤ 2 ^ (128 : ℤ) := hD.le_two_zpow 128 (by norm_num) hd
  have hproduct : |P.value| ≤ 2 ^ (143 : ℤ) := by
    refine hP.le_two_zpow 143 (by norm_num) ?_
    rw [abs_mul, Nat.abs_cast, show (143 : ℤ) = 128 + 15 from rfl, zpow_add₀ two_ne_zero]
    exact mul_le_mul hdifference he' (Nat.cast_nonneg e) (by positivity)
  refine hQ.le_two_zpow 143 (by norm_num) ?_
  rw [abs_div, Nat.abs_cast]
  exact (div_le_self (abs_nonneg _) hw').trans hproduct

/-- The way leads from the start value towards zero, or it is short. -/
theorem abs_sum_lt (hr : r.Bounded) {P Q : Binary64} {e w : ℕ} (he : e < 2 ^ 15) (hw : 0 < w)
    (hP : Rounds ((r.endValue - r.startValue).value * e) P.unpacked)
    (hQ : Rounds (P.value / w) Q.unpacked) (hfinite : Q.isFinite = true) :
    |r.startValue.value + Q.value| < Nearest.overflow := by
  have hD := Binary64.rounds_sub hr.endFinite hr.startFinite
  have ha := abs_lt.mp (Binary64.isDouble_unpacked hr.startFinite).abs_value_lt
  have hq := abs_lt.mp (Binary64.isDouble_unpacked hfinite).abs_value_lt
  have hb := abs_le.mp hr.end_le
  change -_ < r.startValue.value ∧ r.startValue.value < _ at ha
  change -_ < Q.value ∧ Q.value < _ at hq
  have hshort : |r.endValue.value - r.startValue.value| ≤ 2 ^ (128 : ℤ) →
      |r.startValue.value| ≤ 2 ^ (128 : ℤ) →
      |r.startValue.value + Q.value| < Nearest.overflow := by
    intro hd hstart
    have hway := abs_way_le hD hP hQ hd he hw
    have hpow : (2 : ℚ) ^ (128 : ℤ) ≤ 2 ^ (143 : ℤ) := zpow_le_zpow_right₀ one_le_two (by norm_num)
    have hdouble : (2 : ℚ) ^ (143 : ℤ) + 2 ^ (143 : ℤ) = 2 ^ (144 : ℤ) := by
      rw [show (144 : ℤ) = 143 + 1 from rfl, zpow_add_one₀ two_ne_zero]
      ring
    have hsum := abs_add_le r.startValue.value Q.value
    have := Nearest.two_zpow_lt_overflow (show (144 : ℤ) ≤ 1023 by norm_num)
    linarith
  have he' : (0 : ℚ) ≤ e := Nat.cast_nonneg e
  have hw' : (0 : ℚ) ≤ w := Nat.cast_nonneg w
  -- rounding keeps signs, and a way away from zero starts no further out than the single it ends at
  rcases le_total r.endValue.value r.startValue.value with hdown | hup
  · have hway : Q.value ≤ 0 := hQ.nonpos (div_nonpos_of_nonpos_of_nonneg
      (hP.nonpos (mul_nonpos_of_nonpos_of_nonneg (hD.nonpos (by linarith)) he')) hw')
    rcases le_or_gt 0 r.startValue.value with hpos | hneg
    · exact abs_lt.mpr ⟨by linarith, by linarith⟩
    · exact hshort (abs_le.mpr ⟨by linarith, by linarith⟩) (abs_le.mpr ⟨by linarith, by linarith⟩)
  · have hway : 0 ≤ Q.value := hQ.nonneg (div_nonneg
      (hP.nonneg (mul_nonneg (hD.nonneg (by linarith)) he')) hw')
    rcases le_or_gt r.startValue.value 0 with hneg | hpos
    · exact abs_lt.mpr ⟨by linarith, by linarith⟩
    · exact hshort (abs_le.mpr ⟨by linarith, by linarith⟩) (abs_le.mpr ⟨by linarith, by linarith⟩)

/-- From the difference on, only the product can overflow. -/
theorem isFinite_line_iff (hr : r.Bounded) {e w : ℕ} (he : e < 2 ^ 15) (hw : 0 < w)
    (hspan : w < 2 ^ 15) :
    (r.startValue + (r.endValue - r.startValue) * .ofNat e / .ofNat w).isFinite = true ↔
      |(r.endValue - r.startValue).value| * e < Nearest.overflow := by
  obtain ⟨hefinite, hevalue⟩ := Binary64.value_ofNat (show e < 2 ^ 53 by omega)
  obtain ⟨hwfinite, hwvalue⟩ := Binary64.value_ofNat (show w < 2 ^ 53 by omega)
  have hw' : (1 : ℚ) ≤ w := by exact_mod_cast hw
  have hP := Binary64.rounds_mul hr.difference_isFinite hefinite
  have hproduct := hP.finite_iff
  rw [hevalue] at hP hproduct
  rw [← Binary64.isFinite_eq, abs_mul, Nat.abs_cast] at hproduct
  rw [← hproduct]
  set P := (r.endValue - r.startValue) * .ofNat e
  constructor
  · intro hsum
    by_contra hoverflow
    have hquotient := Binary64.not_isFinite_div ((Bool.not_eq_true _).mp hoverflow) hwfinite
    rw [Binary64.not_isFinite_add hr.startFinite hquotient] at hsum
    exact Bool.noConfusion hsum
  · intro hfinite
    have hQ := Binary64.rounds_div hfinite hwfinite (by rw [hwvalue]; positivity)
    rw [hwvalue] at hQ
    have hquotient : (P / .ofNat w).isFinite = true := by
      have hlt := (Binary64.isDouble_unpacked hfinite).abs_value_lt
      rw [Binary64.isFinite_eq, hQ.finite_iff, abs_div, Nat.abs_cast]
      exact (div_le_self (abs_nonneg _) hw').trans_lt hlt
    rw [Binary64.isFinite_eq, (Binary64.rounds_add hr.startFinite hquotient).finite_iff]
    exact hr.abs_sum_lt he hw hP hQ hquotient

theorem evaluate_isFinite_iff (hr : r.Bounded) (t : UInt64) :
    (r.evaluate t).isFinite = true ↔ r.Moderate t := by
  unfold Moderate
  by_cases hstart : r.startTime ≤ t
  · by_cases hend : t < r.endTime
    · have hshort := hr.short
      have hstart' := UInt64.le_iff_toNat_le.mp hstart
      have hend' := UInt64.lt_iff_toNat_lt.mp hend
      have helapsed : (t - r.startTime).toNat = t.toNat - r.startTime.toNat :=
        UInt64.toNat_sub_of_le _ _ hstart
      have hspan : (r.endTime - r.startTime).toNat = r.endTime.toNat - r.startTime.toNat :=
        UInt64.toNat_sub_of_le _ _ hr.start_le
      rw [evaluate_within hstart hend, hr.isFinite_line_iff (by omega) (by omega) (by omega)]
      simp only [hstart, hend, true_implies]
    · rw [evaluate_beyond hstart (UInt64.not_lt.mp hend)]
      simp [hend, hr.endFinite]
  · rw [evaluate_before (UInt64.not_le.mp hstart)]
    simp [hstart, hr.startFinite]

end Bounded
end Ramp

structure SetpointTrace where
  setpoints : List Binary64 := []
  deriving DecidableEq

namespace SetpointTrace

instance : RigObserver SetpointTrace where
  note
    | s, (.apply setpoint _, _) => { setpoints := setpoint :: s.setpoints }
    | s, _ => s

theorem setpoints_after {t t' : Transport} {step : Duration} {notes : List RigNote}
    {result : Except BenchError Unit} (h : t.SampleCourse step notes result t')
    (s : SetpointTrace) :
    (RigObserver.after s notes).setpoints =
      t.trajectory.ramp.evaluate (t.data.time.advance step).millis :: s.setpoints := by
  cases h <;> rfl

end SetpointTrace

abbrev Traced (ρ : Type) := ObservedRig SetpointTrace ρ

@[simp] theorem Traced.setpoints_safeState {ρ : Type} [Rig ρ] (r : Traced ρ) :
    (Rig.safeState r).2.seen.setpoints = r.seen.setpoints := rfl

namespace ControlLoop

variable {ρ : Type}

theorem samples_noteIntake (c : ControlLoop ρ) (t : Transport) (h : History) :
    (c.noteIntake t h).samples = h.samples := by
  have hP : FrameInvariant fun _ h' => h'.samples = h.samples :=
    { input := fun hsame _ => hsame
      receive := fun {t _} hsame f => (t.samples_eventOf f _).trans hsame }
  exact hP.intake c (t := t) rfl

variable [Rig ρ]

theorem setpoints_sample (c : ControlLoop (Traced ρ)) (t : Transport) :
    (c.sample t).2.1.rig.seen.setpoints =
      (c.advance t).trajectory.output :: c.rig.seen.setpoints := by
  obtain ⟨notes, hsample, hcourse⟩ := c.unobserved.sample_observed c.rig.seen t
  rw [show c.sample t = _ from hsample]
  exact SetpointTrace.setpoints_after hcourse c.rig.seen

theorem setpoints_tick (c : ControlLoop (Traced ρ)) (link : LinkState) (t : Transport) :
    let setpoint := (c.advance (c.intake t)).trajectory.output
    let drives := (c.intake t).isRunning && !c.lostLink link (c.intake t)
    (c.tick link t).2.1.rig.seen.setpoints =
        (if drives then [setpoint] else []) ++ c.rig.seen.setpoints ∧
      ∀ f ∈ (History.samples (c.noteTick link t [])).map Prod.fst,
        drives = true ∧
          ∃ sample : BenchSample, f = sample.toFrame ∧ sample.setpoint = setpoint := by
  intro setpoint drives
  have hway := c.tickWay_tick link t []
  have hnone := c.samples_noteIntake t []
  have hsetpoints := c.setpoints_sample (c.intake t)
  generalize c.noteIntake t [] = before at hway hnone
  generalize c.noteTick link t [] = after at hway ⊢
  generalize c.tick link t = call at hway ⊢
  obtain ⟨outcome, loop, transport⟩ := call
  dsimp only at hway ⊢
  cases hway with
  | linkLost hlost => simp [drives, hlost, hnone, History.samples]
  | idle hidle => simp [drives, hidle, hnone, History.samples]
  | failed hlink hrun hsample =>
    rw [hsample] at hsetpoints
    exact ⟨by simpa [drives, hlink, hrun] using hsetpoints, by simp [hnone, History.samples]⟩
  | sampled hs hwindow =>
    rw [hs.sample] at hsetpoints
    refine ⟨by simpa [drives, hs.linked, hs.running] using hsetpoints, ?_⟩
    simp only [History.samples, hnone, List.nil_append, List.map_cons, List.map_nil,
      List.mem_singleton, forall_eq]
    exact ⟨by simp [drives, hs.linked, hs.running], _, rfl, rfl⟩
  | expired hs hwindow =>
    rw [hs.sample] at hsetpoints
    refine ⟨by simpa [drives, hs.linked, hs.running] using hsetpoints, ?_⟩
    simp only [History.samples, hnone, List.nil_append, List.map_cons, List.map_nil,
      List.mem_singleton, forall_eq]
    exact ⟨by simp [drives, hs.linked, hs.running], _, rfl, rfl⟩

end ControlLoop

/-- Where set-points are finite. The ramp of an accepted frame has a finite value at a time exactly
if there the difference of its values times the elapsed milliseconds does not overflow. On a bench,
whatever was done to its transport before, a tick that drives the rig hands it the value that the
ramp in force has at the new time, which is also the set-point of the sample; so this set-point is
finite exactly if that product does not overflow. -/
theorem setpoint_isFinite_iff {ρ σ : Type} [Rig ρ] [Rig σ] (input output : FrameQueue)
    (acts : List (TransportUse σ)) (c : ControlLoop (Traced ρ)) (link : LinkState) :
    (∀ (params : TrajectoryParams) (r : Ramp Binary64) (t : UInt64), params.toRamp = .ok r →
      ((r.evaluate t).isFinite = true ↔ r.Moderate t)) ∧
    let t := ((TransportLife.start input output).after acts).transport
    let r := (c.intake t).trajectory.ramp
    let now := ((c.intake t).data.time.advance c.settings.step).millis
    let drives := (c.intake t).isRunning && !c.lostLink link (c.intake t)
    ((r.evaluate now).isFinite = true ↔ r.Moderate now) ∧
    (c.tick link t).2.1.rig.seen.setpoints =
      (if drives then [r.evaluate now] else []) ++ c.rig.seen.setpoints ∧
    ∀ f ∈ (History.samples (c.noteTick link t [])).map Prod.fst,
      drives = true ∧ ∃ sample : BenchSample,
        f = sample.toFrame ∧ sample.setpoint = r.evaluate now := by
  refine ⟨fun params r t hr => ?_, ?_⟩
  · obtain ⟨hdescribes, hw⟩ := TrajectoryParams.toRamp_eq_ok_iff.mp hr
    have hof : r.IsOf (some params) := hdescribes
    exact (hof.bounded hw).evaluate_isFinite_iff t
  · intro t r now drives
    have hcoherent := (TransportLife.coherent_after input output acts).1
    have hintake := Transport.Coherent.tickInvariant.intake c hcoherent
    have hbounded := hintake.ramp.bounded hintake.wellFormed
    exact ⟨hbounded.evaluate_isFinite_iff now, c.setpoints_tick link t⟩

/-- Halfway from zero to one. -/
theorem setpoint_isFinite_iff_halfway :
    let params : TrajectoryParams := ⟨⟨0⟩, ⟨0x3f800000⟩, 0, 1000⟩
    let r : Ramp Binary64 := ⟨0, 1000, .zero, .one⟩
    params.toRamp = .ok r ∧ (r.evaluate 500).isFinite = true ∧ r.Moderate 500 := by
  intro params r
  have hr : params.toRamp = .ok r := by decide +kernel
  have hfinite : (r.evaluate 500).isFinite = true := by decide +kernel
  let c : ControlLoop (Traced NullRig) :=
    { rig := ⟨{}, {}⟩, settings := ⟨.ofMillis 500, .zero, true, true⟩ }
  obtain ⟨hiff, -⟩ :=
    setpoint_isFinite_iff (.new 4) (.new 4) ([] : List (TransportUse NullRig)) c {}
  exact ⟨hr, hfinite, (hiff params r 500 hr).mp hfinite⟩

/-- Halfway from a great value to zero the set-point is infinite: the tick hands it to the rig and
sends it. -/
theorem halfway_infinite :
    let params : TrajectoryParams := ⟨⟨0x7fe1ccf385ebc8a0⟩, ⟨0⟩, 0, 1000⟩
    let c : ControlLoop (Traced NullRig) :=
      { rig := ⟨{}, {}⟩, settings := ⟨.ofMillis 500, .zero, true, true⟩ }
    let t := ((Bench.new 4 4).init.2.transport.receive (Command.trajectory params).toFrame).receive
      Command.start.toFrame
    let infinite : Binary64 := ⟨0xfff0000000000000⟩
    params.toRamp = .ok ⟨0, 1000, params.startValue, .zero⟩ ∧
      Ramp.evaluate ⟨0, 1000, params.startValue, .zero⟩ 500 = infinite ∧
      infinite.isFinite = false ∧
      (c.tick {} t).2.1.rig.seen.setpoints = [infinite] ∧
      (c.tick {} t).2.2.output.frames.map (fun f => (BenchSample.ofFrame f).map (·.setpoint)) =
        [.ok infinite] := by
  decide +kernel

end RigBench
