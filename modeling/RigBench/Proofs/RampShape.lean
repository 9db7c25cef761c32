import RigBench.Proofs.Binary64Arithmetic
import RigBench.Ramp

/-!
The shape of a ramp. Its value is a share of the way from the first value to the second, and that
share grows from zero to one across the window. The shape is exact where the arithmetic is; that no
difference of times is negative and no divisor zero holds of every ramp, whatever its window.
-/
namespace RigBench

namespace Ramp

theorem regimes {α : Type} (r : Ramp α) (t : UInt64) :
    t < r.startTime ∨ (r.startTime ≤ t ∧ t < r.endTime) ∨ (r.startTime ≤ t ∧ r.endTime ≤ t) := by
  simp only [UInt64.lt_iff_toNat_lt, UInt64.le_iff_toNat_le]
  omega

section Guarded

variable {α : Type} [Add α] [Sub α] [Mul α] [Div α] [NatCast α]

/-- The milliseconds from one time to another; none if that would be negative. -/
def since? (begin t : UInt64) : Option Nat := if begin ≤ t then some (t - begin).toNat else none

/-- Evaluation that has no result where a difference of times is negative or a divisor is zero. -/
def evaluate? (isZero : α → Bool) (r : Ramp α) (t : UInt64) : Option α :=
  if t < r.startTime then some r.startValue
  else if t < r.endTime then do
    let span ← since? r.startTime r.endTime
    let elapsed ← since? r.startTime t
    if isZero span then none
    else some (r.startValue + (r.endValue - r.startValue) * elapsed / span)
  else some r.endValue

theorem evaluate?_eq {isZero : α → Bool} (hzero : ∀ n : Nat, 0 < n → isZero n = false)
    (r : Ramp α) (t : UInt64) : r.evaluate? isZero t = some (r.evaluate t) := by
  unfold evaluate?
  rcases r.regimes t with hbefore | ⟨hstart, hend⟩ | ⟨hstart, hend⟩
  · rw [if_pos hbefore, evaluate_before hbefore]
  · have hwindow : r.startTime ≤ r.endTime := UInt64.le_trans hstart (UInt64.le_of_lt hend)
    have hspan : 0 < (r.endTime - r.startTime).toNat := by
      rw [UInt64.toNat_sub_of_le _ _ hwindow]
      rw [UInt64.le_iff_toNat_le] at hstart
      rw [UInt64.lt_iff_toNat_lt] at hend
      omega
    rw [if_neg (UInt64.not_lt.mpr hstart), if_pos hend, since?, if_pos hwindow, since?,
      if_pos hstart, evaluate_inside hstart hend]
    simp [hzero _ hspan]
  · rw [if_neg (UInt64.not_lt.mpr hstart), if_neg (UInt64.not_lt.mpr hend),
      evaluate_beyond hstart hend]

end Guarded

/-- The ramp between the numbers that two doubles stand for, in exact arithmetic. -/
def rational (r : Ramp Binary64) : Ramp ℚ where
  startTime := r.startTime
  endTime := r.endTime
  startValue := r.startValue.value
  endValue := r.endValue.value

/-- The share of the way that is covered at a time. -/
def share (r : Ramp ℚ) (t : UInt64) : ℚ :=
  if t < r.startTime then 0
  else if t < r.endTime then (t.toNat - r.startTime.toNat) / (r.endTime.toNat - r.startTime.toNat)
  else 1

theorem cast_toNat_le {a b : UInt64} (h : a ≤ b) : (a.toNat : ℚ) ≤ b.toNat := by
  exact_mod_cast UInt64.le_iff_toNat_le.mp h

theorem cast_toNat_sub {a b : UInt64} (h : a ≤ b) : ((b - a).toNat : ℚ) = b.toNat - a.toNat := by
  rw [UInt64.toNat_sub_of_le _ _ h, Nat.cast_sub (UInt64.le_iff_toNat_le.mp h)]

variable {r : Ramp ℚ} {t t' u u' : UInt64}

theorem share_before (h : t < r.startTime) : r.share t = 0 := if_pos h

theorem share_inside (hstart : r.startTime ≤ t) (hend : t < r.endTime) :
    r.share t = (t.toNat - r.startTime.toNat) / (r.endTime.toNat - r.startTime.toNat) := by
  rw [share, if_neg (UInt64.not_lt.mpr hstart), if_pos hend]

theorem share_beyond (hstart : r.startTime ≤ t) (hend : r.endTime ≤ t) : r.share t = 1 := by
  rw [share, if_neg (UInt64.not_lt.mpr hstart), if_neg (UInt64.not_lt.mpr hend)]

theorem evaluate_eq_share (r : Ramp ℚ) (t : UInt64) :
    r.evaluate t = r.startValue + (r.endValue - r.startValue) * r.share t := by
  rcases r.regimes t with hbefore | ⟨hstart, hend⟩ | ⟨hstart, hend⟩
  · rw [evaluate_before hbefore, share_before hbefore, mul_zero, add_zero]
  · have hwindow : r.startTime ≤ r.endTime := UInt64.le_trans hstart (UInt64.le_of_lt hend)
    rw [evaluate_inside hstart hend, share_inside hstart hend, cast_toNat_sub hstart,
      cast_toNat_sub hwindow, mul_div_assoc]
  · rw [evaluate_beyond hstart hend, share_beyond hstart hend, mul_one, add_sub_cancel]

theorem share_bounds (r : Ramp ℚ) (t : UInt64) : 0 ≤ r.share t ∧ r.share t ≤ 1 := by
  rcases r.regimes t with hbefore | ⟨hstart, hend⟩ | ⟨hstart, hend⟩
  · rw [share_before hbefore]
    exact ⟨le_rfl, zero_le_one⟩
  · have hbegun := cast_toNat_le hstart
    have hrest := cast_toNat_le (UInt64.le_of_lt hend)
    rw [share_inside hstart hend]
    exact ⟨div_nonneg (by linarith) (by linarith), div_le_one_of_le₀ (by linarith) (by linarith)⟩
  · rw [share_beyond hstart hend]
    exact ⟨zero_le_one, le_rfl⟩

theorem share_mono (r : Ramp ℚ) (h : t ≤ t') : r.share t ≤ r.share t' := by
  rcases r.regimes t with hbefore | ⟨hstart, hend⟩ | ⟨hstart, hend⟩
  · rw [share_before hbefore]
    exact (r.share_bounds t').1
  · have hstart' : r.startTime ≤ t' := UInt64.le_trans hstart h
    by_cases hend' : t' < r.endTime
    · have hspan := cast_toNat_le (UInt64.le_trans hstart (UInt64.le_of_lt hend))
      have hlater := cast_toNat_le h
      rw [share_inside hstart hend, share_inside hstart' hend']
      exact div_le_div_of_nonneg_right (by linarith) (by linarith)
    · rw [share_beyond hstart' (UInt64.not_lt.mp hend')]
      exact (r.share_bounds t).2
  · rw [share_beyond hstart hend,
      share_beyond (UInt64.le_trans hstart h) (UInt64.le_trans hend h)]

theorem share_window (hwindow : r.startTime < r.endTime) (hstart : r.startTime ≤ t)
    (hend : t ≤ r.endTime) :
    r.share t = (t.toNat - r.startTime.toNat) / (r.endTime.toNat - r.startTime.toNat) := by
  have hspan : (r.startTime.toNat : ℚ) < r.endTime.toNat := by
    exact_mod_cast UInt64.lt_iff_toNat_lt.mp hwindow
  rcases UInt64.le_iff_lt_or_eq.mp hend with hlt | rfl
  · exact share_inside hstart hlt
  · rw [share_beyond hstart (UInt64.le_refl _), div_self (sub_pos.mpr hspan).ne']

/-- Times from the beginning of the window to its end. -/
def InWindow (r : Ramp ℚ) (t : UInt64) : Prop := r.startTime ≤ t ∧ t ≤ r.endTime

theorem evaluate_mem_uIcc (r : Ramp ℚ) (t : UInt64) :
    r.evaluate t ∈ Set.uIcc r.startValue r.endValue := by
  obtain ⟨hnonneg, hle⟩ := r.share_bounds t
  rw [evaluate_eq_share, Set.mem_uIcc]
  rcases le_total r.startValue r.endValue with hup | hdown
  · exact .inl ⟨by nlinarith, by nlinarith⟩
  · exact .inr ⟨by nlinarith, by nlinarith⟩

theorem evaluate_mono (hup : r.startValue ≤ r.endValue) (h : t ≤ t') :
    r.evaluate t ≤ r.evaluate t' := by
  rw [evaluate_eq_share, evaluate_eq_share]
  exact add_le_add_right (mul_le_mul_of_nonneg_left (r.share_mono h) (sub_nonneg.mpr hup)) _

theorem evaluate_anti (hdown : r.endValue ≤ r.startValue) (h : t ≤ t') :
    r.evaluate t' ≤ r.evaluate t := by
  rw [evaluate_eq_share, evaluate_eq_share]
  exact add_le_add_right (mul_le_mul_of_nonpos_left (r.share_mono h) (sub_nonpos.mpr hdown)) _

theorem evaluate_startTime (hwindow : r.startTime < r.endTime) :
    r.evaluate r.startTime = r.startValue := by
  rw [evaluate_eq_share, share_inside (UInt64.le_refl _) hwindow, sub_self, zero_div, mul_zero,
    add_zero]

theorem evaluate_window (hwindow : r.startTime < r.endTime) (ht : r.InWindow t) :
    r.evaluate t = r.startValue + (r.endValue - r.startValue) /
      (r.endTime.toNat - r.startTime.toNat) * (t.toNat - r.startTime.toNat) := by
  rw [evaluate_eq_share, share_window hwindow ht.1 ht.2]
  ring

theorem evaluate_sub_evaluate (ht : r.InWindow t) (ht' : r.InWindow t') (hu : r.InWindow u)
    (hu' : r.InWindow u') (hstep : (t'.toNat : ℤ) - t.toNat = u'.toNat - u.toNat) :
    r.evaluate t' - r.evaluate t = r.evaluate u' - r.evaluate u := by
  have hstep' : (t'.toNat : ℚ) - t.toNat = u'.toNat - u.toNat := by exact_mod_cast hstep
  rcases UInt64.le_iff_lt_or_eq.mp (UInt64.le_trans ht.1 ht.2) with hwindow | hempty
  · rw [evaluate_window hwindow ht, evaluate_window hwindow ht', evaluate_window hwindow hu,
      evaluate_window hwindow hu']
    linear_combination
      (r.endValue - r.startValue) / (r.endTime.toNat - r.startTime.toNat) * hstep'
  · -- an empty window is one moment
    have hmoment : ∀ {x : UInt64}, r.InWindow x → x = r.startTime := fun hx =>
      UInt64.le_antisymm (hempty ▸ hx.2) hx.1
    rw [hmoment ht, hmoment ht', hmoment hu, hmoment hu']

end Ramp

/-- The shape of a ramp. In exact arithmetic, a ramp that is accepted stays between its two values
and moves from the first towards the second as time goes on; it has the first value before the
window, and at its beginning too unless the window is empty, and the second value from the end of
the window on; within the window, equal steps of time are equal steps of the value. And for every
ramp whatever, its window in order or not, its values finite or not: no difference of times is
negative and no divisor is zero, in double precision and in exact arithmetic, and the value is the
first one before the window and the second one from where the window has begun and ended. -/
theorem ramp_shape :
    (∀ (startTime endTime : UInt64) (startValue endValue : Binary64) (r : Ramp Binary64),
      Ramp.make startTime endTime startValue endValue = .ok r →
      let first := startValue.value
      let second := endValue.value
      let value := r.rational.evaluate
      (∀ t, value t ∈ Set.uIcc first second) ∧
      (∀ t t', t ≤ t' →
        (first ≤ second → value t ≤ value t') ∧ (second ≤ first → value t' ≤ value t)) ∧
      (∀ t < startTime, value t = first) ∧
      (startTime < endTime → value startTime = first) ∧
      (∀ t, endTime ≤ t → value t = second) ∧
      ∀ t t' u u', r.rational.InWindow t → r.rational.InWindow t' → r.rational.InWindow u →
        r.rational.InWindow u' → (t'.toNat : ℤ) - t.toNat = u'.toNat - u.toNat →
        value t' - value t = value u' - value u) ∧
    ∀ (r : Ramp Binary64) (t : UInt64),
      r.evaluate? Binary64.isZero t = some (r.evaluate t) ∧
      r.rational.evaluate? (· == 0) t = some (r.rational.evaluate t) ∧
      (t < r.startTime → r.evaluate t = r.startValue) ∧
      (r.startTime ≤ t → r.endTime ≤ t → r.evaluate t = r.endValue) := by
  constructor
  · intro startTime endTime startValue endValue r hr
    obtain ⟨rfl, hordered, -⟩ := Ramp.make_eq_ok_iff.mp hr
    set q := Ramp.rational ⟨startTime, endTime, startValue, endValue⟩
    intro first second value
    refine ⟨q.evaluate_mem_uIcc, fun t t' h => ⟨fun hup => ?_, fun hdown => ?_⟩, fun t ht => ?_,
      fun hwindow => ?_, fun t ht => ?_, fun t t' u u' => ?_⟩
    · exact Ramp.evaluate_mono (r := q) hup h
    · exact Ramp.evaluate_anti (r := q) hdown h
    · exact Ramp.evaluate_before (r := q) ht
    · exact Ramp.evaluate_startTime (r := q) hwindow
    · exact Ramp.evaluate_beyond (r := q) (UInt64.le_trans hordered ht) ht
    · exact Ramp.evaluate_sub_evaluate
  · intro r t
    refine ⟨Ramp.evaluate?_eq (fun n hn => Binary64.isZero_ofNat hn) r t, ?_,
      Ramp.evaluate_before, Ramp.evaluate_beyond⟩
    refine Ramp.evaluate?_eq (fun n hn => ?_) r.rational t
    rw [beq_eq_false_iff_ne]
    exact Nat.cast_ne_zero.mpr hn.ne'

/-- From one up to three, and with the window reversed. -/
theorem ramp_shape_rising :
    let one := Binary64.ofNat 1
    let three := Binary64.ofNat 3
    let r : Ramp Binary64 := ⟨100, 500, one, three⟩
    let reversed : Ramp Binary64 := ⟨500, 100, one, three⟩
    Ramp.make 100 500 one three = .ok r ∧
      r.rational.evaluate 200 ∈ Set.uIcc 1 3 ∧
      r.rational.evaluate 200 ≤ r.rational.evaluate 400 ∧
      r.rational.evaluate 99 = 1 ∧ r.rational.evaluate 100 = 1 ∧ r.rational.evaluate 500 = 3 ∧
      r.rational.evaluate 300 - r.rational.evaluate 200 =
        r.rational.evaluate 500 - r.rational.evaluate 400 ∧
      reversed.evaluate? Binary64.isZero 300 = some one ∧ reversed.evaluate 500 = three := by
  intro one three r reversed
  have haccepted : Ramp.make 100 500 one three = .ok r := by decide +kernel
  have hone : one.value = 1 := (Binary64.value_ofNat (n := 1) (by decide)).2.trans Nat.cast_one
  have hthree : three.value = 3 := (Binary64.value_ofNat (n := 3) (by decide)).2
  obtain ⟨hbetween, hmono, hbefore, hbegin, hbeyond, hsteps⟩ :=
    ramp_shape.1 100 500 one three r haccepted
  obtain ⟨hguarded, -, hearly, -⟩ := ramp_shape.2 reversed 300
  rw [hone] at hmono hbefore hbegin
  rw [hthree] at hmono hbeyond
  refine ⟨haccepted, ?_, (hmono 200 400 (by decide)).1 (by norm_num), hbefore 99 (by decide),
    hbegin (by decide), hbeyond 500 (by decide), ?_, ?_, ?_⟩
  · simpa only [hone, hthree] using hbetween 200
  · exact hsteps 200 300 400 500 ⟨by decide, by decide⟩ ⟨by decide, by decide⟩
      ⟨by decide, by decide⟩ ⟨by decide, by decide⟩ rfl
  · rw [hguarded, hearly (by decide)]
  · exact (ramp_shape.2 reversed 500).2.2.2 (by decide) (by decide)

end RigBench
