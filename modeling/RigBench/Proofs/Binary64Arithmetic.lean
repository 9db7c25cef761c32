import RigBench.Proofs.Binary64Value
import RigBench.Proofs.SingleValue

/-!
The four operations on doubles: for finite operands the result is the exact one, rounded.
-/
namespace RigBench

open Float.Model Float.Model.UnpackedFloat

namespace Rounding

theorem cast_apply (s : Sign) (z : ℤ) : ((s.apply z : ℤ) : ℚ) = unit s * z := by
  cases s <;> simp [Sign.apply, unit]

theorem unit_mul (s s' : Sign) : unit (s * s') = unit s * unit s' := by
  cases s <;> cases s' <;> norm_num [unit]

theorem unit_div (s s' : Sign) : unit (s / s') = unit s / unit s' := by
  cases s <;> cases s' <;> norm_num [unit] <;> rfl

theorem unit_neg (s : Sign) : unit (-s) = -unit s := by
  cases s <;> norm_num [unit]

theorem IsDouble.abs_value_le {u : UnpackedFloat} (h : IsDouble u) :
    |value u| ≤ (2 ^ 53 - 1) * 2 ^ (971 : ℤ) := by
  cases h using IsDouble.elim with
  | finite s m e hm h =>
    obtain ⟨hbits, -, hgreatest, -⟩ := h
    have hm' : (m : ℚ) ≤ 2 ^ 53 - 1 := by
      rw [le_sub_iff_add_le]
      exact_mod_cast hbits
    rw [value, abs_unit_mul s (by positivity)]
    exact mul_le_mul hm' (zpow_le_zpow_right₀ one_le_two hgreatest) (by positivity) (by norm_num)
  | zero s => simp only [value, abs_zero]; positivity

theorem IsDouble.abs_value_lt {u : UnpackedFloat} (h : IsDouble u) :
    |value u| < Nearest.overflow := by
  refine h.abs_value_le.trans_lt ?_
  rw [Nearest.overflow_eq_half]
  exact mul_lt_mul_of_pos_right (by norm_num) (by positivity)

theorem IsDouble.rounds {u : UnpackedFloat} (h : IsDouble u) : Rounds (value u) u where
  notNaN := by cases h using IsDouble.elim <;> rfl
  isDouble := fun _ => h
  finite_iff := by
    have hfinite : u.isFinite = true := by cases h using IsDouble.elim <;> rfl
    simp [hfinite, h.abs_value_lt]
  nonneg := id
  nonpos := id
  le_two_zpow := fun _ _ => id
  eq_of_double := fun _ _ _ _ _ _ => rfl

theorem rounds_zero (s : Sign) : Rounds 0 (stored (.zero s)) := by
  rw [stored_of_isDouble (by trivial)]
  exact IsDouble.rounds (u := .zero s) trivial

theorem IsDouble.neg {u : UnpackedFloat} (h : IsDouble u) : IsDouble u.neg := by
  cases u <;> exact h

theorem value_neg (u : UnpackedFloat) : value u.neg = -value u := by
  cases u with
  | finite s m e hm => rw [UnpackedFloat.neg, value, value, unit_neg, neg_mul]
  | _ => exact neg_zero.symm

theorem rounds_roundWithAccuracy {m : ℕ} {e : ℤ} {a : Accuracy} {y : ℚ} (s : Sign)
    (h : Stands (.ofMantissaAndAccuracy m a) y) (he : e ≤ target m e) :
    Rounds (unit s * (y * 2 ^ e)) (stored (roundWithAccuracy .binary64 s m e a)) := by
  obtain ⟨n, t, hnearest, hround⟩ := exists_nearest s h he
  have hy : 0 ≤ y := (Nat.cast_nonneg _).trans h.mantissa_le.1
  rw [hround]
  exact hnearest.rounds (by positivity) s

theorem log2_shiftLeft {m : ℕ} (hm : 0 < m) (k : ℕ) : (m <<< k).log2 = m.log2 + k := by
  have hpow : 0 < 2 ^ k := Nat.two_pow_pos k
  rw [Nat.shiftLeft_eq, Nat.log2_eq_iff (Nat.mul_pos hm hpow).ne', pow_add, Nat.add_right_comm,
    pow_add _ _ k]
  exact ⟨Nat.mul_le_mul_right _ (Nat.log2_self_le hm.ne'),
    Nat.mul_lt_mul_of_pos_right Nat.lt_log2_self hpow⟩

theorem cast_decreaseExponent (m : ℕ) {e t : ℤ} (ht : t ≤ e) :
    (((decreaseExponent m e t).1 : ℕ) : ℚ) * 2 ^ t = m * 2 ^ e := by
  have he : e = ((e - t).toNat : ℤ) + t := by omega
  rw [decreaseExponent, Nat.shiftLeft_eq]
  conv_rhs => rw [he, zpow_add₀ two_ne_zero, zpow_natCast]
  push_cast
  ring

theorem rounds_round (s : Sign) {m : ℕ} (hm : 0 < m) (e : ℤ) :
    Rounds (unit s * (m * 2 ^ e)) (stored (round .binary64 s m e)) := by
  set k := (e - target m e).toNat with hk
  have hround : round .binary64 s m e =
      roundWithAccuracy .binary64 s (m <<< k) (e - k) .exact := rfl
  have htarget : e - k ≤ target (m <<< k) (e - k) := by
    have := target_eq m e
    rw [target_eq, log2_shiftLeft hm]
    omega
  have hsame : ((m <<< k : ℕ) : ℚ) * 2 ^ (e - k) = m * 2 ^ e := by
    rw [Nat.shiftLeft_eq, zpow_sub₀ two_ne_zero, zpow_natCast]
    push_cast
    field_simp
  rw [hround, ← hsame]
  exact rounds_roundWithAccuracy s (stands_exact _) htarget

theorem rounds_normalize (z e : ℤ) (s : Sign) :
    Rounds (z * 2 ^ e) (stored (UnpackedFloat.normalize .binary64 z e s)) := by
  unfold UnpackedFloat.normalize
  rcases hz : compare z 0 with _ | _ | _
  · have hneg : z < 0 := compare_lt_iff_lt.mp hz
    have hcast : (z : ℚ) = unit .negative * ((-z).toNat : ℕ) := by
      have : (((-z).toNat : ℤ) : ℚ) = ((-z : ℤ) : ℚ) := by rw [Int.toNat_of_nonneg (by omega)]
      rw [unit, ← Int.cast_natCast, this]
      push_cast
      ring
    rw [hcast, mul_assoc]
    exact rounds_round .negative (by omega) e
  · have hzero : z = 0 := compare_eq_iff_eq.mp hz
    rw [hzero, Int.cast_zero, zero_mul]
    exact rounds_zero s
  · have hpos : 0 < z := compare_gt_iff_gt.mp hz
    have hcast : (z : ℚ) = unit .positive * (z.toNat : ℕ) := by
      have : ((z.toNat : ℤ) : ℚ) = z := by rw [Int.toNat_of_nonneg (by omega)]
      rw [unit, ← Int.cast_natCast, this, one_mul]
    rw [hcast, mul_assoc]
    exact rounds_round .positive (by omega) e

variable {u v : UnpackedFloat}

theorem rounds_add (hu : IsDouble u) (hv : IsDouble v) :
    Rounds (value u + value v) (stored (add .binary64 u v)) := by
  cases hu using IsDouble.elim with
  | zero s =>
    cases hv using IsDouble.elim with
    | zero s' =>
      unfold UnpackedFloat.add value
      rw [add_zero]
      dsimp only
      split <;> exact rounds_zero _
    | finite s' m' e' hm' hv =>
      rw [show value (.zero s) = 0 from rfl, zero_add]
      exact (stored_of_isDouble hv).symm ▸ hv.rounds
  | finite s m e hm hu =>
    cases hv using IsDouble.elim with
    | zero s' =>
      rw [show value (.zero s') = 0 from rfl, add_zero]
      exact (stored_of_isDouble hu).symm ▸ hu.rounds
    | finite s' m' e' hm' hv =>
      have hleft := cast_decreaseExponent m (min_le_left e e')
      have hright := cast_decreaseExponent m' (min_le_right e e')
      have := rounds_normalize (s.apply ((decreaseExponent m e (min e e')).1 : ℕ) +
        s'.apply ((decreaseExponent m' e' (min e e')).1 : ℕ)) (min e e') .positive
      rw [Int.cast_add, cast_apply, cast_apply, add_mul, mul_assoc, mul_assoc, Int.cast_natCast,
        Int.cast_natCast, hleft, hright] at this
      exact this

theorem sub_eq (u v : UnpackedFloat) : sub .binary64 u v = add .binary64 u v.neg := by
  cases u <;> cases v <;> try rfl
  next s m e hm s' m' e' hm' =>
    have hneg (z : ℤ) : (-s').apply z = -s'.apply z := by cases s' <;> simp [Sign.apply]
    simp only [UnpackedFloat.sub, UnpackedFloat.add, UnpackedFloat.neg, hneg, Int.sub_eq_add_neg]

theorem rounds_sub (hu : IsDouble u) (hv : IsDouble v) :
    Rounds (value u - value v) (stored (sub .binary64 u v)) := by
  rw [sub_eq, sub_eq_add_neg, ← value_neg]
  exact rounds_add hu hv.neg

theorem rounds_mul (hu : IsDouble u) (hv : IsDouble v) :
    Rounds (value u * value v) (stored (mul .binary64 u v)) := by
  cases hu using IsDouble.elim with
  | zero s =>
    rw [show value (.zero s) = 0 from rfl, zero_mul]
    cases hv using IsDouble.elim with
    | zero s' => exact rounds_zero _
    | finite s' m' e' hm' hv => exact rounds_zero _
  | finite s m e hm hu =>
    cases hv using IsDouble.elim with
    | zero s' =>
      rw [show value (.zero s') = 0 from rfl, mul_zero]
      exact rounds_zero _
    | finite s' m' e' hm' hv =>
      obtain ⟨-, -, -, hnormal⟩ := hu
      obtain ⟨-, -, -, hnormal'⟩ := hv
      -- all bits of the product are there, or it is below the least exponent
      have htarget : e + e' ≤ target (m * m') (e + e') := by
        rw [target_eq]
        by_cases hsmall : e = -1074 ∧ e' = -1074
        · omega
        · have hbits : 2 ^ 52 ≤ m * m' := by
            by_cases he : e = -1074
            · exact (hnormal'.resolve_left fun he' => hsmall ⟨he, he'⟩).trans
                (Nat.le_mul_of_pos_left m' hm)
            · exact (hnormal.resolve_left he).trans (Nat.le_mul_of_pos_right m hm')
          have := (Nat.le_log2 (Nat.mul_pos hm hm').ne').mpr hbits
          omega
      have hvalue : value (.finite s m e hm) * value (.finite s' m' e' hm') =
          unit (s * s') * (((m * m' : ℕ) : ℚ) * 2 ^ (e + e')) := by
        rw [value, value, unit_mul, zpow_add₀ two_ne_zero]
        push_cast
        ring
      rw [hvalue]
      exact rounds_roundWithAccuracy (s * s') (stands_exact _) htarget

/-- The exponent of a quotient leaves at least 53 bits to its whole part, or is the least. -/
theorem le_target_div {m m' : ℕ} {e e' t : ℤ} (hm : 0 < m) (hm' : 0 < m')
    (ht : t = min (e - e') (max ((m.log2 : ℤ) + e - (m'.log2 + e') - 53) (-1074))) :
    t ≤ target (m <<< (e - e' - t).toNat / m') t := by
  rw [target_eq]
  rcases le_or_gt t (-1074) with hle | hlt
  · omega
  · set k := (e - e' - t).toNat with hk
    have hpos : 0 < m <<< k := by
      rw [Nat.shiftLeft_eq]
      positivity
    have hbits : 2 ^ 52 ≤ m <<< k / m' := by
      have hlog := log2_shiftLeft hm k
      have hlow : 2 ^ (m <<< k).log2 ≤ m <<< k := Nat.log2_self_le hpos.ne'
      have hhigh : m' < 2 ^ (m'.log2 + 1) := Nat.lt_log2_self
      have hpow : 2 ^ (52 + (m'.log2 + 1)) ≤ 2 ^ (m <<< k).log2 :=
        Nat.pow_le_pow_right two_pos (by omega)
      rw [Nat.le_div_iff_mul_le hm']
      calc 2 ^ 52 * m' ≤ 2 ^ 52 * 2 ^ (m'.log2 + 1) := Nat.mul_le_mul_left _ hhigh.le
        _ = 2 ^ (52 + (m'.log2 + 1)) := (pow_add 2 52 _).symm
        _ ≤ m <<< k := hpow.trans hlow
    have := (Nat.le_log2 (by omega)).mpr hbits
    omega

theorem rounds_div (hu : IsDouble u) (hv : IsDouble v) (hzero : value v ≠ 0) :
    Rounds (value u / value v) (stored (div .binary64 u v)) := by
  cases hv using IsDouble.elim with
  | zero s' => exact absurd rfl hzero
  | finite s' m' e' hm' _ =>
    cases hu using IsDouble.elim with
    | zero s =>
      rw [show value (.zero s) = 0 from rfl, zero_div]
      exact rounds_zero _
    | finite s m e hm _ =>
      set t := min (e - e')
        (Format.binary64.targetExponent (totalExponent m e - totalExponent m' e')) with ht
      have hdiv : div .binary64 (.finite s m e hm) (.finite s' m' e' hm') =
          roundWithAccuracy .binary64 (s / s') (m <<< (e - e' - t).toNat / m') t
            (accuracyOfFraction (m <<< (e - e' - t).toNat % m') m') := rfl
      have htarget : t = min (e - e') (max ((m.log2 : ℤ) + e - (m'.log2 + e') - 53) (-1074)) := by
        rw [ht]
        simp only [Format.targetExponent, totalExponent, Format.mantissaBits, Format.minExponent]
        norm_num
        omega
      have hvalue : value (.finite s m e hm) / value (.finite s' m' e' hm') =
          unit (s / s') * (((m <<< (e - e' - t).toNat : ℕ) : ℚ) / m' * 2 ^ t) := by
        have hsame := cast_decreaseExponent m (show t ≤ e - e' from min_le_left _ _)
        change ((m <<< (e - e' - t).toNat : ℕ) : ℚ) * 2 ^ t = m * 2 ^ (e - e') at hsame
        rw [value, value, unit_div, div_mul_eq_mul_div _ (m' : ℚ), hsame, zpow_sub₀ two_ne_zero]
        have : (m' : ℚ) ≠ 0 := by exact_mod_cast hm'.ne'
        cases s' <;> simp [unit] <;> field_simp
      rw [hdiv, hvalue]
      exact rounds_roundWithAccuracy (s / s') (stands_fraction hm') (le_target_div hm hm' htarget)

theorem lt_of_exponent_lt {s s' : Sign} {m m' : ℕ} {e e' : ℤ} {hm : 0 < m} {hm' : 0 < m'}
    (h : IsDouble (.finite s m e hm)) (h' : IsDouble (.finite s' m' e' hm')) (hlt : e < e') :
    (m : ℚ) * 2 ^ e < m' * 2 ^ e' := by
  obtain ⟨hbits, hleast, -, -⟩ := h
  obtain ⟨-, -, -, hnormal⟩ := h'
  have hlow : (m : ℚ) < 2 ^ 53 := by exact_mod_cast hbits
  have hhigh : (2 : ℚ) ^ 52 ≤ m' := by exact_mod_cast hnormal.resolve_left (by omega)
  have hpow : (2 : ℚ) ^ e * 2 ≤ 2 ^ e' := by
    rw [← zpow_add_one₀ two_ne_zero]
    exact zpow_le_zpow_right₀ one_le_two hlt
  have hunit : (0 : ℚ) < 2 ^ e := by positivity
  calc (m : ℚ) * 2 ^ e < 2 ^ 53 * 2 ^ e := mul_lt_mul_of_pos_right hlow hunit
    _ = 2 ^ 52 * (2 ^ e * 2) := by ring
    _ ≤ m' * 2 ^ e' := mul_le_mul hhigh hpow (by positivity) (by positivity)

/-- The exponent decides, and the mantissa if the exponents are the same. -/
theorem compare_magnitudes {s s' : Sign} {m m' : ℕ} {e e' : ℤ} {hm : 0 < m} {hm' : 0 < m'}
    (h : IsDouble (.finite s m e hm)) (h' : IsDouble (.finite s' m' e' hm')) :
    (compare e e').then (compare m m') = compare ((m : ℚ) * 2 ^ e) (m' * 2 ^ e') := by
  rcases lt_trichotomy e e' with hlt | rfl | hgt
  · rw [compare_lt_iff_lt.mpr hlt, compare_lt_iff_lt.mpr (lt_of_exponent_lt h h' hlt)]
    rfl
  · have hunit : (0 : ℚ) < 2 ^ e := by positivity
    rw [compare_eq_iff_eq.mpr rfl, Ordering.eq_then]
    rcases lt_trichotomy m m' with hlt | rfl | hgt
    · rw [compare_lt_iff_lt.mpr hlt, compare_lt_iff_lt.mpr]
      exact mul_lt_mul_of_pos_right (by exact_mod_cast hlt) hunit
    · rw [compare_eq_iff_eq.mpr rfl, compare_eq_iff_eq.mpr rfl]
    · rw [compare_gt_iff_gt.mpr hgt, compare_gt_iff_gt.mpr]
      exact mul_lt_mul_of_pos_right (by exact_mod_cast hgt) hunit
  · rw [compare_gt_iff_gt.mpr hgt, compare_gt_iff_gt.mpr (lt_of_exponent_lt h' h hgt)]
    rfl

theorem value_positive {m : ℕ} {e : ℤ} (hm : 0 < m) : 0 < value (.finite .positive m e hm) := by
  rw [value, unit, one_mul]
  positivity

theorem value_negative {m : ℕ} {e : ℤ} (hm : 0 < m) : value (.finite .negative m e hm) < 0 := by
  rw [value, unit, neg_one_mul, neg_lt_zero]
  positivity

theorem compare_neg (x y : ℚ) : compare (-x) (-y) = (compare x y).swap := by
  rcases lt_trichotomy x y with hlt | rfl | hgt
  · rw [compare_lt_iff_lt.mpr hlt, compare_gt_iff_gt.mpr (neg_lt_neg hlt)]
    rfl
  · rw [compare_eq_iff_eq.mpr rfl, compare_eq_iff_eq.mpr rfl]
    rfl
  · rw [compare_gt_iff_gt.mpr hgt, compare_lt_iff_lt.mpr (neg_lt_neg hgt)]
    rfl

theorem compare_eq (hu : IsDouble u) (hv : IsDouble v) :
    u.compare v = some (compare (value u) (value v)) := by
  have hlt : value u < value v → some .lt = some (compare (value u) (value v)) :=
    fun h => congrArg some (compare_lt_iff_lt.mpr h).symm
  have hgt : value v < value u → some .gt = some (compare (value u) (value v)) :=
    fun h => congrArg some (compare_gt_iff_gt.mpr h).symm
  cases hu using IsDouble.elim with
  | zero s =>
    cases hv using IsDouble.elim with
    | zero s' => exact congrArg some (compare_eq_iff_eq.mpr rfl).symm
    | finite s' m' e' hm' hv =>
      cases s' with
      | positive => exact hlt (value_positive hm')
      | negative => exact hgt (value_negative hm')
  | finite s m e hm hu =>
    cases hv using IsDouble.elim with
    | zero s' =>
      cases s with
      | positive => exact hgt (value_positive hm)
      | negative => exact hlt (value_negative hm)
    | finite s' m' e' hm' hv =>
      have hmagnitudes := compare_magnitudes hu hv
      cases s with
      | positive =>
        cases s' with
        | positive => simpa [UnpackedFloat.compare, value, unit] using hmagnitudes
        | negative => exact hgt ((value_negative hm').trans (value_positive hm))
      | negative =>
        cases s' with
        | positive => exact hlt ((value_negative hm).trans (value_positive hm'))
        | negative =>
          simp only [UnpackedFloat.compare, value, unit, neg_one_mul, compare_neg, hmagnitudes]

theorem le_iff (hu : IsDouble u) (hv : IsDouble v) : u.le v = true ↔ value u ≤ value v := by
  rw [UnpackedFloat.le, compare_eq hu hv]
  exact Std.LawfulBCmp.isLE_iff_le

end Rounding

namespace Binary64

open Rounding

variable {a b : Binary64}

theorem unpacked_lift {op : Float → Float → Float}
    {core : UnpackedFloat → UnpackedFloat → UnpackedFloat}
    (hop : ∀ x y : Float,
      (op x y).toModel.unpack = stored (core x.toModel.unpack y.toModel.unpack))
    (ha : a.isNaN = false) (hb : b.isNaN = false) :
    (lift op a b).unpacked = stored (core a.unpacked b.unpacked) := by
  rw [lift, ha, hb, if_neg Bool.false_ne_true, if_neg Bool.false_ne_true, unpacked_ofFloat, hop,
    unpack_toFloat, unpack_toFloat]

theorem unpacked_add (ha : a.isNaN = false) (hb : b.isNaN = false) :
    (a + b).unpacked = stored (UnpackedFloat.add .binary64 a.unpacked b.unpacked) :=
  unpacked_lift (fun _ _ => rfl) ha hb

theorem unpacked_sub (ha : a.isNaN = false) (hb : b.isNaN = false) :
    (a - b).unpacked = stored (UnpackedFloat.sub .binary64 a.unpacked b.unpacked) :=
  unpacked_lift (fun _ _ => rfl) ha hb

theorem unpacked_mul (ha : a.isNaN = false) (hb : b.isNaN = false) :
    (a * b).unpacked = stored (UnpackedFloat.mul .binary64 a.unpacked b.unpacked) :=
  unpacked_lift (fun _ _ => rfl) ha hb

theorem unpacked_div (ha : a.isNaN = false) (hb : b.isNaN = false) :
    (a / b).unpacked = stored (UnpackedFloat.div .binary64 a.unpacked b.unpacked) :=
  unpacked_lift (fun _ _ => rfl) ha hb

theorem rounds_add (ha : a.isFinite = true) (hb : b.isFinite = true) :
    Rounds (a.value + b.value) (a + b).unpacked := by
  rw [unpacked_add (isNaN_of_isFinite ha) (isNaN_of_isFinite hb)]
  exact Rounding.rounds_add (isDouble_unpacked ha) (isDouble_unpacked hb)

theorem rounds_sub (ha : a.isFinite = true) (hb : b.isFinite = true) :
    Rounds (a.value - b.value) (a - b).unpacked := by
  rw [unpacked_sub (isNaN_of_isFinite ha) (isNaN_of_isFinite hb)]
  exact Rounding.rounds_sub (isDouble_unpacked ha) (isDouble_unpacked hb)

theorem rounds_mul (ha : a.isFinite = true) (hb : b.isFinite = true) :
    Rounds (a.value * b.value) (a * b).unpacked := by
  rw [unpacked_mul (isNaN_of_isFinite ha) (isNaN_of_isFinite hb)]
  exact Rounding.rounds_mul (isDouble_unpacked ha) (isDouble_unpacked hb)

theorem rounds_div (ha : a.isFinite = true) (hb : b.isFinite = true) (hzero : b.value ≠ 0) :
    Rounds (a.value / b.value) (a / b).unpacked := by
  rw [unpacked_div (isNaN_of_isFinite ha) (isNaN_of_isFinite hb)]
  exact Rounding.rounds_div (isDouble_unpacked ha) (isDouble_unpacked hb) hzero

theorem toFloat_le_iff (a b : Binary64) :
    a.toFloat ≤ b.toFloat ↔ a.unpacked.le b.unpacked = true := by
  rw [← unpack_toFloat a, ← unpack_toFloat b]
  change decide (a.toFloat.toModel ≤ b.toFloat.toModel) = true ↔ _
  exact decide_eq_true_iff

theorem unpacked_of_infinite (hfinite : a.isFinite = false) (hnan : a.isNaN = false) :
    ∃ s, a.unpacked = .infinity s := by
  refine (unpacked_of_not_isFinite hfinite).resolve_right fun hu => ?_
  rw [isNaN_eq, hu] at hnan
  cases hnan

theorem not_isFinite_of_infinity {s : Sign} (h : a.unpacked = stored (.infinity s)) :
    a.isFinite = false := by
  have hnormalised : Normalised (.infinity s) := trivial
  rw [isFinite_eq, h, stored_eq hnormalised]
  rfl

theorem not_isFinite_add (ha : a.isFinite = true) (hb : b.isFinite = false) :
    (a + b).isFinite = false := by
  have hnan := isNaN_of_isFinite ha
  cases hb' : b.isNaN with
  | true =>
    have : a + b = b.quiet := by
      change lift _ a b = _
      rw [lift, hnan, hb', if_neg Bool.false_ne_true, if_pos rfl]
    rw [this, isFinite_quiet, hb]
  | false =>
    obtain ⟨s, hs⟩ := unpacked_of_infinite hb hb'
    refine not_isFinite_of_infinity (s := s) ?_
    rw [unpacked_add hnan hb', hs]
    have hu := isDouble_unpacked ha
    generalize a.unpacked = u at hu
    cases hu using IsDouble.elim <;> rfl

theorem not_isFinite_div (ha : a.isFinite = false) (hb : b.isFinite = true) :
    (a / b).isFinite = false := by
  have hnan := isNaN_of_isFinite hb
  cases ha' : a.isNaN with
  | true =>
    have : a / b = a.quiet := by
      change lift _ a b = _
      rw [lift, ha', if_pos rfl]
    rw [this, isFinite_quiet, ha]
  | false =>
    obtain ⟨s, hs⟩ := unpacked_of_infinite ha ha'
    have hquotient := unpacked_div ha' hnan
    have hv := isDouble_unpacked hb
    rw [hs] at hquotient
    generalize b.unpacked = v at hv hquotient
    cases hv using IsDouble.elim <;> exact not_isFinite_of_infinity hquotient

theorem value_ofNat {n : ℕ} (hn : n < 2 ^ 53) :
    (ofNat n).isFinite = true ∧ (ofNat n).value = n := by
  have hn' : (n : ℚ) < 2 ^ (53 : ℤ) := by exact_mod_cast hn
  have habs : |(n : ℚ)| = n * 2 ^ (0 : ℤ) := by simp
  have hlt : |(n : ℚ)| < Nearest.overflow := by
    rw [Nat.abs_cast]
    exact hn'.trans (Nearest.two_zpow_lt_overflow (by norm_num))
  -- a whole number is converted exactly, and then multiplied by one
  have hwhole : Rounds (n.toUInt64.toNat : ℚ) n.toUInt64.toFloat.toModel.unpack := by
    have := rounds_normalize n.toUInt64.toNat 0 .positive
    rwa [zpow_zero, mul_one, Int.cast_natCast] at this
  have hcast : n.toUInt64.toNat = n := by
    simp only [Nat.toUInt64, UInt64.toNat_ofNat']
    omega
  rw [hcast] at hwhole
  have hsame := hwhole.eq_of_double n 0 (by norm_num) hn habs hlt
  have hdouble := hwhole.isDouble (hwhole.finite_iff.mpr hlt)
  have hone : IsDouble (.finite .positive (2 ^ 52) (-52) (by decide)) := by
    simp [IsDouble]
  have hvalue : Rounding.value (.finite .positive (2 ^ 52) (-52) (by decide)) = 1 := by
    norm_num [Rounding.value, unit]
  have hrounds := Rounding.rounds_mul hdouble hone
  rw [hsame, hvalue, mul_one] at hrounds
  have hunpacked : (ofNat n).unpacked = stored (UnpackedFloat.mul .binary64
      n.toUInt64.toFloat.toModel.unpack (.finite .positive (2 ^ 52) (-52) (by decide))) := by
    have hscientific : Float.ofNat n =
        n.toUInt64.toFloat * Float.exactlyRepresentablePowersOfTen[0] := dif_pos ⟨hn, by decide⟩
    rw [ofNat, unpacked_ofFloat, hscientific]
    rfl
  rw [← hunpacked] at hrounds
  exact ⟨by rw [isFinite_eq, hrounds.finite_iff]; exact hlt,
    hrounds.eq_of_double n 0 (by norm_num) hn habs hlt⟩

theorem exists_nearest_ofNat {n : ℕ} (hn : 2 ^ 53 ≤ n) :
    ∃ k t, Nearest (n : ℚ) k t ∧ (ofNat n).unpacked = stored (assemble .positive k t) := by
  have htarget : (-53 : ℤ) ≤ target (n <<< 53) (-53) := by
    rw [target_eq, log2_shiftLeft (by omega)]
    omega
  obtain ⟨k, t, hnearest, hround⟩ := exists_nearest .positive (stands_exact (n <<< 53)) htarget
  have hsame : ((n <<< 53 : ℕ) : ℚ) * 2 ^ (-53 : ℤ) = n := by
    rw [Nat.shiftLeft_eq, zpow_neg]
    push_cast
    exact mul_inv_cancel_right₀ (by positivity) _
  refine ⟨k, t, hsame ▸ hnearest, ?_⟩
  have hscientific : Float.ofNat n = Float.ofModel (Float.Model.ofScientific n 0) :=
    dif_neg (by omega)
  have hproduct : UnpackedFloat.ofScientific .binary64 n 0 =
      roundWithAccuracy .binary64 .positive (n <<< 53 * 10 ^ 0) (-53 + 0) .exact := by
    have hbits : (2 : ℤ) ^ Format.binary64.exponentBits = 2048 := rfl
    rw [UnpackedFloat.ofScientific, dif_neg (by omega), if_neg (by omega), if_neg (by omega),
      if_pos le_rfl]
    rfl
  rw [pow_zero, mul_one, add_zero, hround] at hproduct
  rw [ofNat, unpacked_ofFloat, hscientific, ← hproduct]
  rfl

def isZero (x : Binary64) : Bool := x.exponentField == 0 && x.fractionField == 0

theorem isZero_iff (x : Binary64) : x.isZero = true ↔ ∃ s, x.unpacked = .zero s := by
  rw [unpacked_eq, isZero, Bool.and_eq_true, beq_iff_eq, beq_iff_eq]
  split
  · next hlast => split <;> simp [hlast]
  · split
    · next hsmall => split <;> simp_all
    · next hnormal => simp [hnormal]

/-- No positive number is so small among the whole ones that it becomes zero. -/
theorem isZero_ofNat {n : ℕ} (hn : 0 < n) : (ofNat n).isZero = false := by
  rw [Bool.eq_false_iff]
  intro hzero
  obtain ⟨s, hs⟩ := (isZero_iff _).mp hzero
  rcases lt_or_ge n (2 ^ 53) with hlt | hge
  · have hvalue := (value_ofNat hlt).2
    rw [value, hs] at hvalue
    exact hn.ne (Nat.cast_injective (R := ℚ) (Nat.cast_zero.trans hvalue))
  · obtain ⟨k, t, hnearest, hround⟩ := exists_nearest_ofNat hge
    have hk : 0 < k := by
      have hone : (1 : ℚ) ≤ n := by exact_mod_cast hn
      exact hnearest.pos ((zpow_le_one_of_nonpos₀ one_le_two (by norm_num)).trans hone)
    rw [hround, stored_eq (hnearest.normalised_assemble _), hnearest.settle_assemble] at hs
    unfold assemble at hs
    rw [dif_neg hk.ne'] at hs
    split at hs
    · cases hs
    · split at hs <;> cases hs

/-- The exponent field bounds the number. -/
theorem abs_value_le {k : ℕ} (hpos : 0 < k) (hk : k < 2047) (h : a.exponentField ≤ k) :
    |a.value| ≤ 2 ^ ((k : ℤ) - 1022) := by
  have hlt := a.fractionField_lt
  have hpow : ∀ {m : ℕ} {e : ℤ} (s : Sign) (hm : 0 < m), m < 2 ^ 53 → e ≤ (k : ℤ) - 1075 →
      |Rounding.value (.finite s m e hm)| ≤ 2 ^ ((k : ℤ) - 1022) := by
    intro m e s hm hbits he
    have hbits' : (m : ℚ) ≤ 2 ^ 53 := by exact_mod_cast hbits.le
    rw [Rounding.value, abs_unit_mul s (by positivity),
      show (k : ℤ) - 1022 = (53 : ℕ) + ((k : ℤ) - 1075) by push_cast; ring, zpow_add₀ two_ne_zero,
      zpow_natCast]
    exact mul_le_mul hbits' (zpow_le_zpow_right₀ one_le_two he) (by positivity) (by positivity)
  rw [value, unpacked_eq, if_neg (by omega)]
  split
  · split
    · simp only [Rounding.value, abs_zero]
      positivity
    · exact hpow _ _ (by omega) (by omega)
  · exact hpow _ _ (by omega) (by omega)

end Binary64
end RigBench
