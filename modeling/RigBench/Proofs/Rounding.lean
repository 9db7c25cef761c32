import Mathlib

/-!
Rounding to the nearest double, as the arithmetic of `Float` does it: a number is cut to a mantissa
of 53 bits, half a unit goes to the even neighbour, and what is too great is infinite.
-/
namespace RigBench
namespace Rounding

open Float.Model Float.Model.UnpackedFloat

/-- A mantissa and the bit behind it, in half units. -/
def halves (em : ExtendedMantissa) : ℕ := 2 * em.mantissa + em.roundBit.toNat

/-- The number a mantissa was cut from: the sticky bit says whether it lies above the half units. -/
def Stands (em : ExtendedMantissa) (y : ℚ) : Prop :=
  if em.stickyBit then (halves em : ℚ) < 2 * y ∧ 2 * y < halves em + 1 else 2 * y = halves em

theorem Stands.mantissa_le {em : ExtendedMantissa} {y : ℚ} (h : Stands em y) :
    (em.mantissa : ℚ) ≤ y ∧ y < em.mantissa + 1 := by
  obtain ⟨m, r, s⟩ := em
  cases r <;> cases s <;> simp [Stands, halves] at h ⊢ <;> constructor <;> linarith

theorem Stands.shiftRightOne {em : ExtendedMantissa} {y : ℚ} (h : Stands em y) :
    Stands em.shiftRightOne (y / 2) := by
  have hhalves : halves em.shiftRightOne = em.mantissa := by
    have hmod := Nat.mod_two_eq_zero_or_one em.mantissa
    unfold halves ExtendedMantissa.shiftRightOne
    rcases hmod with h0 | h1
    · simp [h0]; omega
    · simp [h1]; omega
  unfold Stands
  rw [hhalves]
  obtain ⟨m, r, s⟩ := em
  cases r <;> cases s <;>
    simp [Stands, halves, ExtendedMantissa.shiftRightOne] at h ⊢ <;>
    first | linarith | (constructor <;> linarith)

theorem Stands.shiftRight {em : ExtendedMantissa} {y : ℚ} (h : Stands em y) (k : ℕ) :
    Stands (em >>> k) (y / 2 ^ k) := by
  change Stands (Nat.repeat ExtendedMantissa.shiftRightOne k em) _
  induction k with
  | zero => simpa [Nat.repeat] using h
  | succ k ih =>
    rw [pow_succ, ← div_div]
    exact ih.shiftRightOne

theorem Stands.roundedMantissa_le_iff {em : ExtendedMantissa} {y : ℚ} (h : Stands em y) (n : ℕ) :
    em.roundedMantissa ≤ n ↔ y < n + 1 / 2 ∨ (y = n + 1 / 2 ∧ n % 2 = 0) := by
  -- with the sticky bit the number lies between two half units, without it on one
  have hcut : ∀ k : ℕ, (k : ℚ) < 2 * y → 2 * y < k + 1 →
      ((y < n + 1 / 2 ∨ (y = n + 1 / 2 ∧ n % 2 = 0)) ↔ k < 2 * n + 1) := by
    intro k hlow hhigh
    constructor
    · intro hy
      have hle : 2 * y ≤ ((2 * n + 1 : ℕ) : ℚ) := by
        push_cast
        rcases hy with hy | ⟨hy, -⟩ <;> linarith
      exact_mod_cast hlow.trans_le hle
    · intro hk
      have hk' : (k : ℚ) + 1 ≤ ((2 * n + 1 : ℕ) : ℚ) := by exact_mod_cast hk
      push_cast at hk'
      exact .inl (by linarith)
  have hsame : ∀ k : ℕ, 2 * y = k →
      ((y < n + 1 / 2 ∨ (y = n + 1 / 2 ∧ n % 2 = 0)) ↔
        k < 2 * n + 1 ∨ (k = 2 * n + 1 ∧ n % 2 = 0)) := by
    intro k hk
    have hy : y = (k : ℚ) / 2 := by linarith
    have hlt : y < n + 1 / 2 ↔ k < 2 * n + 1 := by
      rw [hy, div_lt_iff₀ two_pos, show ((n : ℚ) + 1 / 2) * 2 = ((2 * n + 1 : ℕ) : ℚ) by
        push_cast; ring, Nat.cast_lt]
    have heq : y = n + 1 / 2 ↔ k = 2 * n + 1 := by
      rw [hy, div_eq_iff two_ne_zero, show ((n : ℚ) + 1 / 2) * 2 = ((2 * n + 1 : ℕ) : ℚ) by
        push_cast; ring, Nat.cast_inj]
    rw [hlt, heq]
  obtain ⟨m, r, s⟩ := em
  unfold Stands halves at h
  cases r <;> cases s <;>
    simp only [Bool.toNat_false, Bool.toNat_true, Nat.add_zero, Bool.false_eq_true, ↓reduceIte] at h
  all_goals
    first | rw [hsame _ h] | rw [hcut _ h.1 h.2]
    simp only [ExtendedMantissa.roundedMantissa, ExtendedMantissa.accuracy,
      Accuracy.roundToNearestEven]
    omega

theorem stands_exact (m : ℕ) : Stands (.ofMantissaAndAccuracy m .exact) m := by
  simp [Stands, halves, ExtendedMantissa.ofMantissaAndAccuracy]

theorem stands_fraction {m d : ℕ} (hd : 0 < d) :
    Stands (.ofMantissaAndAccuracy (m / d) (accuracyOfFraction (m % d) d)) ((m : ℚ) / d) := by
  have hd' : (0 : ℚ) < d := by exact_mod_cast hd
  have hlt : ((m % d : ℕ) : ℚ) < d := by exact_mod_cast Nat.mod_lt m hd
  have hparts : (m : ℚ) / d = (m / d : ℕ) + (m % d : ℕ) / d := by
    rw [div_eq_iff hd'.ne', add_mul, div_mul_cancel₀ _ hd'.ne', mul_comm]
    exact_mod_cast (Nat.div_add_mod m d).symm
  have hrest : ((m % d : ℕ) : ℚ) / d < 1 := (div_lt_one hd').mpr hlt
  unfold accuracyOfFraction
  split
  · next hzero =>
    rw [hparts, hzero, Nat.cast_zero, zero_div, add_zero]
    exact stands_exact (m / d)
  · next hnonzero =>
    have hpos : (0 : ℚ) < (m % d : ℕ) / d :=
      div_pos (by exact_mod_cast Nat.pos_of_ne_zero hnonzero) hd'
    rw [hparts]
    generalize hf : ((m % d : ℕ) : ℚ) / d = f at hrest hpos
    rw [div_eq_iff hd'.ne'] at hf
    rcases h : compare (2 * (m % d)) d with _ | _ | _
    · have hhalf : (2 * (m % d : ℕ) : ℚ) < d := by exact_mod_cast compare_lt_iff_lt.mp h
      have hf' : 2 * f < 1 := by nlinarith
      simp only [Stands, halves, ExtendedMantissa.ofMantissaAndAccuracy]
      simp
      constructor <;> linarith
    · have hhalf : (2 * (m % d : ℕ) : ℚ) = d := by exact_mod_cast compare_eq_iff_eq.mp h
      have hf' : 2 * f = 1 := by
        have : (2 * f - 1) * d = 0 := by linarith
        rcases mul_eq_zero.mp this with h | h
        · linarith
        · exact absurd h hd'.ne'
      simp only [Stands, halves, ExtendedMantissa.ofMantissaAndAccuracy]
      simp
      linarith
    · have hhalf : (d : ℚ) < 2 * (m % d : ℕ) := by exact_mod_cast compare_gt_iff_gt.mp h
      have hf' : 1 < 2 * f := by nlinarith
      simp only [Stands, halves, ExtendedMantissa.ofMantissaAndAccuracy]
      simp
      constructor <;> linarith

/-- The double `n * 2 ^ t` is the one next to `x`. -/
structure Nearest (x : ℚ) (n : ℕ) (t : ℤ) : Prop where
  least : -1074 ≤ t
  below : x < 2 ^ 53 * 2 ^ t
  normal : t = -1074 ∨ 2 ^ 52 * 2 ^ t ≤ x
  le_iff : ∀ k : ℕ, n ≤ k ↔ x < (k + 1 / 2) * 2 ^ t ∨ (x = (k + 1 / 2) * 2 ^ t ∧ k % 2 = 0)

def assemble (s : Sign) (n : ℕ) (t : ℤ) : UnpackedFloat :=
  if h : n = 0 then .zero s
  else if n < 2 ^ 53 then .finite s n t (Nat.pos_of_ne_zero h)
  else .finite s (2 ^ 52) (t + 1) (by decide)

/-- The least exponent at which the mantissa has no more than 53 bits. -/
def target (m : ℕ) (e : ℤ) : ℤ := Format.binary64.targetExponent (totalExponent m e)

theorem target_eq (m : ℕ) (e : ℤ) : target m e = max ((m.log2 : ℤ) + e - 52) (-1074) := by
  simp only [target, Format.targetExponent, totalExponent, Format.mantissaBits, Format.minExponent]
  norm_num
  omega

theorem shiftToTargetExponent_eq (m : ℕ) (e : ℤ) (a : Accuracy) :
    shiftToTargetExponent .binary64 m e a =
      (ExtendedMantissa.ofMantissaAndAccuracy m a >>> (target m e - e).toNat,
        e + (target m e - e).toNat) := rfl

theorem roundWithAccuracy_eq {s : Sign} {m n : ℕ} {e t : ℤ} {a : Accuracy} {em : ExtendedMantissa}
    (hshift : shiftToTargetExponent .binary64 m e a = (em, t)) (hn : em.roundedMantissa = n)
    (hle : n ≤ 2 ^ 53) (ht : -1074 ≤ t) :
    roundWithAccuracy .binary64 s m e a = assemble s n t := by
  unfold roundWithAccuracy
  rw [hshift]
  dsimp only
  rw [hn, shiftToTargetExponent_eq]
  rcases Nat.lt_or_eq_of_le hle with hlt | rfl
  · have hlog : n.log2 ≤ 52 := by
      rcases Nat.eq_zero_or_pos n with rfl | hpos
      · simp
      · have := (Nat.log2_lt hpos.ne').mpr hlt
        omega
    have hstay : (target n t - t).toNat = 0 := by
      rw [target_eq]
      omega
    rw [hstay]
    by_cases hzero : n = 0
    · subst hzero
      rfl
    · simpa [assemble, hzero, HShiftRight.hShiftRight, Nat.repeat,
        ExtendedMantissa.ofMantissaAndAccuracy] using hlt
  · have hone : (target (2 ^ 53) t - t).toNat = 1 := by
      rw [target_eq, Nat.log2_two_pow]
      omega
    rw [hone]
    rfl

theorem exists_nearest {m : ℕ} {e : ℤ} {a : Accuracy} {y : ℚ} (s : Sign)
    (h : Stands (.ofMantissaAndAccuracy m a) y) (he : e ≤ target m e) :
    ∃ n t, Nearest (y * 2 ^ e) n t ∧ roundWithAccuracy .binary64 s m e a = assemble s n t := by
  obtain ⟨k, hk⟩ : ∃ k : ℕ, target m e = e + k := ⟨(target m e - e).toNat, by omega⟩
  have htarget := target_eq m e
  have hfloor : (m : ℚ) ≤ y ∧ y < m + 1 := by
    have := h.mantissa_le
    cases a with
    | exact => exact this
    | inexact o => cases o <;> exact this
  have hz := (h.shiftRight k).roundedMantissa_le_iff
  generalize hem : ExtendedMantissa.ofMantissaAndAccuracy m a >>> k = em at hz
  have hshift : shiftToTargetExponent .binary64 m e a = (em, target m e) := by
    rw [shiftToTargetExponent_eq, ← hem, hk]
    simp
  -- the number in units of the last place
  have hx : y * 2 ^ e = y / 2 ^ k * 2 ^ target m e := by
    rw [hk, zpow_add₀ two_ne_zero, zpow_natCast]
    field_simp
  have hunit : (0 : ℚ) < 2 ^ target m e := by positivity
  have hbits : y / 2 ^ k < 2 ^ 53 := by
    have hlt : m + 1 ≤ 2 ^ (m.log2 + 1) := Nat.lt_log2_self
    have hpow : 2 ^ (m.log2 + 1) ≤ 2 ^ (53 + k) := Nat.pow_le_pow_right two_pos (by omega)
    have hcast : (m : ℚ) + 1 ≤ 2 ^ 53 * 2 ^ k := by
      rw [← pow_add]
      exact_mod_cast hlt.trans hpow
    rw [div_lt_iff₀ (by positivity)]
    linarith
  refine ⟨em.roundedMantissa, target m e, ⟨by omega, ?_, ?_, fun n => ?_⟩, ?_⟩
  · rw [hx]
    exact mul_lt_mul_of_pos_right hbits hunit
  · by_cases hleast : target m e = -1074
    · exact .inl hleast
    · refine .inr ?_
      have hlog : m.log2 = 52 + k := by omega
      have hm : 2 ^ (52 + k) ≤ m := hlog ▸ Nat.log2_self_le (by rintro rfl; simp at hlog; omega)
      have hcast : (2 : ℚ) ^ 52 * 2 ^ k ≤ m := by
        rw [← pow_add]
        exact_mod_cast hm
      rw [hx]
      refine mul_le_mul_of_nonneg_right ?_ hunit.le
      rw [le_div_iff₀ (by positivity)]
      linarith
  · rw [hz n, hx, mul_lt_mul_iff_left₀ hunit, mul_left_inj' hunit.ne']
  · refine roundWithAccuracy_eq hshift rfl ?_ (by omega)
    refine (hz _).mpr (.inl ?_)
    push_cast
    linarith

namespace Nearest

variable {x : ℚ} {n : ℕ} {t : ℤ}

theorem mantissa_le (h : Nearest x n t) : n ≤ 2 ^ 53 := by
  refine (h.le_iff _).mpr (.inl (h.below.trans_le ?_))
  refine mul_le_mul_of_nonneg_right ?_ (by positivity)
  push_cast
  linarith

theorem le_of_le (h : Nearest x n t) {k : ℕ} (hx : x ≤ k * 2 ^ t) : n ≤ k := by
  have hunit : (0 : ℚ) < 2 ^ t := by positivity
  exact (h.le_iff k).mpr (.inl (by nlinarith))

theorem le_of_ge (h : Nearest x n t) {k : ℕ} (hx : k * 2 ^ t ≤ x) : k ≤ n := by
  have hunit : (0 : ℚ) < 2 ^ t := by positivity
  rcases Nat.eq_zero_or_pos k with rfl | hpos
  · exact Nat.zero_le n
  · obtain ⟨k, rfl⟩ := Nat.exists_eq_succ_of_ne_zero hpos.ne'
    by_contra hlt
    push_cast at hx
    rcases (h.le_iff k).mp (by omega) with hbelow | ⟨heq, -⟩ <;> nlinarith

theorem pos (h : Nearest x n t) (hx : 2 ^ (-1074 : ℤ) ≤ x) : 0 < n := by
  refine h.le_of_ge (k := 1) ?_
  rw [Nat.cast_one, one_mul]
  rcases h.normal with rfl | hnormal
  · exact hx
  · have hunit : (0 : ℚ) < 2 ^ t := by positivity
    linarith

theorem normalised (h : Nearest x n t) : t = -1074 ∨ 2 ^ 52 ≤ n := by
  refine h.normal.imp_right fun hnormal => h.le_of_ge ?_
  exact_mod_cast hnormal

theorem le_two_zpow (h : Nearest x n t) {j : ℤ} (hj : -1074 ≤ j) (hx : x ≤ 2 ^ j) :
    (n : ℚ) * 2 ^ t ≤ 2 ^ j := by
  rcases lt_or_ge j t with hlt | hle
  · have hnormal : (2 : ℚ) ^ 52 * 2 ^ t ≤ x := h.normal.resolve_left (by omega)
    have hpow : (2 : ℚ) ^ j < 2 ^ t := zpow_lt_zpow_right₀ one_lt_two hlt
    have hunit : (0 : ℚ) < 2 ^ t := by positivity
    linarith
  · obtain ⟨k, rfl⟩ : ∃ k : ℕ, j = k + t := ⟨(j - t).toNat, by omega⟩
    rw [zpow_add₀ two_ne_zero, zpow_natCast] at hx ⊢
    have hn : n ≤ 2 ^ k := h.le_of_le (by exact_mod_cast hx)
    refine mul_le_mul_of_nonneg_right ?_ (by positivity)
    exact_mod_cast hn

theorem eq_of_double (h : Nearest x n t) {c : ℕ} {j : ℤ} (hj : -1074 ≤ j) (hc : c < 2 ^ 53)
    (hx : x = c * 2 ^ j) : (n : ℚ) * 2 ^ t = x := by
  have hc' : (c : ℚ) < 2 ^ 53 := by exact_mod_cast hc
  rcases lt_or_ge j t with hlt | hle
  · have hnormal : (2 : ℚ) ^ 52 * 2 ^ t ≤ x := h.normal.resolve_left (by omega)
    have hpow : (2 : ℚ) ^ (j + 1) ≤ 2 ^ t := zpow_le_zpow_right₀ one_le_two hlt
    have hunit : (0 : ℚ) < 2 ^ j := by positivity
    rw [zpow_add_one₀ two_ne_zero] at hpow
    nlinarith
  · obtain ⟨k, rfl⟩ : ∃ k : ℕ, j = k + t := ⟨(j - t).toNat, by omega⟩
    have hx' : x = (c * 2 ^ k : ℕ) * 2 ^ t := by
      rw [hx, zpow_add₀ two_ne_zero, zpow_natCast]
      push_cast
      ring
    rw [hx', le_antisymm (h.le_of_le hx'.le) (h.le_of_ge hx'.ge)]

/-- From here on a number is rounded to infinity: half a unit beyond the greatest double. -/
def overflow : ℚ := (2 ^ 54 - 1) * 2 ^ 970

theorem overflow_eq : overflow = (2 ^ 54 - 1) * 2 ^ (970 : ℤ) := by
  rw [overflow, show (970 : ℤ) = (970 : ℕ) from rfl, zpow_natCast]

theorem two_zpow_lt_overflow {j : ℤ} (hj : j ≤ 1023) : (2 : ℚ) ^ j < overflow := by
  have hsplit : (2 : ℚ) ^ (1023 : ℤ) = 2 ^ 53 * 2 ^ (970 : ℤ) := by
    rw [show (1023 : ℤ) = (53 : ℕ) + 970 from rfl, zpow_add₀ two_ne_zero, zpow_natCast]
  refine (zpow_le_zpow_right₀ one_le_two hj).trans_lt ?_
  rw [hsplit, overflow_eq]
  exact mul_lt_mul_of_pos_right (by norm_num) (by positivity)

theorem overflow_eq_half :
    overflow = (((2 ^ 53 - 1 : ℕ) : ℚ) + 1 / 2) * 2 ^ (971 : ℤ) := by
  rw [overflow_eq, show (971 : ℤ) = 970 + 1 from rfl, zpow_add_one₀ two_ne_zero]
  generalize (2 : ℚ) ^ (970 : ℤ) = unit
  push_cast
  ring

theorem overflow_le_iff (h : Nearest x n t) :
    971 < t ∨ (t = 971 ∧ n = 2 ^ 53) ↔ overflow ≤ x := by
  have hunit : (0 : ℚ) < 2 ^ (970 : ℤ) := by positivity
  constructor
  · rintro (hlt | ⟨rfl, rfl⟩)
    · have hnormal : (2 : ℚ) ^ 52 * 2 ^ t ≤ x := h.normal.resolve_left (by omega)
      have hpow : (2 : ℚ) ^ ((970 : ℤ) + 1 + 1) ≤ 2 ^ t := zpow_le_zpow_right₀ one_le_two hlt
      rw [zpow_add_one₀ two_ne_zero, zpow_add_one₀ two_ne_zero] at hpow
      rw [overflow_eq]
      generalize (2 : ℚ) ^ (970 : ℤ) = unit at hunit hpow ⊢
      linarith
    · by_contra hlt
      rw [not_le, overflow_eq_half] at hlt
      have := (h.le_iff (2 ^ 53 - 1)).mpr (.inl hlt)
      omega
  · intro hx
    rcases lt_trichotomy t 971 with hlt | rfl | hlt
    · have hpow : (2 : ℚ) ^ t ≤ 2 ^ (970 : ℤ) := zpow_le_zpow_right₀ one_le_two (by omega)
      have hbelow := h.below
      rw [overflow_eq] at hx
      generalize (2 : ℚ) ^ (970 : ℤ) = unit at hunit hpow hx
      linarith
    · refine .inr ⟨rfl, le_antisymm h.mantissa_le ?_⟩
      by_contra hn
      rcases (h.le_iff (2 ^ 53 - 1)).mp (by omega) with hbelow | ⟨-, heven⟩
      · rw [← overflow_eq_half] at hbelow
        linarith
      · exact absurd heven (by decide)
    · exact .inl hlt

end Nearest
end Rounding
end RigBench
