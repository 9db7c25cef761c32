import Mathlib.Algebra.GroupWithZero.Nat
import RigBench.Binary64

/-!
The double that a single is widened to. Every finite number is a whole number of units, the least
positive number of its format being the unit; a unit of singles is `2 ^ 925` units of doubles.
-/
namespace RigBench

theorem log2_shiftLeft {n : Nat} (hn : n ≠ 0) (k : Nat) : (n <<< k).log2 = n.log2 + k := by
  have hpow := Nat.two_pow_pos k
  rw [Nat.shiftLeft_eq, Nat.log2_eq_iff (Nat.mul_ne_zero hn (Nat.ne_of_gt hpow))]
  constructor
  · calc 2 ^ (n.log2 + k) = 2 ^ n.log2 * 2 ^ k := Nat.pow_add ..
      _ ≤ n * 2 ^ k := Nat.mul_le_mul_right _ (Nat.log2_self_le hn)
  · calc n * 2 ^ k < 2 ^ (n.log2 + 1) * 2 ^ k :=
          Nat.mul_lt_mul_of_pos_right Nat.lt_log2_self hpow
      _ = 2 ^ (n.log2 + k + 1) := by rw [← Nat.pow_add, Nat.add_right_comm]

namespace Binary64

def units (x : Binary64) : Nat :=
  if x.exponentField = 0 then x.fractionField
  else (2 ^ 52 + x.fractionField) <<< (x.exponentField - 1)

theorem units_ne_zero {x : Binary64} (hx : x.exponentField ≠ 0) : x.units ≠ 0 := by
  rw [units, if_neg hx, Nat.shiftLeft_eq]
  exact Nat.mul_ne_zero (by omega) (Nat.ne_of_gt (Nat.two_pow_pos _))

/-- The exponent of a number is seen from the length of its units. -/
theorem log2_units {x : Binary64} (hx : x.exponentField ≠ 0) :
    x.units.log2 = x.exponentField + 51 := by
  have hfraction : x.fractionField < 2 ^ 52 := Nat.mod_lt _ (by decide)
  have hne : 2 ^ 52 + x.fractionField ≠ 0 := by omega
  have hlog : (2 ^ 52 + x.fractionField).log2 = 52 :=
    (Nat.log2_eq_iff hne).mpr ⟨by omega, by omega⟩
  rw [units, if_neg hx, log2_shiftLeft hne, hlog]
  omega

theorem log2_units_lt {x : Binary64} (hx : x.exponentField = 0) : x.units.log2 < 52 := by
  have hfraction : x.fractionField < 2 ^ 52 := Nat.mod_lt _ (by decide)
  rw [units, if_pos hx]
  by_cases hzero : x.fractionField = 0
  · rw [hzero]
    decide
  · exact (Nat.log2_lt hzero).mpr hfraction

theorem exponentField_eq_of_units {x y : Binary64} (h : x.units = y.units) :
    x.exponentField = y.exponentField := by
  by_cases hx : x.exponentField = 0
  · by_cases hy : y.exponentField = 0
    · rw [hx, hy]
    · have hlt := log2_units_lt hx
      rw [h, log2_units hy] at hlt
      omega
  · by_cases hy : y.exponentField = 0
    · have hlt := log2_units_lt hy
      rw [← h, log2_units hx] at hlt
      omega
    · have hlog := log2_units hx
      rw [h, log2_units hy] at hlog
      omega

theorem fractionField_eq_of_units {x y : Binary64} (h : x.units = y.units) :
    x.fractionField = y.fractionField := by
  have hexponent := exponentField_eq_of_units h
  unfold units at h
  rw [hexponent] at h
  split at h
  · exact h
  · rw [Nat.shiftLeft_eq, Nat.shiftLeft_eq] at h
    exact Nat.add_left_cancel (Nat.eq_of_mul_eq_mul_right (Nat.two_pow_pos _) h)

theorem eq_of_fields {x y : Binary64} (hsign : x.isNegative = y.isNegative)
    (hexponent : x.exponentField = y.exponentField)
    (hfraction : x.fractionField = y.fractionField) : x = y := by
  have hx := x.bits.toNat_lt
  have hy := y.bits.toNat_lt
  obtain ⟨x⟩ := x
  obtain ⟨y⟩ := y
  rw [Bool.eq_iff_iff] at hsign
  simp only [isNegative, exponentField, fractionField, beq_iff_eq, ← UInt64.toNat_inj,
    UInt64.toNat_shiftRight, Nat.shiftRight_eq_div_pow] at hsign hexponent hfraction
  simp at hsign hexponent hfraction hx hy
  congr 1
  rw [← UInt64.toNat_inj]
  omega

theorem isFinite_quiet (x : Binary64) : x.quiet.isFinite = x.isFinite := by
  have hbits : (x.bits ||| 0x0008000000000000) >>> 52 = x.bits >>> 52 := by
    rw [← UInt64.toNat_inj, UInt64.toNat_shiftRight, UInt64.toNat_shiftRight, UInt64.toNat_or,
      Nat.shiftRight_or_distrib]
    simp
  simp [isFinite, exponentField, quiet, hbits]

end Binary64

namespace Binary32

def isFinite (x : Binary32) : Bool := x.exponentField != 255

def units (x : Binary32) : Nat :=
  if x.exponentField = 0 then x.fractionField
  else (2 ^ 23 + x.fractionField) <<< (x.exponentField - 1)

/-- Both are finite and stand for the same number, a zero of either sign being one of its own. -/
structure SameNumber (x : Binary32) (y : Binary64) : Prop where
  single : x.isFinite = true
  double : y.isFinite = true
  sign : y.isNegative = x.isNegative
  units : y.units = x.units <<< 925

theorem fractionField_lt (x : Binary32) : x.fractionField < 2 ^ 23 := Nat.mod_lt _ (by decide)

theorem exponentField_lt_of_isFinite {x : Binary32} (hx : x.isFinite = true) :
    x.exponentField < 255 := by
  have hlt : x.exponentField < 256 := Nat.mod_lt _ (by decide)
  have hne : x.exponentField ≠ 255 := bne_iff_ne.mp hx
  omega

section Pack

variable (negative : Bool) {e f : Nat}

theorem exponentField_pack (he : e < 2048) (hf : f < 2 ^ 52) :
    (pack negative e f).exponentField = e := by
  cases negative <;>
    simp [pack, Binary64.exponentField, UInt64.toNat_shiftRight, Nat.shiftRight_eq_div_pow] <;>
    omega

theorem fractionField_pack (hf : f < 2 ^ 52) : (pack negative e f).fractionField = f := by
  cases negative <;> simp [pack, Binary64.fractionField] <;> omega

theorem isNegative_pack (he : e < 2048) (hf : f < 2 ^ 52) :
    (pack negative e f).isNegative = negative := by
  rw [Bool.eq_iff_iff, Binary64.isNegative, beq_iff_eq, ← UInt64.toNat_inj,
    UInt64.toNat_shiftRight, Nat.shiftRight_eq_div_pow]
  cases negative <;> simp [pack] <;> omega

theorem isFinite_pack (he : e < 2048) (hf : f < 2 ^ 52) :
    (pack negative e f).isFinite = (e != 2047) := by
  rw [Binary64.isFinite, exponentField_pack negative he hf]

end Pack

theorem isFinite_widen_of_not_isFinite {x : Binary32} (hx : x.isFinite = false) :
    x.widen.isFinite = false := by
  have hfraction := x.fractionField_lt
  have hwide : (pack x.isNegative 2047 (x.fractionField * 536870912)).isFinite = false := by
    rw [isFinite_pack _ (by decide) (by omega)]
    rfl
  have hlast : x.exponentField = 255 := by simpa [isFinite] using hx
  unfold widen
  dsimp only
  rw [if_pos hlast]
  split
  · exact hwide
  · rw [Binary64.isFinite_quiet, hwide]

/-- The leading bit of a fraction without a hidden one becomes the hidden bit of the double. -/
theorem add_shiftLeft_leading {f : Nat} (hpos : f ≠ 0) (hlt : f < 2 ^ 23) :
    (f - 1 <<< f.log2) <<< (52 - f.log2) < 2 ^ 52 ∧
      2 ^ 52 + (f - 1 <<< f.log2) <<< (52 - f.log2) = f <<< (52 - f.log2) := by
  have htop : f.log2 < 23 := (Nat.log2_lt hpos).mpr hlt
  have hlow : 2 ^ f.log2 ≤ f := Nat.log2_self_le hpos
  have hhigh : f < 2 ^ (f.log2 + 1) := Nat.lt_log2_self
  generalize f.log2 = top at htop hlow hhigh
  rw [Nat.pow_succ] at hhigh
  have hwhole : 2 ^ top * 2 ^ (52 - top) = 2 ^ 52 := by
    rw [← Nat.pow_add, Nat.add_sub_cancel' (by omega)]
  rw [Nat.shiftLeft_eq, Nat.shiftLeft_eq, Nat.shiftLeft_eq, Nat.one_mul, ← hwhole, ← Nat.add_mul,
    Nat.add_sub_cancel' hlow]
  exact ⟨Nat.mul_lt_mul_of_pos_right (by omega) (Nat.two_pow_pos _), rfl⟩

theorem exists_widen_eq_pack {x : Binary32} (hx : x.isFinite = true) :
    ∃ e f, e < 2047 ∧ f < 2 ^ 52 ∧ x.widen = pack x.isNegative e f ∧
      (if e = 0 then f else (2 ^ 52 + f) <<< (e - 1)) = x.units <<< 925 := by
  have hfraction := x.fractionField_lt
  have hexponent := exponentField_lt_of_isFinite hx
  unfold widen units
  dsimp only
  rw [if_neg (by omega)]
  by_cases hzero : x.exponentField = 0
  · rw [if_pos hzero, if_pos hzero]
    by_cases hnone : x.fractionField = 0
    · rw [if_pos hnone, hnone]
      exact ⟨0, 0, by decide, by decide, rfl, rfl⟩
    · have htop : x.fractionField.log2 < 23 := (Nat.log2_lt hnone).mpr hfraction
      obtain ⟨hlt, hleading⟩ := add_shiftLeft_leading hnone hfraction
      rw [if_neg hnone]
      refine ⟨_, _, by omega, hlt, rfl, ?_⟩
      rw [if_neg (by omega), hleading, ← Nat.shiftLeft_add,
        show 52 - x.fractionField.log2 + (874 + x.fractionField.log2 - 1) = 925 by omega]
  · rw [if_neg hzero, if_neg hzero]
    have hhidden : 2 ^ 52 + x.fractionField * 536870912 = (2 ^ 23 + x.fractionField) <<< 29 := by
      rw [Nat.shiftLeft_eq]
      omega
    refine ⟨_, _, by omega, by omega, rfl, ?_⟩
    rw [if_neg (by omega), hhidden, ← Nat.shiftLeft_add, ← Nat.shiftLeft_add,
      show 29 + (x.exponentField + 896 - 1) = x.exponentField - 1 + 925 by omega]

theorem sameNumber_widen {x : Binary32} (hx : x.isFinite = true) : x.SameNumber x.widen := by
  obtain ⟨e, f, he, hf, hwiden, hunits⟩ := exists_widen_eq_pack hx
  have he' : e < 2048 := by omega
  rw [hwiden]
  refine ⟨hx, ?_, isNegative_pack _ he' hf, ?_⟩
  · rw [isFinite_pack _ he' hf, bne_iff_ne]
    omega
  · rw [Binary64.units, exponentField_pack _ he' hf, fractionField_pack _ hf, hunits]

theorem sameNumber_iff {x : Binary32} {y : Binary64} :
    x.SameNumber y ↔ y = x.widen ∧ y.isFinite = true := by
  constructor
  · intro h
    have hwiden := sameNumber_widen h.single
    have hunits : y.units = x.widen.units := h.units.trans hwiden.units.symm
    exact ⟨Binary64.eq_of_fields (h.sign.trans hwiden.sign.symm)
      (Binary64.exponentField_eq_of_units hunits) (Binary64.fractionField_eq_of_units hunits),
      h.double⟩
  · rintro ⟨rfl, hfinite⟩
    cases hx : x.isFinite with
    | false =>
      rw [isFinite_widen_of_not_isFinite hx] at hfinite
      cases hfinite
    | true => exact sameNumber_widen hx

theorem log2_units_le {x : Binary32} (hx : x.isFinite = true) (hne : x.units ≠ 0) :
    x.units.log2 ≤ 276 := by
  have hfraction := x.fractionField_lt
  have hexponent := exponentField_lt_of_isFinite hx
  unfold units at hne ⊢
  split at hne
  · next hzero =>
    have := (Nat.log2_lt hne).mpr hfraction
    rw [if_pos hzero]
    omega
  · next hzero =>
    have hpos : 2 ^ 23 + x.fractionField ≠ 0 := by omega
    have hlog : (2 ^ 23 + x.fractionField).log2 < 24 := (Nat.log2_lt hpos).mpr (by omega)
    rw [if_neg hzero, log2_shiftLeft hpos]
    omega

/-- The number of a single is below `2 ^ 128`. -/
theorem SameNumber.exponentField_le {x : Binary32} {y : Binary64} (h : x.SameNumber y) :
    y.exponentField ≤ 1150 := by
  by_cases hy : y.exponentField = 0
  · omega
  have hne : x.units ≠ 0 := by
    intro hzero
    have hunits := h.units
    rw [hzero, Nat.zero_shiftLeft] at hunits
    exact Binary64.units_ne_zero hy hunits
  have hlog := Binary64.log2_units hy
  rw [h.units, log2_shiftLeft hne] at hlog
  have := log2_units_le h.single hne
  omega

end Binary32
end RigBench
