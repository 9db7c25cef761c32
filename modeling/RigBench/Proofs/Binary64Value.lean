import RigBench.Binary64
import RigBench.Proofs.Rounding

/-!
The numbers that doubles stand for, and the arithmetic on them: the result of an operation is the
double next to the exact result.
-/
namespace RigBench

open Float.Model Float.Model.UnpackedFloat

namespace Binary64

def unpacked (x : Binary64) : UnpackedFloat := UnpackedFloat.unpack .binary64 x.bits.toBitVec

def sign (x : Binary64) : Sign := if x.isNegative then .negative else .positive

theorem toNat_unpackExponent (x : Binary64) :
    (@unpackExponent .binary64 x.bits.toBitVec).toNat = x.exponentField := by
  simp [unpackExponent, exponentField, BitVec.extractLsb, BitVec.extractLsb',
    UInt64.toNat_shiftRight]

theorem toNat_unpackMantissa (x : Binary64) :
    (@unpackMantissa .binary64 x.bits.toBitVec).toNat = x.fractionField := by
  simp [unpackMantissa, fractionField, BitVec.extractLsb, BitVec.extractLsb']

theorem ofBitVec_unpackSign (x : Binary64) :
    Sign.ofBitVec (@unpackSign .binary64 x.bits.toBitVec) = x.sign := by
  have hsign : (@unpackSign .binary64 x.bits.toBitVec).toNat =
      (x.bits >>> 63).toNat := by
    simp [unpackSign, BitVec.extractLsb, BitVec.extractLsb', UInt64.toNat_shiftRight]
    have := x.bits.toNat_lt
    omega
  have hpositive : @unpackSign .binary64 x.bits.toBitVec = 0#1 ↔
      ¬x.isNegative = true := by
    have hlt := x.bits.toNat_lt
    rw [BitVec.toNat_eq, hsign, isNegative, beq_iff_eq, ← UInt64.toNat_inj,
      UInt64.toNat_shiftRight, Nat.shiftRight_eq_div_pow]
    simp
    omega
  unfold Sign.ofBitVec sign
  simp only [hpositive, ite_not]

theorem exponentField_lt (x : Binary64) : x.exponentField < 2048 := Nat.mod_lt _ (by decide)

theorem fractionField_lt (x : Binary64) : x.fractionField < 2 ^ 52 := Nat.mod_lt _ (by decide)

theorem unpacked_eq (x : Binary64) :
    x.unpacked =
      if x.exponentField = 2047 then
        if x.fractionField = 0 then .infinity x.sign else .notANumber
      else if x.exponentField = 0 then
        if h : x.fractionField = 0 then .zero x.sign
        else .finite x.sign x.fractionField (-1074) (Nat.pos_of_ne_zero h)
      else .finite x.sign (x.fractionField + 4503599627370496) (x.exponentField - 1075)
        (Nat.succ_pos _) := by
  have hlast : @unpackExponent .binary64 x.bits.toBitVec = -1#11 ↔
      x.exponentField = 2047 := by
    rw [← toNat_unpackExponent, BitVec.toNat_eq]
    rfl
  have hfirst : @unpackExponent .binary64 x.bits.toBitVec = 0#11 ↔
      x.exponentField = 0 := by
    rw [← toNat_unpackExponent, BitVec.toNat_eq]
    rfl
  have hnone : @unpackMantissa .binary64 x.bits.toBitVec = 0#52 ↔
      x.fractionField = 0 := by
    rw [← toNat_unpackMantissa, BitVec.toNat_eq]
    rfl
  have himplicit : (1#1 ++ @unpackMantissa .binary64 x.bits.toBitVec).toNat =
      x.fractionField + 4503599627370496 := by
    rw [BitVec.toNat_append, toNat_unpackMantissa, ← Nat.shiftLeft_add_eq_or_of_lt]
    · simp [Nat.shiftLeft_eq, Nat.add_comm]
    · exact x.fractionField_lt
  unfold unpacked UnpackedFloat.unpack
  simp only [hlast, hfirst, hnone, ofBitVec_unpackSign, toNat_unpackExponent,
    toNat_unpackMantissa, himplicit]
  have hbias : Format.binary64.exponentBias = 1023 := rfl
  by_cases hzero : x.exponentField = 0 <;> simp [hbias, hzero]

def ofFields (s : Sign) (e : BitVec 11) (f : BitVec 52) : Binary64 :=
  ⟨⟨packComponents .binary64 s e f⟩⟩

variable {s : Sign} {e : BitVec 11} {f : BitVec 52}

@[simp] theorem exponentField_ofFields : (ofFields s e f).exponentField = e.toNat := by
  rw [← toNat_unpackExponent]
  exact congrArg BitVec.toNat unpackExponent_packComponents

@[simp] theorem fractionField_ofFields : (ofFields s e f).fractionField = f.toNat := by
  rw [← toNat_unpackMantissa]
  exact congrArg BitVec.toNat unpackMantissa_packComponents

@[simp] theorem sign_ofFields : (ofFields s e f).sign = s := by
  have hsign : @unpackSign .binary64 (ofFields s e f).bits.toBitVec = s.toBitVec :=
    @unpackSign_packComponents .binary64 s e f
  rw [← ofBitVec_unpackSign, hsign, Sign.ofBitVec_toBitVec]

end Binary64

namespace Rounding

/-- No bit of the mantissa is lacking. -/
def Normalised : UnpackedFloat → Prop
  | .finite _ m e _ => m < 2 ^ 53 ∧ -1074 ≤ e ∧ (e = -1074 ∨ 2 ^ 52 ≤ m)
  | _ => True

/-- A finite number that a double stands for. -/
def IsDouble : UnpackedFloat → Prop
  | .zero _ => True
  | .finite _ m e _ => m < 2 ^ 53 ∧ -1074 ≤ e ∧ e ≤ 971 ∧ (e = -1074 ∨ 2 ^ 52 ≤ m)
  | _ => False

@[elab_as_elim]
theorem IsDouble.elim {motive : (u : UnpackedFloat) → IsDouble u → Prop} {u : UnpackedFloat}
    (h : IsDouble u) (zero : ∀ s, motive (.zero s) trivial)
    (finite : ∀ s m e hm h, motive (.finite s m e hm) h) : motive u h := by
  cases u with
  | zero s => exact zero s
  | finite s m e hm => exact finite s m e hm h
  | infinity s => exact absurd h id
  | notANumber => exact absurd h id

/-- A number once it is packed into bits. -/
def stored (u : UnpackedFloat) : UnpackedFloat :=
  UnpackedFloat.unpack .binary64 (UnpackedFloat.pack .binary64 u)

/-- What is packed: the exponent does not go beyond 971. -/
def settle : UnpackedFloat → UnpackedFloat
  | .finite s m e h => if 971 < e then .infinity s else .finite s m e h
  | u => u

theorem stored_eq {u : UnpackedFloat} (h : Normalised u) : stored u = settle u := by
  cases u with
  | infinity s => cases s <;> rfl
  | notANumber => rfl
  | zero s => cases s <;> rfl
  | finite s m e hm =>
    obtain ⟨hbits, hleast, hnormal⟩ := h
    have hbias : (e + Format.binary64.exponentBias + (52 : ℕ)).toNat = (e + 1075).toNat := by
      change (e + 1023 + 52).toNat = _
      omega
    unfold stored UnpackedFloat.pack settle
    dsimp only
    rw [hbias]
    by_cases hgreat : 971 < e
    · rw [if_pos hgreat, if_pos (by omega)]
      cases s <;> rfl
    · rw [if_neg hgreat, if_neg (by omega)]
      split
      · next hlog =>
        have h52 : 2 ^ 52 ≤ m := by
          have hself := Nat.log2_self_le hm.ne'
          rwa [show m.log2 = 52 from Nat.succ.inj hlog] at hself
        have hexponent : (e + 1075).toNat % 2048 = (e + 1075).toNat := by omega
        have hfraction : m % 4503599627370496 + 4503599627370496 = m := by omega
        refine (Binary64.ofFields s (.ofNat 11 (e + 1075).toNat) (.ofNat 52 m)).unpacked_eq.trans ?_
        rw [if_neg, if_neg] <;> simp [hexponent, hfraction] <;> omega
      · next hlog =>
        have h52 : m < 2 ^ 52 := by
          rw [← Nat.log2_lt hm.ne']
          have := (Nat.log2_lt hm.ne').mpr hbits
          have : m.log2 + 1 ≠ 53 := hlog
          omega
        obtain rfl : e = -1074 := hnormal.resolve_right (by omega)
        have hfraction : m % 4503599627370496 = m := by omega
        refine (Binary64.ofFields s 0#11 (.ofNat 52 m)).unpacked_eq.trans ?_
        simp [hfraction, hm.ne']

theorem stored_of_isDouble {u : UnpackedFloat} (h : IsDouble u) : stored u = u := by
  cases h using IsDouble.elim with
  | zero s => exact stored_eq trivial
  | finite s m e hm h =>
    obtain ⟨hbits, hleast, hgreatest, hnormal⟩ := h
    have hnormalised : Normalised (.finite s m e hm) := ⟨hbits, hleast, hnormal⟩
    rw [stored_eq hnormalised, settle, if_neg (by omega)]

def unit : Sign → ℚ
  | .negative => -1
  | .positive => 1

def value : UnpackedFloat → ℚ
  | .finite s m e _ => unit s * (m * 2 ^ e)
  | _ => 0

@[simp] theorem abs_unit (s : Sign) : |unit s| = 1 := by cases s <;> simp [unit]

theorem abs_unit_mul (s : Sign) {x : ℚ} (hx : 0 ≤ x) : |unit s * x| = x := by
  rw [abs_mul, abs_unit, one_mul, abs_of_nonneg hx]

/-- The double that an exact result is rounded to: infinite exactly if that overflows, else of its
sign, not past a power of two, and the exact result itself if that is a double. -/
structure Rounds (q : ℚ) (u : UnpackedFloat) : Prop where
  notNaN : u.isNaN = false
  isDouble : u.isFinite = true → IsDouble u
  finite_iff : u.isFinite = true ↔ |q| < Nearest.overflow
  nonneg : 0 ≤ q → 0 ≤ value u
  nonpos : q ≤ 0 → value u ≤ 0
  le_two_zpow : ∀ j : ℤ, -1074 ≤ j → |q| ≤ 2 ^ j → |value u| ≤ 2 ^ j
  eq_of_double : ∀ (c : ℕ) (j : ℤ), -1074 ≤ j → c < 2 ^ 53 → |q| = c * 2 ^ j →
    |q| < Nearest.overflow → value u = q

theorem value_assemble (s : Sign) {n : ℕ} (t : ℤ) (hn : n ≤ 2 ^ 53) :
    value (assemble s n t) = unit s * (n * 2 ^ t) := by
  unfold assemble
  split
  · next hzero => simp [value, hzero]
  · split
    · rfl
    · obtain rfl : n = 2 ^ 53 := by omega
      rw [value, zpow_add_one₀ two_ne_zero]
      push_cast
      ring

theorem Nearest.normalised_assemble {x : ℚ} {n : ℕ} {t : ℤ} (h : Nearest x n t) (s : Sign) :
    Normalised (assemble s n t) := by
  have hleast := h.least
  unfold assemble
  split
  · trivial
  · split
    · next hlt => exact ⟨hlt, hleast, h.normalised⟩
    · exact ⟨by decide, by omega, .inr le_rfl⟩

theorem Nearest.settle_assemble {x : ℚ} {n : ℕ} {t : ℤ} (h : Nearest x n t) (s : Sign) :
    settle (assemble s n t) = if overflow ≤ x then .infinity s else assemble s n t := by
  have hoverflow := h.overflow_le_iff
  have hnormalised := h.normalised
  have hn := h.mantissa_le
  unfold assemble
  split
  · have hsmall : ¬overflow ≤ x := by
      rw [← hoverflow]
      omega
    rw [if_neg hsmall]
    rfl
  · split
    · next hlt => simp only [settle, ← hoverflow, hlt.ne, and_false, or_false]
    · have : 971 < t + 1 ↔ overflow ≤ x := by
        rw [← hoverflow]
        omega
      simp only [settle, this]

theorem Nearest.isDouble_assemble {x : ℚ} {n : ℕ} {t : ℤ} (h : Nearest x n t)
    (hx : ¬overflow ≤ x) (s : Sign) : IsDouble (assemble s n t) := by
  have hleast := h.least
  have hoverflow := h.overflow_le_iff.not.mpr hx
  have hn := h.mantissa_le
  unfold assemble
  split
  · trivial
  · split
    · next hlt => exact ⟨hlt, hleast, by omega, h.normalised⟩
    · exact ⟨by decide, by omega, by omega, .inr le_rfl⟩

theorem Nearest.rounds {x : ℚ} {n : ℕ} {t : ℤ} (h : Nearest x n t) (hx : 0 ≤ x) (s : Sign) :
    Rounds (unit s * x) (stored (assemble s n t)) := by
  have hvalue := value_assemble s t h.mantissa_le
  have hpos : (0 : ℚ) ≤ n * 2 ^ t := by positivity
  rw [stored_eq (h.normalised_assemble s), h.settle_assemble s]
  split
  · next hover =>
    have habs := abs_unit_mul s hx
    exact
      { notNaN := rfl
        isDouble := fun hinfinite => Bool.noConfusion hinfinite
        finite_iff := by simp [habs, UnpackedFloat.isFinite, hover]
        nonneg := fun _ => le_rfl
        nonpos := fun _ => le_rfl
        le_two_zpow := fun j _ _ => by simp [value]; positivity
        eq_of_double := fun c j _ _ _ hlt => absurd hover (by rw [habs] at hlt; linarith) }
  · next hlt =>
    have habs := abs_unit_mul s hx
    have hfinite : (assemble s n t).isFinite = true ∧ (assemble s n t).isNaN = false := by
      unfold assemble
      split
      · exact ⟨rfl, rfl⟩
      · split <;> exact ⟨rfl, rfl⟩
    have hzero : x = 0 → n = 0 := fun hx => Nat.le_zero.mp (h.le_of_le (by simp [hx]))
    refine ⟨hfinite.2, fun _ => h.isDouble_assemble hlt s, ?_, ?_, ?_, ?_, ?_⟩
    · simp [hfinite.1, habs, not_le.mp hlt]
    · rw [hvalue]
      intro hq
      cases s with
      | positive => simpa [unit] using hpos
      | negative =>
        have hn := hzero (le_antisymm (by simpa [unit] using hq) hx)
        simp [hn]
    · rw [hvalue]
      intro hq
      cases s with
      | positive =>
        have hn := hzero (le_antisymm (by simpa [unit] using hq) hx)
        simp [hn]
      | negative => simpa [unit] using hpos
    · intro j hj hle
      rw [hvalue, abs_unit_mul s hpos]
      exact h.le_two_zpow hj (habs ▸ hle)
    · intro c j hj hc heq _
      rw [hvalue, h.eq_of_double hj hc (habs ▸ heq)]

end Rounding

namespace Binary64

open Rounding

def value (x : Binary64) : ℚ := Rounding.value x.unpacked

theorem isFinite_eq (x : Binary64) : x.isFinite = x.unpacked.isFinite := by
  rw [unpacked_eq, isFinite]
  split
  · next hlast => split <;> simp [UnpackedFloat.isFinite, hlast]
  · next hlast =>
    split
    · split <;> simp [UnpackedFloat.isFinite, hlast]
    · simp [UnpackedFloat.isFinite, hlast]

theorem isNaN_eq (x : Binary64) : x.isNaN = x.unpacked.isNaN := by
  rw [unpacked_eq, isNaN]
  split
  · next hlast => split <;> simp_all [UnpackedFloat.isNaN]
  · next hlast =>
    split
    · split <;> simp [UnpackedFloat.isNaN, hlast]
    · simp [UnpackedFloat.isNaN, hlast]

theorem isNaN_of_isFinite {x : Binary64} (h : x.isFinite = true) : x.isNaN = false := by
  have hlast : x.exponentField ≠ 2047 := by simpa [isFinite] using h
  simp [isNaN, hlast]

theorem isDouble_unpacked {x : Binary64} (h : x.isFinite = true) : IsDouble x.unpacked := by
  have hlast : x.exponentField ≠ 2047 := by simpa [isFinite] using h
  have hexponent := x.exponentField_lt
  have hfraction := x.fractionField_lt
  rw [unpacked_eq, if_neg hlast]
  split
  · split
    · trivial
    · exact ⟨by omega, le_rfl, by omega, .inl rfl⟩
  · exact ⟨by omega, by omega, by omega, .inr (by omega)⟩

theorem unpacked_of_not_isFinite {x : Binary64} (h : x.isFinite = false) :
    (∃ s, x.unpacked = .infinity s) ∨ x.unpacked = .notANumber := by
  rw [isFinite_eq] at h
  cases hu : x.unpacked with
  | infinity s => exact .inl ⟨s, rfl⟩
  | notANumber => exact .inr rfl
  | zero s => simp [hu, UnpackedFloat.isFinite] at h
  | finite s m e hm => simp [hu, UnpackedFloat.isFinite] at h

/-- Every NaN of the bench is the one NaN of the arithmetic. -/
theorem unpack_toFloat (x : Binary64) : x.toFloat.toModel.unpack = x.unpacked := by
  change stored x.unpacked = x.unpacked
  cases hx : x.isFinite with
  | true => exact stored_of_isDouble (isDouble_unpacked hx)
  | false =>
    rcases unpacked_of_not_isFinite hx with ⟨s, hu⟩ | hu <;> rw [hu]
    · exact stored_eq trivial
    · exact stored_eq trivial

theorem unpacked_ofFloat (f : Float) : (ofFloat f).unpacked = f.toModel.unpack := by
  unfold ofFloat
  split
  · next hnan =>
    have hunpack : f.toModel.unpack = .notANumber := isNaN_iff.mp hnan
    rw [hunpack]
    rfl
  · rfl

end Binary64
end RigBench
