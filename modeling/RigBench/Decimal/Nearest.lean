import RigBench.Binary64

/-!
The double nearest to a decimal.
-/
namespace RigBench.Decimal

/-- The double nearest to `significand * 10 ^ exponent` with a sign, infinite when it is too large.
Numbers far outside the range of doubles are not computed. -/
def nearest (negative : Bool) (significand : Nat) (exponent : Int) : Binary64 :=
  let places : Int := (Nat.toDigits 10 significand).length + exponent
  let magnitude : Binary64 :=
    if significand = 0 || places < -400 then .zero
    else if 400 < places then ⟨0x7ff0000000000000⟩
    else if exponent < 0 then .ofFloat (Float.ofScientific significand true exponent.natAbs)
    else .ofFloat (Float.ofScientific significand false exponent.natAbs)
  if negative then -magnitude else magnitude

end RigBench.Decimal
