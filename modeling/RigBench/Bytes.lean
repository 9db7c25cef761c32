/-!
Whole numbers as bytes, most significant first, and how many bytes can be allocated at once.
-/
namespace RigBench

abbrev Bytes := List UInt8

namespace Bytes

/-- That many items of a size can be allocated at once. A program that asks for more is torn down,
however much memory there is. -/
def allocatable (itemSize count : Nat) : Bool := decide (itemSize * count < Nat.pow 2 63)

/-- The last `width` base-256 digits of a number. -/
def ofNat (width n : Nat) : Bytes :=
  match width with
  | 0 => []
  | width + 1 => ofNat width (n / 256) ++ [.ofNat n]

def toNat (bs : Bytes) : Nat := bs.foldl (fun n b => n * 256 + b.toNat) 0

@[simp] theorem length_ofNat (width n : Nat) : (ofNat width n).length = width := by
  induction width generalizing n with
  | zero => rfl
  | succ width ih => simp [ofNat, ih]

theorem toNat_append_singleton (bs : Bytes) (b : UInt8) :
    toNat (bs ++ [b]) = toNat bs * 256 + b.toNat := by
  simp [toNat]

theorem toNat_ofNat (width n : Nat) : toNat (ofNat width n) = n % Nat.pow 256 width := by
  induction width generalizing n with
  | zero => exact (Nat.mod_one n).symm
  | succ width ih =>
    rw [ofNat, toNat_append_singleton, ih, UInt8.toNat_ofNat']
    rw [show Nat.pow 256 (width + 1) = 256 * Nat.pow 256 width from Nat.mul_comm _ _,
      Nat.mod_mul, Nat.mul_comm (n / 256 % _)]
    omega

end Bytes
end RigBench
