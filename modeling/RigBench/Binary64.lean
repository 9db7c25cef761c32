/-!
IEEE 754 double and single precision numbers by their bits. Frames carry every bit of a value,
also the payload of a NaN, so the bits are the value here; arithmetic is the hardware's.
-/
namespace RigBench

structure Binary64 where
  bits : UInt64
  deriving DecidableEq, Inhabited

structure Binary32 where
  bits : UInt32
  deriving DecidableEq, Inhabited

namespace Binary64

def zero : Binary64 := ⟨0⟩
def one : Binary64 := ⟨0x3ff0000000000000⟩
def hundred : Binary64 := ⟨0x4059000000000000⟩

def exponentField (x : Binary64) : Nat := (x.bits >>> 52).toNat % 2048

def fractionField (x : Binary64) : Nat := x.bits.toNat % 4503599627370496

def isNegative (x : Binary64) : Bool := x.bits >>> 63 == 1

def isFinite (x : Binary64) : Bool := x.exponentField != 2047

def isNaN (x : Binary64) : Bool := x.exponentField == 2047 && x.fractionField != 0

def toFloat (x : Binary64) : Float := Float.ofBits x.bits

/-- What an operation without a result gives: the quiet NaN of negative sign. -/
def indefinite : Binary64 := ⟨0xfff8000000000000⟩

/-- A NaN operand comes out quiet, its other bits kept. -/
def quiet (x : Binary64) : Binary64 := ⟨x.bits ||| 0x0008000000000000⟩

def ofFloat (f : Float) : Binary64 :=
  if f.isNaN then indefinite else ⟨f.toBits⟩

/-- Apply an operation on two numbers; a NaN among them is the result, the left one first. -/
def lift (op : Float → Float → Float) (a b : Binary64) : Binary64 :=
  if a.isNaN then a.quiet
  else if b.isNaN then b.quiet
  else ofFloat (op a.toFloat b.toFloat)

instance : Add Binary64 := ⟨lift (· + ·)⟩
instance : Sub Binary64 := ⟨lift (· - ·)⟩
instance : Mul Binary64 := ⟨lift (· * ·)⟩
instance : Div Binary64 := ⟨lift (· / ·)⟩

instance : Neg Binary64 := ⟨fun x => ⟨x.bits ^^^ 0x8000000000000000⟩⟩

def ofNat (n : Nat) : Binary64 := ofFloat (Float.ofNat n)

instance : NatCast Binary64 := ⟨ofNat⟩

def exp (x : Binary64) : Binary64 :=
  if x.isNaN then x.quiet else ofFloat x.toFloat.exp

end Binary64

namespace Binary32

def exponentField (x : Binary32) : Nat := (x.bits >>> 23).toNat % 256

def fractionField (x : Binary32) : Nat := x.bits.toNat % 8388608

def isNegative (x : Binary32) : Bool := x.bits >>> 31 == 1

def isNaN (x : Binary32) : Bool := x.exponentField == 255 && x.fractionField != 0

def pack (negative : Bool) (exponent fraction : Nat) : Binary64 :=
  ⟨.ofNat ((if negative then 9223372036854775808 else 0) + exponent * 4503599627370496 + fraction)⟩

/-- The double of the same value; every single has one. A NaN comes out quiet. -/
def widen (x : Binary32) : Binary64 :=
  let fraction := x.fractionField
  if x.exponentField = 255 then
    let wide := pack x.isNegative 2047 (fraction * 536870912)
    if fraction = 0 then wide else wide.quiet
  else if x.exponentField = 0 then
    if fraction = 0 then pack x.isNegative 0 0
    else
      let top := fraction.log2
      pack x.isNegative (874 + top) ((fraction - 1 <<< top) <<< (52 - top))
  else pack x.isNegative (x.exponentField + 896) (fraction * 536870912)

end Binary32
end RigBench
