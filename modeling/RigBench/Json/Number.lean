import RigBench.Binary64

/-!
Numbers of a JSON document: their digits, and what they are worth.

A number is worth its leading digits, as many as fit 64 bits, as a double, multiplied or divided
once by the power of ten that its point and exponent call for.
-/
namespace RigBench.Json

structure Number where
  negative : Bool
  whole : List Nat
  fraction : Option (List Nat)
  /-- The exponent with its sign; `true` is negative. -/
  exponent : Option (Bool × List Nat)
  deriving DecidableEq

def digitsValue (ds : List Nat) : Nat := ds.foldl (fun n d => n * 10 + d) 0

/-- Append digits to a number while it stays below `2 ^ 64`; the rest is left over. -/
def appendDigits (n : Nat) : List Nat → Nat × List Nat
  | [] => (n, [])
  | d :: ds =>
    if n * 10 + d < 18446744073709551616 then appendDigits (n * 10 + d) ds else (n, d :: ds)

/-- `10 ^ n` as a double, for `n` up to 308. -/
def powerOfTen (n : Nat) : Binary64 := .ofFloat (Float.ofScientific 1 false n)

/-- Divide by `10 ^ n`, by at most `10 ^ 308` at a time. Below `2 ^ 64` three divisions reach
zero. -/
def divideByPower (fuel : Nat) (x : Binary64) (n : Nat) : Binary64 :=
  if n ≤ 308 then x / powerOfTen n
  else match fuel with
    | 0 => .zero
    | fuel + 1 => if x = .zero then .zero else divideByPower fuel (x / powerOfTen 308) (n - 308)

/-- A whole number times a power of ten; nothing when the double would be infinite. -/
def scaled (significand : Nat) (exponent : Int) : Option Binary64 :=
  let x := Binary64.ofNat significand
  if exponent < 0 then some (divideByPower 3 x exponent.natAbs)
  else if exponent ≤ 308 then
    let y := x * powerOfTen exponent.natAbs
    if y.isFinite then some y else none
  else if significand = 0 then some .zero
  else none

namespace Number

def asUInt64? (x : Number) : Option UInt64 :=
  match x.fraction, x.exponent, appendDigits 0 x.whole with
  | none, none, (n, []) => if x.negative then none else some (.ofNat n)
  | _, _, _ => none

def magnitude? (x : Number) : Option Binary64 :=
  let (n, rest) := appendDigits 0 x.whole
  let (n, point) := match x.fraction with
    | none => (n, (rest.length : Int))
    | some ds =>
      let (m, left) := appendDigits n ds
      (m, (rest.length : Int) - (ds.length - left.length : Int))
  match x.exponent with
  | none => scaled n point
  | some (negative, ds) =>
    let e := digitsValue ds
    if e < 2147483648 then scaled n (if negative then point - e else point + e)
    else if n = 0 || negative then some .zero
    else none

def asBinary64? (x : Number) : Option Binary64 :=
  x.magnitude?.map fun y => if x.negative then -y else y

end Number
end RigBench.Json
