import RigBench.Decimal.Shortest

/-!
Doubles as text in positional notation, never with an exponent.
-/
namespace RigBench.Decimal

structure Layout where
  /-- Whole numbers end in `.0`. -/
  pointed : Bool

/-- Error messages write whole numbers without a point. -/
def plain : Layout := ⟨false⟩

/-- Numbers quoted from a configuration file always show a point. -/
def pointed : Layout := ⟨true⟩

def digitChar (d : Nat) : Char := Char.ofNat ('0'.toNat + d)

def zeros (n : Nat) : List Char := List.replicate n '0'

def Digits.render (layout : Layout) (x : Digits) : List Char :=
  let ds := x.digits.map digitChar
  if x.point ≤ 0 then '0' :: '.' :: zeros (-x.point).toNat ++ ds
  else
    let whole := x.point.toNat
    if ds.length ≤ whole then
      ds ++ zeros (whole - ds.length) ++ (if layout.pointed then ['.', '0'] else [])
    else ds.take whole ++ '.' :: ds.drop whole

/-- A double written out: NaN and the infinities by name, a zero with its sign. -/
def render (layout : Layout) (x : Binary64) : String :=
  if x.isNaN then "NaN"
  else
    let sign := if x.isNegative then "-" else ""
    if !x.isFinite then sign ++ "inf"
    else
      let s := Scaled.ofBinary64 x
      if s.significand = 0 then sign ++ (if layout.pointed then "0.0" else "0")
      else sign ++ String.ofList (s.shortest.render layout)

end RigBench.Decimal
