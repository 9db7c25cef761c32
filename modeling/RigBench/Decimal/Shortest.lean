import RigBench.Binary64

/-!
The shortest decimal that reads back as a given double. A positive double is `m * 2 ^ q`; the
decimals that round to it fill an interval whose ends count when `m` is even. Of the grids of
1, 2, ... 17 significant digits the first with a point in the interval decides, and on it the
point nearest to the value.
-/
namespace RigBench.Decimal

/-- A positive number `0.d₁d₂… * 10 ^ point` with the digits most significant first. -/
structure Digits where
  digits : List Nat
  point : Int
  deriving DecidableEq, Repr

/-- A positive double as significand and binary exponent. `lowest` marks a power of two, whose
neighbour below is only half as far as the one above. -/
structure Scaled where
  significand : Nat
  exponent : Int
  lowest : Bool
  deriving DecidableEq, Repr

def Scaled.ofBinary64 (x : Binary64) : Scaled :=
  if x.exponentField = 0 then ⟨x.fractionField, -1074, false⟩
  else ⟨x.fractionField + 4503599627370496, x.exponentField - 1075,
    x.fractionField = 0 && 1 < x.exponentField⟩

/-- The value and the two ends of its interval as multiples of one unit, with the unit as a
fraction: `(low, value, high, numerator, denominator)`. -/
def Scaled.interval (s : Scaled) : Nat × Nat × Nat × Nat × Nat :=
  let value := 4 * s.significand
  let low := if s.lowest then value - 1 else value - 2
  let shift := s.exponent - 2
  (low, value, value + 2, Nat.pow 2 shift.toNat, Nat.pow 2 (-shift).toNat)

/-- The least `point` with `numerator / denominator < 10 ^ point`, for a fraction in
`[10 ^ -400, 10 ^ 400)`. -/
def magnitude (numerator denominator : Nat) : Int :=
  let rec up (fuel : Nat) (power : Nat) (point : Nat) : Nat :=
    match fuel with
    | 0 => point
    | fuel + 1 =>
      if numerator < power * denominator then point else up fuel (power * 10) (point + 1)
  let rec down (fuel : Nat) (scaled : Nat) (point : Nat) : Nat :=
    match fuel with
    | 0 => point
    | fuel + 1 => if denominator ≤ scaled then point else down fuel (scaled * 10) (point + 1)
  if denominator ≤ numerator then up 400 1 0
  else 1 - (down 400 numerator 0 : Int)

def digitsOf (n : Nat) : List Nat := (Nat.toDigits 10 n).map fun c => c.toNat - '0'.toNat

def trimZeros (ds : List Nat) : List Nat := (ds.reverse.dropWhile (· = 0)).reverse

/-- The point nearest to the value on the grid of `count` digits, if it lies in the interval; of
two equally near the larger. -/
def onGrid (s : Scaled) (point : Int) (count : Nat) : Option Nat :=
  let (low, value, high, num, den) := s.interval
  let step := point - count
  let up := Nat.pow 10 step.toNat
  let down := Nat.pow 10 (-step).toNat
  let scale := fun n : Nat => n * num * down
  let grid := den * up
  let below := scale value / grid
  let inside := fun k : Nat =>
    if s.significand % 2 = 0 then scale low ≤ k * grid && k * grid ≤ scale high
    else scale low < k * grid && k * grid < scale high
  let above := below + 1
  match inside below, inside above with
  | true, true =>
    if scale value - below * grid < above * grid - scale value then some below else some above
  | true, false => some below
  | false, true => some above
  | false, false => none

def Scaled.shortest (s : Scaled) : Digits :=
  let (_, value, _, num, den) := s.interval
  let point := magnitude (value * num) den
  let count := (List.range 17).map (· + 1) |>.find? fun n => (onGrid s point n).isSome
  let count := count.getD 17
  let k := (onGrid s point count).getD 0
  let digits := digitsOf k
  ⟨trimZeros digits, point + (digits.length - count : Int)⟩

end RigBench.Decimal
