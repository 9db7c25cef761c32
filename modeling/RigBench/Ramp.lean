import RigBench.Error

/-!
The set-point over time: one value until a window begins, a straight line to a second value
across the window, and that value from then on.
-/
namespace RigBench

/-- A ramp over values of `α` in a window of milliseconds. -/
structure Ramp (α : Type) where
  startTime : UInt64
  endTime : UInt64
  startValue : α
  endValue : α
  deriving DecidableEq

namespace Ramp

def zero : Ramp Binary64 := ⟨0, 0, .zero, .zero⟩

instance : Inhabited (Ramp Binary64) := ⟨zero⟩

/-- A ramp with its window in order and finite values at both ends. An empty window is a jump. -/
def make (startTime endTime : UInt64) (startValue endValue : Binary64) :
    Except BenchError (Ramp Binary64) :=
  if endTime < startTime then
    .error (.trajectory (.reversedWindow startTime endTime))
  else if !startValue.isFinite || !endValue.isFinite then
    .error (.trajectory (.nonFinite startValue endValue))
  else .ok ⟨startTime, endTime, startValue, endValue⟩

/-- The value at a time. The line is drawn in the arithmetic of `α`. -/
def evaluate {α : Type} [Add α] [Sub α] [Mul α] [Div α] [NatCast α] (r : Ramp α) (t : UInt64) : α :=
  if t < r.startTime then r.startValue
  else if t < r.endTime then
    let span : α := ((r.endTime - r.startTime).toNat : α)
    let elapsed : α := ((t - r.startTime).toNat : α)
    r.startValue + (r.endValue - r.startValue) * elapsed / span
  else r.endValue

theorem make_eq_ok_iff {startTime endTime : UInt64} {startValue endValue : Binary64}
    {r : Ramp Binary64} :
    make startTime endTime startValue endValue = .ok r ↔
      r = ⟨startTime, endTime, startValue, endValue⟩ ∧ startTime ≤ endTime ∧
        startValue.isFinite = true ∧ endValue.isFinite = true := by
  unfold make
  rw [← UInt64.not_lt (a := endTime)]
  split
  · next hreversed => simp [hreversed]
  · next hordered =>
    cases startValue.isFinite <;> cases endValue.isFinite <;> simp [hordered, eq_comm]

section Regimes

variable {α : Type} [Add α] [Sub α] [Mul α] [Div α] [NatCast α] {r : Ramp α} {t : UInt64}

theorem evaluate_before (h : t < r.startTime) : r.evaluate t = r.startValue := by
  rw [evaluate, if_pos h]

theorem evaluate_inside (hstart : r.startTime ≤ t) (hend : t < r.endTime) :
    r.evaluate t = r.startValue + (r.endValue - r.startValue) *
      ((t - r.startTime).toNat : α) / ((r.endTime - r.startTime).toNat : α) := by
  rw [evaluate, if_neg (UInt64.not_lt.mpr hstart), if_pos hend]

theorem evaluate_beyond (hstart : r.startTime ≤ t) (hend : r.endTime ≤ t) :
    r.evaluate t = r.endValue := by
  rw [evaluate, if_neg (UInt64.not_lt.mpr hstart), if_neg (UInt64.not_lt.mpr hend)]

end Regimes

end Ramp
end RigBench
