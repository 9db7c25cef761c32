import RigBench.Binary64
import RigBench.Bytes
import RigBench.Duration
import RigBench.Metrics.Ring

/-!
Execution times of a periodic task: totals over its whole life and the most recent samples for
percentiles. Times are nanoseconds of 64 bits; longer ones count as the longest.
-/
namespace RigBench

/-- The longest time a sample can show. -/
def longestSample : Nat := 18446744073709551615

def sampleOf (nanos : Nat) : UInt64 := .ofNat (min nanos longestSample)

theorem toNat_sampleOf (nanos : Nat) : (sampleOf nanos).toNat = min nanos longestSample := by
  have : min nanos longestSample < 2 ^ 64 := by
    have := Nat.min_le_right nanos longestSample
    simp only [longestSample] at *; omega
  simpa [sampleOf] using this

structure CycleMetrics where
  recent : Ring UInt64
  total : Nat := 0
  least : UInt64 := .ofNat longestSample
  greatest : UInt64 := 0
  /-- The sum of all samples, modulo `2 ^ 64`. -/
  sum : UInt64 := 0
  overruns : Nat := 0
  missed : Nat := 0
  period : UInt64

structure MetricsSnapshot where
  total : Nat
  leastMicros : Option Nat
  greatestMicros : Option Nat
  meanMicros : Option Nat
  p99Micros : Option Nat
  overruns : Nat
  missed : Nat
  deriving DecidableEq

namespace CycleMetrics

/-- So many samples can be allocated, of eight bytes each. -/
def fits (size : Nat) : Bool := Bytes.allocatable 8 (max 1 size)

/-- Keep the last `size` samples of a task with the given period. -/
def new (size : Nat) (period : Duration) : CycleMetrics :=
  { recent := .empty 0 size, period := sampleOf period.nanos }

/-- Record one execution. The flag says whether it overran the period. -/
def record (m : CycleMetrics) (nanos : Nat) : Bool × CycleMetrics :=
  let ns := sampleOf nanos
  let overran := decide (m.period < ns)
  (overran, { m with
    recent := m.recent.push ns
    total := m.total + 1
    least := min m.least ns
    greatest := max m.greatest ns
    sum := m.sum + ns
    overruns := m.overruns + overran.toNat })

def recordMissed (m : CycleMetrics) (ticks : Nat) : CycleMetrics :=
  { m with missed := m.missed + ticks }

def min? (m : CycleMetrics) : Option UInt64 := if m.total = 0 then none else some m.least

def max? (m : CycleMetrics) : Option UInt64 := if m.total = 0 then none else some m.greatest

def mean? (m : CycleMetrics) : Option Nat :=
  if m.total = 0 then none else some (m.sum.toNat / m.total)

/-- A percentage; NaN is none. -/
def isPercentage (p : Binary64) : Bool :=
  decide (Binary64.zero.toFloat ≤ p.toFloat) && decide (p.toFloat ≤ Binary64.hundred.toFloat)

/-- The place of a percentile among `count` samples in order, a half rounded up. -/
def percentileIndex (p : Binary64) (count : Nat) : Nat :=
  let place := p / .hundred * .ofNat (count - 1)
  min place.toFloat.round.toUInt64.toNat (count - 1)

def percentile? (m : CycleMetrics) (p : Binary64) : Option UInt64 :=
  if isPercentage p then
    let sorted := m.recent.held.mergeSort (fun a b => a ≤ b)
    sorted[percentileIndex p sorted.length]?
  else none

def ninetyNine : Binary64 := ⟨0x4058c00000000000⟩

def snapshot (m : CycleMetrics) : MetricsSnapshot where
  total := m.total
  leastMicros := m.min?.map (·.toNat / 1000)
  greatestMicros := m.max?.map (·.toNat / 1000)
  meanMicros := m.mean?.map (· / 1000)
  p99Micros := (m.percentile? ninetyNine).map (·.toNat / 1000)
  overruns := m.overruns
  missed := m.missed

end CycleMetrics
end RigBench
