/-!
Lengths of time with nanosecond resolution. A duration is one count of nanoseconds; its whole
seconds fit 64 bits.
-/
namespace RigBench

def nanosPerSecond : Nat := 1000000000

/-- A length of time below `2 ^ 64` seconds. -/
structure Duration where
  nanos : Nat
  nanos_lt : nanos < 18446744073709551616 * nanosPerSecond := by decide
  deriving DecidableEq

namespace Duration

instance : Inhabited Duration := ⟨{ nanos := 0 }⟩

def zero : Duration := { nanos := 0 }

/-- The duration of a word of milliseconds, which always fits. -/
def ofMillis (n : UInt32) : Duration :=
  ⟨n.toNat * 1000000, by have := n.toNat_lt; unfold nanosPerSecond; omega⟩

def ofNanos? (nanos : Nat) : Option Duration :=
  if h : nanos < 18446744073709551616 * nanosPerSecond then some ⟨nanos, h⟩ else none

/-- The duration of whole seconds and a rest in nanoseconds. -/
def ofParts? (seconds subsec : Nat) : Option Duration :=
  ofNanos? (seconds * nanosPerSecond + subsec)

def seconds (d : Duration) : Nat := d.nanos / nanosPerSecond

def subsecNanos (d : Duration) : Nat := d.nanos % nanosPerSecond

def millis (d : Duration) : Nat := d.nanos / 1000000

def micros (d : Duration) : Nat := d.nanos / 1000

def isZero (d : Duration) : Bool := d.nanos == 0

@[simp] theorem ofNanos?_nanos (d : Duration) : ofNanos? d.nanos = some d := by
  simp [ofNanos?, d.nanos_lt]

theorem ofParts?_parts (d : Duration) : ofParts? d.seconds d.subsecNanos = some d := by
  rw [ofParts?, show d.seconds * nanosPerSecond + d.subsecNanos = d.nanos from
    Nat.div_add_mod' d.nanos nanosPerSecond]
  exact ofNanos?_nanos d

theorem seconds_lt (d : Duration) : d.seconds < 18446744073709551616 :=
  Nat.div_lt_of_lt_mul (by rw [Nat.mul_comm]; exact d.nanos_lt)

theorem subsecNanos_lt (d : Duration) : d.subsecNanos < nanosPerSecond :=
  Nat.mod_lt _ (by decide)

end Duration
end RigBench
