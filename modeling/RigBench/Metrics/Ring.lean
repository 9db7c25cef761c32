/-!
A ring of the most recent items. Its slots are there from the start and are filled in turn; once all
are filled, a new item takes the place of the oldest.
-/
namespace RigBench

structure Ring (α : Type) where
  slots : Array α
  /-- The slot that is filled next. -/
  cursor : Nat
  /-- Slots that hold an item. -/
  count : Nat
  cursor_lt : cursor < slots.size
  count_le : count ≤ slots.size
  cursor_eq : count < slots.size → cursor = count

namespace Ring

variable {α : Type}

theorem size_slots_pos (blank : α) (requested : Nat) :
    0 < (Array.replicate (max 1 requested) blank).size := by
  rw [Array.size_replicate]
  omega

/-- Empty slots hold `blank`; a capacity of zero is taken as one. -/
def empty (blank : α) (requested : Nat) : Ring α where
  slots := .replicate (max 1 requested) blank
  cursor := 0
  count := 0
  cursor_lt := size_slots_pos blank requested
  count_le := Nat.zero_le _
  cursor_eq _ := rfl

def capacity (r : Ring α) : Nat := r.slots.size

def push (r : Ring α) (x : α) : Ring α where
  slots := r.slots.set r.cursor x r.cursor_lt
  cursor := (r.cursor + 1) % r.slots.size
  count := min (r.count + 1) r.slots.size
  cursor_lt := by
    have := r.cursor_lt
    rw [Array.size_set]
    exact Nat.mod_lt _ (by omega)
  count_le := by rw [Array.size_set]; exact Nat.min_le_right _ _
  cursor_eq hroom := by
    have := r.cursor_eq
    rw [Array.size_set] at hroom
    rw [Nat.mod_eq_of_lt] <;> omega

/-- The items held, by slot. -/
def held (r : Ring α) : List α := r.slots.toList.take r.count

end Ring
end RigBench
