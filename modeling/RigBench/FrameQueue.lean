import RigBench.Frame

/-!
A bounded queue of frames. A push into a full queue discards the oldest frame, so that pushing
never waits. Each push leaves a wake-up for a waiting reader; at most one is kept.
-/
namespace RigBench

structure FrameQueue where
  capacity : Nat
  frames : List Frame := []
  /-- Frames discarded because the queue was full. -/
  dropped : Nat := 0
  /-- A wake-up nobody has taken yet. -/
  permit : Bool := false
  capacity_pos : 0 < capacity := by decide
  length_le : frames.length ≤ capacity := by simp
  deriving DecidableEq

namespace FrameQueue

/-- A queue of this capacity can be allocated. A frame takes 32 bytes besides its payload. -/
def fits (requested : Nat) : Bool := Bytes.allocatable 32 (max 1 requested)

/-- An empty queue; a capacity of zero is taken as one. -/
def new (requested : Nat) : FrameQueue :=
  { capacity := max 1 requested, capacity_pos := by omega }

def length (q : FrameQueue) : Nat := q.frames.length

def isEmpty (q : FrameQueue) : Bool := q.frames.isEmpty

def isFull (q : FrameQueue) : Bool := q.frames.length == q.capacity

/-- Put a frame behind the others, in place of the oldest if there is no room. -/
def append (q : FrameQueue) (f : Frame) : FrameQueue :=
  if h : q.frames.length = q.capacity then
    { q with
      frames := q.frames.drop 1 ++ [f]
      dropped := q.dropped + 1
      length_le := by
        have := q.capacity_pos
        simp only [List.length_append, List.length_drop, List.length_singleton]
        omega }
  else
    { q with
      frames := q.frames ++ [f]
      length_le := by
        have := q.length_le
        simp only [List.length_append, List.length_singleton]
        omega }

def wake (q : FrameQueue) : FrameQueue := { q with permit := true }

def push (q : FrameQueue) (f : Frame) : FrameQueue := (q.append f).wake

def pushAll (q : FrameQueue) (fs : List Frame) : FrameQueue := fs.foldl push q

def pop (q : FrameQueue) : Option Frame × FrameQueue :=
  (q.frames.head?,
    { q with
      frames := q.frames.drop 1
      length_le := by have := q.length_le; rw [List.length_drop]; omega })

def clear (q : FrameQueue) : FrameQueue := { q with frames := [], length_le := Nat.zero_le _ }

def drain (q : FrameQueue) : List Frame × FrameQueue := (q.frames, q.clear)

def takeWake (q : FrameQueue) : Bool × FrameQueue := (q.permit, { q with permit := false })

end FrameQueue
end RigBench
