import RigBench.FrameQueue

/-!
How a writer that waits for frames is woken. A push has two steps, the frame and then the wake-up.
A wake-up goes to the writer if it is parked and is kept as the permit of the queue otherwise; a
writer that goes away with one in its hand gives it back.
-/
namespace RigBench

inductive WriterPhase
  | absent
  | draining
  /-- Wait, as the queue was empty. -/
  | found
  | parked
  | woken
  | writing
  deriving DecidableEq

structure Wakeup where
  queue : FrameQueue
  /-- Producers between the two steps of a push. -/
  producers : Nat := 0
  writer : WriterPhase := .absent
  deriving DecidableEq

inductive WakeupEvent
  /-- First step of a push. -/
  | append (f : Frame)
  /-- Second step of a push. -/
  | notify
  /-- Somebody else takes the oldest frame. -/
  | pop
  | clear
  | create
  | drain
  | wait
  | resume
  | write
  | drop
  deriving DecidableEq

namespace Wakeup

/-- Wake the writer or keep the wake-up. -/
def wake (s : Wakeup) : Wakeup :=
  if s.writer = .parked then { s with writer := .woken } else { s with queue := s.queue.wake }

def during (s : Wakeup) (phase : WriterPhase) (next : Wakeup) : Option Wakeup :=
  if s.writer = phase then some next else none

def step (s : Wakeup) : WakeupEvent → Option Wakeup
  | .append f => some { s with queue := s.queue.append f, producers := s.producers + 1 }
  | .notify => if s.producers = 0 then none else some { s with producers := s.producers - 1 }.wake
  | .pop => some { s with queue := s.queue.pop.2 }
  | .clear => some { s with queue := s.queue.clear }
  | .create => s.during .absent { s with writer := .draining }
  | .drain =>
    s.during .draining <|
      if s.queue.isEmpty then { s with writer := .found }
      else { s with queue := s.queue.clear, writer := .writing }
  | .wait =>
    let (given, queue) := s.queue.takeWake
    s.during .found { s with queue, writer := if given then .draining else .parked }
  | .resume => s.during .woken { s with writer := .draining }
  | .write => s.during .writing { s with writer := .draining }
  | .drop =>
    match s.writer with
    | .absent => none
    | .woken => some { s with writer := .absent }.wake
    | _ => some { s with writer := .absent }

def run (s : Wakeup) (events : List WakeupEvent) : Option Wakeup := events.foldlM step s

end Wakeup
end RigBench
