import RigBench.Proofs.FrameDelivery
import RigBench.Proofs.Lockstep

/-!
A queue gives frames back in the order in which they were pushed and loses only the oldest. Handles
of one queue keep nothing of their own, so what is done through all of them is one sequence of acts.
-/
namespace RigBench

namespace FrameQueue

theorem isFull_iff (q : FrameQueue) : q.isFull = true ↔ q.length = q.capacity := beq_iff_eq

theorem exists_oldest {q : FrameQueue} (hfull : q.length = q.capacity) (f : Frame) :
    ∃ oldest rest, q.frames = oldest :: rest ∧ (q.push f).frames = rest ++ [f] := by
  have hpos : 0 < q.frames.length := Nat.lt_of_lt_of_eq q.capacity_pos hfull.symm
  obtain ⟨oldest, rest, hframes⟩ := List.exists_cons_of_length_pos hpos
  refine ⟨oldest, rest, hframes, ?_⟩
  rw [frames_push, if_pos (q.isFull_iff.mpr hfull), hframes]
  rfl

theorem pop_of_nil {q : FrameQueue} (hempty : q.frames = []) : q.pop = (none, q) := by
  obtain ⟨capacity, frames, dropped, permit, hcapacity, hlength⟩ := q
  obtain rfl : frames = [] := hempty
  rfl

theorem pop_of_cons {q : FrameQueue} {oldest : Frame} {rest : List Frame}
    (hframes : q.frames = oldest :: rest) : q.pop.1 = some oldest ∧ q.pop.2.frames = rest := by
  simp [pop, hframes]

theorem frames_push_ne_iff (q : FrameQueue) (f : Frame) :
    (q.push f).frames ≠ q.frames ++ [f] ↔ q.length = q.capacity := by
  constructor
  · intro hne
    by_contra hroom
    exact hne (by rw [frames_push, if_neg (mt q.isFull_iff.mp hroom)])
  · intro hfull heq
    obtain ⟨oldest, rest, hframes, hpush⟩ := exists_oldest hfull f
    have hlength := congrArg List.length (hpush.symm.trans heq)
    simp [hframes] at hlength

end FrameQueue

inductive QueueAct
  | push (f : Frame)
  | pop
  | drain
  | clear
  deriving DecidableEq

/-- How a frame leaves a queue. -/
inductive Exit
  | returned
  | cleared
  | dropped
  deriving DecidableEq

/-- A queue with what it was given and what has left it, both in order. -/
structure QueueRun where
  queue : FrameQueue
  pushed : List Frame := []
  gone : List (Frame × Exit) := []

namespace QueueRun

def start (requested : Nat) : QueueRun := { queue := .new requested }

def leave (x : QueueRun) (fs : List Frame) (how : Exit) : QueueRun :=
  { x with gone := x.gone ++ fs.map (·, how) }

def step (x : QueueRun) : QueueAct → QueueRun
  | .push f =>
    let x' := if x.queue.isFull then x.leave (x.queue.frames.take 1) .dropped else x
    { x' with queue := x.queue.push f, pushed := x.pushed ++ [f] }
  | .pop => { x.leave x.queue.pop.1.toList .returned with queue := x.queue.pop.2 }
  | .drain => { x.leave x.queue.drain.1 .returned with queue := x.queue.drain.2 }
  | .clear => { x.leave x.queue.frames .cleared with queue := x.queue.clear }

def after (x : QueueRun) (acts : List QueueAct) : QueueRun := acts.foldl step x

def left (x : QueueRun) (how : Exit) : List Frame := (x.gone.filter (·.2 = how)).map Prod.fst

theorem left_leave_self (x : QueueRun) (fs : List Frame) (how : Exit) :
    (x.leave fs how).left how = x.left how ++ fs := by
  simp [left, leave, List.filter_map, Function.comp_def]

theorem left_leave_of_ne (x : QueueRun) (fs : List Frame) {how how' : Exit} (h : how ≠ how') :
    (x.leave fs how).left how' = x.left how' := by
  simp [left, leave, List.filter_map, Function.comp_def, h]

theorem left_sublist (x : QueueRun) (how : Exit) :
    (x.left how).Sublist (x.gone.map Prod.fst) := List.filter_sublist.map _

theorem length_gone (x : QueueRun) :
    x.gone.length =
      (x.left .returned).length + (x.left .cleared).length + (x.left .dropped).length := by
  simp only [left, List.length_map, ← List.countP_eq_length_filter]
  induction x.gone with
  | nil => rfl
  | cons p gone ih =>
    obtain ⟨f, how⟩ := p
    cases how <;> simp [ih] <;> omega

/-- Every frame pushed is gone or waits, the gone ones before the others. -/
structure Ordered (x : QueueRun) : Prop where
  pushed : x.pushed = x.gone.map Prod.fst ++ x.queue.frames
  dropped : x.queue.dropped = (x.left .dropped).length

namespace Ordered

theorem leave {x : QueueRun} (hx : x.Ordered) {fs : List Frame} {q : FrameQueue}
    (hframes : x.queue.frames = fs ++ q.frames) (hdropped : q.dropped = x.queue.dropped)
    {how : Exit} (hkept : how ≠ .dropped) : Ordered { x.leave fs how with queue := q } where
  pushed := by
    simp [QueueRun.leave, hx.pushed, hframes, Function.comp_def]
  dropped := by
    have hleft := x.left_leave_of_ne fs hkept
    exact hdropped.trans (hx.dropped.trans (congrArg List.length hleft.symm))

theorem push {x : QueueRun} (hx : x.Ordered) (f : Frame) : (x.step (.push f)).Ordered := by
  unfold step
  dsimp only
  by_cases hfull : x.queue.isFull
  · rw [if_pos hfull]
    constructor
    · simp only [FrameQueue.frames_push, if_pos hfull, QueueRun.leave, hx.pushed, List.map_append,
        List.map_map, Function.comp_def, List.map_id', List.append_assoc]
      rw [← List.append_assoc (x.queue.frames.take 1), List.take_append_drop]
    · have hleft := x.left_leave_self (x.queue.frames.take 1) .dropped
      obtain ⟨oldest, rest, hframes, -⟩ :=
        FrameQueue.exists_oldest (x.queue.isFull_iff.mp hfull) f
      refine Eq.trans ?_ (congrArg List.length hleft.symm)
      rw [List.length_append, FrameQueue.dropped_push, if_pos hfull, hx.dropped, hframes]
      rfl
  · rw [if_neg hfull]
    constructor
    · simp [FrameQueue.frames_push, hfull, hx.pushed]
    · exact (x.queue.dropped_push f).trans ((if_neg hfull).trans hx.dropped)

theorem step {x : QueueRun} (hx : x.Ordered) (a : QueueAct) : (x.step a).Ordered := by
  cases a with
  | push f => exact hx.push f
  | pop =>
    refine hx.leave (q := x.queue.pop.2) ?_ rfl (by decide)
    cases h : x.queue.frames <;> simp [FrameQueue.pop, h]
  | drain => exact hx.leave (q := x.queue.drain.2) (List.append_nil _).symm rfl (by decide)
  | clear => exact hx.leave (q := x.queue.clear) (List.append_nil _).symm rfl (by decide)

theorem after {x : QueueRun} (hx : x.Ordered) (acts : List QueueAct) : (x.after acts).Ordered := by
  induction acts generalizing x with
  | nil => exact hx
  | cons a acts ih => exact ih (hx.step a)

end Ordered

theorem start_ordered (requested : Nat) : (start requested).Ordered := ⟨rfl, rfl⟩

theorem capacity_step (x : QueueRun) (a : QueueAct) :
    (x.step a).queue.capacity = x.queue.capacity := by
  cases a with
  | push f => exact x.queue.capacity_push f
  | pop => rfl
  | drain => rfl
  | clear => rfl

theorem capacity_after (acts : List QueueAct) (x : QueueRun) :
    (x.after acts).queue.capacity = x.queue.capacity := by
  induction acts generalizing x with
  | nil => rfl
  | cons a acts ih => exact (ih (x.step a)).trans (x.capacity_step a)

end QueueRun

/-- For every requested capacity and every sequence of acts, by `x.left .returned` the frames that
`pop` and `drain` have given and by `x.left .cleared` those that were there at a `clear`: the queue
keeps to its capacity and holds the frames pushed last. All others are gone, in the order in which
they were pushed and each in one way, so that those given are some of them in that order. A push
takes a frame out exactly if the queue is full, and then the oldest. A `pop` gives the oldest if
there is one, and a `drain` gives them all. -/
theorem queue_loses_only_oldest (requested : Nat) (acts : List QueueAct) :
    let x := (QueueRun.start requested).after acts
    let q := x.queue
    q.capacity = max requested 1 ∧ q.length ≤ q.capacity ∧
    q.frames <:+ x.pushed ∧
    x.pushed = x.gone.map Prod.fst ++ q.frames ∧
    (x.left .returned).Sublist x.pushed ∧
    x.pushed.length =
      (x.left .returned).length + (x.left .cleared).length + q.dropped + q.length ∧
    (∀ f, ((q.push f).frames ≠ q.frames ++ [f] ↔ q.length = q.capacity) ∧
      (q.length = q.capacity →
        ∃ oldest rest, q.frames = oldest :: rest ∧ (q.push f).frames = rest ++ [f])) ∧
    (q.frames = [] → q.pop = (none, q)) ∧
    (∀ oldest rest, q.frames = oldest :: rest →
      q.pop.1 = some oldest ∧ q.pop.2.frames = rest) ∧
    q.drain.1 = q.frames ∧ q.drain.2.frames = [] := by
  intro x q
  have hx : x.Ordered := (QueueRun.start_ordered requested).after acts
  have hcapacity : q.capacity = max requested 1 :=
    (QueueRun.capacity_after acts _).trans (Nat.max_comm 1 requested)
  have hreturned : (x.left .returned).Sublist x.pushed := by
    rw [hx.pushed]
    exact (x.left_sublist _).trans (List.sublist_append_left _ _)
  have hcount : x.pushed.length =
      (x.left .returned).length + (x.left .cleared).length + q.dropped + q.length := by
    rw [hx.pushed, List.length_append, List.length_map, x.length_gone, hx.dropped]
    rfl
  exact ⟨hcapacity, q.length_le, ⟨_, hx.pushed.symm⟩, hx.pushed, hreturned, hcount,
    fun f => ⟨q.frames_push_ne_iff f, fun hfull => FrameQueue.exists_oldest hfull f⟩,
    FrameQueue.pop_of_nil, fun _ _ => FrameQueue.pop_of_cons, rfl, rfl⟩

end RigBench
