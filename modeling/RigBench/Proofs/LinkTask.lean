import RigBench.Proofs.Lockstep
import RigBench.Proofs.Readiness

/-!
Frames taken in between ticks. A bench whose link task takes in what has come before each tick is
ahead of one that waits for the tick, by just the frames that still wait there; at the tick they are
the same.
-/
namespace RigBench

/-- Whether a frame may wait that the link task has not taken in. -/
def waitsAfter (waits : Bool) : Act → Bool
  | .client (.submit _) => true
  | .service => false
  | _ => waits

/-- The link task runs between every push and the next tick. -/
def servedInTime (waits : Bool) : List Act → Bool
  | [] => true
  | a :: acts => (a != .tick || !waits) && servedInTime (waitsAfter waits a) acts

theorem servedInTime_append (acts acts' : List Act) (waits : Bool) :
    servedInTime waits (acts ++ acts') =
      (servedInTime waits acts && servedInTime (acts.foldl waitsAfter waits) acts') := by
  induction acts generalizing waits with
  | nil => rfl
  | cons a acts ih =>
    rw [List.cons_append, servedInTime, servedInTime, ih, Bool.and_assoc]
    rfl

namespace Run

variable {ρ : Type} [Rig ρ]

theorem dropped_le_step (r : Run ρ) (a : Act) :
    r.bench.transport.input.dropped ≤ (r.step a).bench.transport.input.dropped := by
  cases a with
  | tick => exact Nat.le_of_eq (r.loop.takes_tick r.bench.link r.bench.transport).dropped.symm
  | service => exact Nat.le_of_eq r.bench.transport.takes_run.dropped.symm
  | client act =>
    cases act with
    | submit f =>
      change _ ≤ (r.bench.transport.input.push f).dropped
      rw [FrameQueue.dropped_push]
      split <;> omega
    | connect => exact Nat.le_refl _
    | disconnect => exact Nat.le_refl _
    | collect => exact Nat.le_refl _

theorem dropped_le_after (r : Run ρ) (acts : List Act) :
    r.bench.transport.input.dropped ≤ (r.after acts).bench.transport.input.dropped := by
  induction acts generalizing r with
  | nil => exact Nat.le_refl _
  | cons a acts ih => exact Nat.le_trans (r.dropped_le_step a) (ih (r.step a))

theorem state_step_tick {r : Run ρ} (hready : r.bench.transport.state ≠ .uninitialized) :
    (r.step .tick).bench.transport.state ≠ .uninitialized := by
  have hintake : r.atTick.state ≠ .uninitialized := by
    unfold atTick ControlLoop.intake
    split
    · exact fun hnew => hready (r.bench.transport.state_handleFrames.mp hnew).1
    · exact hready
  obtain ⟨outcome, loop, transport, history, hway, -, hstep⟩ := r.step_tick
  rw [hstep]
  cases hway with
  | linkLost hlost => exact fun hnew => hintake (r.atTick.state_reset_eq_uninitialized.mp hnew)
  | idle hidle => exact hintake
  | failed hlink hrun hsample => exact hintake
  | sampled hs hwindow => exact hintake
  | expired hs hwindow =>
    exact fun hnew => hintake ((Transport.state_reset_eq_uninitialized _).mp hnew)

end Run

/-- The run `x` is ahead of the run `y` by frames that wait there, if it serves them itself. -/
structure Ahead {ρ : Type} (waits : Bool) (x y : Run ρ) : Prop where
  loop : x.loop = y.loop.framed false
  ticking : y.loop.settings.framesInTick = true
  link : x.bench.link = y.bench.link
  decoder : x.bench.decoder = y.bench.decoder
  capacity : x.bench.transport.input.capacity = y.bench.transport.input.capacity
  dropped : x.bench.transport.input.dropped = y.bench.transport.input.dropped
  permit : x.bench.transport.input.permit = y.bench.transport.input.permit
  taken : ∃ done, y.bench.transport.input.frames = done ++ x.bench.transport.input.frames ∧
    x.bench.transport = (done.foldl Transport.receive y.bench.transport).rewired
      x.bench.transport.input y.bench.transport.output
  served : waits = false → x.bench.transport.input.frames = []
  ready : y.bench.transport.state ≠ .uninitialized
  sampled : x.history.sampled = y.history.sampled

namespace Ahead

variable {ρ : Type} {waits : Bool} {x y : Run ρ}

theorem of_bench_eq (hloop : x.loop = y.loop.framed false)
    (hticking : y.loop.settings.framesInTick = true) (hbench : x.bench = y.bench)
    (hserved : waits = false → y.bench.transport.input.frames = [])
    (hready : y.bench.transport.state ≠ .uninitialized)
    (hsampled : x.history.sampled = y.history.sampled) : Ahead waits x y where
  loop := hloop
  ticking := hticking
  link := by rw [hbench]
  decoder := by rw [hbench]
  capacity := by rw [hbench]
  dropped := by rw [hbench]
  permit := by rw [hbench]
  taken := ⟨[], by rw [hbench]; rfl, by rw [hbench]; rfl⟩
  served := by rw [hbench]; exact hserved
  ready := hready
  sampled := hsampled

theorem start (c : ControlLoop ρ) {b : Bench} (hready : b.transport.state ≠ .uninitialized) :
    Ahead (!b.transport.input.isEmpty) (.start (c.framed false) b) (.start (c.framed true) b) :=
  of_bench_eq rfl rfl rfl (by simp [FrameQueue.isEmpty, Run.start]) hready rfl

variable [Rig ρ]

theorem submit (h : Ahead waits x y) (f : Frame)
    (hroom : y.bench.transport.input.isFull = false) :
    Ahead true (x.step (.client (.submit f))) (y.step (.client (.submit f))) := by
  obtain ⟨done, hframes, htransport⟩ := h.taken
  -- All that waits in `x` waits in `y` too, so the queue of `y` is the one that fills first.
  have hroom' : x.bench.transport.input.isFull = false := by
    have hlength := y.bench.transport.input.length_le
    have hcapacity := h.capacity
    have hnotfull : y.bench.transport.input.frames.length ≠ y.bench.transport.input.capacity := by
      simpa [FrameQueue.isFull] using hroom
    rw [hframes, List.length_append] at hlength hnotfull
    simp only [FrameQueue.isFull, beq_eq_false_iff_ne, ne_eq]
    omega
  refine
    { h with
      capacity := ?_
      dropped := ?_
      permit := rfl
      taken := ⟨done, ?_, ?_⟩
      served := nofun }
  · change (x.bench.transport.input.push f).capacity = (y.bench.transport.input.push f).capacity
    rw [FrameQueue.capacity_push, FrameQueue.capacity_push, h.capacity]
  · change (x.bench.transport.input.push f).dropped = (y.bench.transport.input.push f).dropped
    rw [FrameQueue.dropped_push, FrameQueue.dropped_push, hroom, hroom', h.dropped]
  · change (y.bench.transport.input.push f).frames = done ++ (x.bench.transport.input.push f).frames
    rw [FrameQueue.frames_push, FrameQueue.frames_push, hroom, hroom', hframes]
    exact List.append_assoc _ _ _
  · change x.bench.transport.rewired (x.bench.transport.input.push f) x.bench.transport.output =
      (done.foldl Transport.receive (y.bench.transport.rewired (y.bench.transport.input.push f)
        y.bench.transport.output)).rewired (x.bench.transport.input.push f)
        y.bench.transport.output
    rw [Transport.foldl_receive_rewired, Transport.rewired_rewired]
    conv_lhs => rw [htransport]
    rfl

theorem service (h : Ahead waits x y) : Ahead false (x.step .service) y := by
  obtain ⟨done, hframes, htransport⟩ := h.taken
  -- `y` does nothing; what waited in `x` joins the frames it is ahead by.
  have hready : x.bench.transport.state ≠ .uninitialized := by
    intro hnew
    rw [htransport] at hnew
    exact h.ready ((Transport.state_foldl_receive done y.bench.transport).mp hnew).1
  have hrun : x.bench.transport.run.2 =
      (y.bench.transport.input.frames.foldl Transport.receive y.bench.transport).rewired
        x.bench.transport.input.clear y.bench.transport.output := by
    rw [Transport.run, if_neg hready, Transport.handleFrames_eq, hframes, List.foldl_append]
    conv_lhs => rw [htransport]
    rw [Transport.foldl_receive_rewired]
    rfl
  have hinput : x.bench.transport.run.2.input = x.bench.transport.input.clear := by
    rw [hrun]
    rfl
  refine
    { h with
      capacity := ?_, dropped := ?_, permit := ?_
      taken := ⟨y.bench.transport.input.frames, ?_, ?_⟩
      served := fun _ => ?_
      sampled := ?_ }
  · change x.bench.transport.run.2.input.capacity = _
    rw [hinput]
    exact h.capacity
  · change x.bench.transport.run.2.input.dropped = _
    rw [hinput]
    exact h.dropped
  · change x.bench.transport.run.2.input.permit = _
    rw [hinput]
    exact h.permit
  · change _ = _ ++ x.bench.transport.run.2.input.frames
    rw [hinput]
    exact (List.append_nil _).symm
  · change x.bench.transport.run.2 = Transport.rewired _ x.bench.transport.run.2.input _
    rw [hinput]
    exact hrun
  · change x.bench.transport.run.2.input.frames = []
    rw [hinput]
    rfl
  · exact (x.bench.transport.sampled_noteRun x.history).trans h.sampled

omit [Rig ρ] in
theorem intake_eq (h : Ahead false x y) :
    x.loop.intake x.bench.transport = y.loop.intake y.bench.transport := by
  obtain ⟨done, hframes, htransport⟩ := h.taken
  have hserved := h.served rfl
  have hinput : x.bench.transport.input = y.bench.transport.input.clear :=
    FrameQueue.ext h.capacity hserved h.dropped h.permit
  have hx : x.loop.intake x.bench.transport = x.bench.transport := by
    rw [h.loop]
    rfl
  have hy : y.loop.intake y.bench.transport = y.bench.transport.handleFrames.2 := if_pos h.ticking
  rw [hserved, List.append_nil] at hframes
  rw [hx, hy, Transport.handleFrames_eq, hframes, htransport, hinput]

theorem tick_eq (h : Ahead false x y) :
    x.bench.tick x.loop =
        ((y.bench.tick y.loop).1, (y.bench.tick y.loop).2.1.framed false,
          (y.bench.tick y.loop).2.2) ∧
      (x.step .tick).history.sampled = (y.step .tick).history.sampled := by
  constructor
  · have htick : x.loop.tick x.bench.link x.bench.transport =
        ((y.loop.tick y.bench.link y.bench.transport).1,
          (y.loop.tick y.bench.link y.bench.transport).2.1.framed false,
          (y.loop.tick y.bench.link y.bench.transport).2.2) := by
      rw [ControlLoop.tick_eq_proceed, ControlLoop.tick_eq_proceed, h.intake_eq, h.link, h.loop]
      exact
        ControlLoop.proceed_framed { y.loop with ticks := y.loop.ticks + 1 } y.bench.link _ false
    unfold Bench.tick
    rw [htick, h.link, h.decoder]
  · change (x.loop.noteTick x.bench.link x.bench.transport x.history).sampled =
      (y.loop.noteTick y.bench.link y.bench.transport y.history).sampled
    rw [ControlLoop.sampled_noteTick, ControlLoop.sampled_noteTick, h.intake_eq, h.sampled, h.link,
      h.loop, ControlLoop.queued?_framed]

theorem tick (h : Ahead false x y) : Ahead false (x.step .tick) (y.step .tick) := by
  obtain ⟨htick, hsampled⟩ := h.tick_eq
  refine of_bench_eq (congrArg (·.2.1) htick) ?_ (congrArg (·.2.2) htick) (fun _ => ?_)
    (Run.state_step_tick h.ready) hsampled
  · rw [(y.loop_step .tick).1]
    exact h.ticking
  · -- The tick of `y` takes in all that waits there, so neither is ahead after it.
    have htaken := (y.loop.takes_tick y.bench.link y.bench.transport).frames
    rw [ControlLoop.intakeFrames, if_pos h.ticking] at htaken
    exact List.append_right_eq_self.mp htaken

theorem collect (h : Ahead waits x y) :
    Ahead waits (x.step (.client .collect)) (y.step (.client .collect)) := by
  obtain ⟨done, hframes, htransport⟩ := h.taken
  have houtput : x.bench.transport.output = y.bench.transport.output := by
    rw [htransport]
    rfl
  refine { h with taken := ⟨done, hframes, ?_⟩ }
  change x.bench.transport.rewired x.bench.transport.input x.bench.transport.output.clear =
    (done.foldl Transport.receive (y.bench.transport.rewired y.bench.transport.input
      y.bench.transport.output.clear)).rewired x.bench.transport.input
      y.bench.transport.output.clear
  rw [Transport.foldl_receive_rewired, Transport.rewired_rewired, houtput]
  conv_lhs => rw [htransport]
  rfl

theorem step (h : Ahead waits x y) {a : Act} (hserved : servedInTime waits [a] = true)
    (hroom : (y.after ([a].filter (· != .service))).bench.transport.input.dropped =
      y.bench.transport.input.dropped) :
    Ahead (waitsAfter waits a) (x.step a) (y.after ([a].filter (· != .service))) := by
  cases a with
  | tick =>
    obtain rfl : waits = false := by simpa [servedInTime] using hserved
    exact h.tick
  | service => exact h.service
  | client act =>
    cases act with
    | submit f =>
      refine h.submit f ?_
      change (y.bench.transport.input.push f).dropped = _ at hroom
      rw [FrameQueue.dropped_push] at hroom
      by_contra hfull
      rw [Bool.not_eq_false] at hfull
      rw [if_pos hfull] at hroom
      exact Nat.succ_ne_self _ hroom
    | connect => exact { h with link := congrArg LinkState.connect h.link }
    | disconnect => exact { h with link := congrArg LinkState.disconnect h.link }
    | collect => exact h.collect

theorem after (h : Ahead waits x y) {acts : List Act} (hserved : servedInTime waits acts = true)
    (hroom : (y.after (acts.filter (· != .service))).bench.transport.input.dropped =
      y.bench.transport.input.dropped) :
    Ahead (acts.foldl waitsAfter waits) (x.after acts) (y.after (acts.filter (· != .service))) := by
  induction acts generalizing waits x y with
  | nil => exact h
  | cons a acts ih =>
    rw [← List.singleton_append, servedInTime_append, Bool.and_eq_true] at hserved
    have hsplit : y.after ((a :: acts).filter (· != .service)) =
        (y.after ([a].filter (· != .service))).after (acts.filter (· != .service)) := by
      rw [← List.singleton_append, List.filter_append]
      exact List.foldl_append
    rw [hsplit] at hroom ⊢
    -- What is not discarded in the end is not discarded on the way.
    have hfirst := y.dropped_le_after ([a].filter (· != .service))
    have hrest := (y.after ([a].filter (· != .service))).dropped_le_after
      (acts.filter (· != .service))
    exact ih (h.step hserved.1 (by omega)) hserved.2 (by omega)

end Ahead

/-- Frames taken in by the link task, for every loop, every bench that has been made ready, and
every sequence of acts in which the link task runs between every push and the next tick. A bench
that takes in its frames at its ticks instead, with room for them to wait, comes to every tick like
this one: the ticks have the same outcome and queue the same samples, and leave the benches with the
same link and queues, the same experiment, and the same counters. -/
theorem link_task_like_ticks {ρ : Type} [Rig ρ] (c : ControlLoop ρ) {b : Bench} {acts : List Act}
    (hready : b.transport.state ≠ .uninitialized)
    (hserved : servedInTime (!b.transport.input.isEmpty) (acts ++ [.tick]) = true)
    (hroom : ((Run.start (c.framed true) b).after
        (acts.filter (· != .service))).bench.transport.input.dropped =
      b.transport.input.dropped) :
    let x := (Run.start (c.framed false) b).after acts
    let y := (Run.start (c.framed true) b).after (acts.filter (· != .service))
    (x.bench.tick x.loop).1 = (y.bench.tick y.loop).1 ∧
      (x.step .tick).history.sampled = (y.step .tick).history.sampled ∧
      (x.step .tick).bench = (y.step .tick).bench ∧
      (x.step .tick).loop = (y.step .tick).loop.framed false := by
  intro x y
  rw [servedInTime_append, Bool.and_eq_true] at hserved
  have hahead := (Ahead.start c hready).after hserved.1 hroom
  have hnone : acts.foldl waitsAfter (!b.transport.input.isEmpty) = false := by
    simpa [servedInTime] using hserved.2
  rw [hnone] at hahead
  obtain ⟨htick, hsampled⟩ := hahead.tick_eq
  exact ⟨congrArg (·.1) htick, hsampled, congrArg (·.2.2) htick, congrArg (·.2.1) htick⟩

/-- A stop that the link task takes in before the second tick, and one that waits for it. -/
theorem link_task_like_ticks_stopped :
    let c : ControlLoop NullRig := { rig := {}, settings := ⟨.ofMillis 100, .zero, true, true⟩ }
    let b := (Bench.new 4 4).init.2
    let acts : List Act :=
      [.client (.submit Command.start.toFrame), .service, .tick,
        .client (.submit Command.keepalive.toFrame), .service,
        .client (.submit Command.stop.toFrame), .service]
    let x := (Run.start (c.framed false) b).after acts
    let y := (Run.start (c.framed true) b).after (acts.filter (· != .service))
    b.transport.state ≠ .uninitialized ∧
      servedInTime (!b.transport.input.isEmpty) (acts ++ [.tick]) = true ∧
      y.bench.transport.input.dropped = b.transport.input.dropped ∧
      x.bench ≠ y.bench ∧ (x.step .tick).bench = (y.step .tick).bench ∧
      (x.bench.tick x.loop).1 = .ok .idle := by
  intro c b acts x y
  have hready : b.transport.state ≠ .uninitialized := by decide +kernel
  have hserved : servedInTime (!b.transport.input.isEmpty) (acts ++ [.tick]) = true := by
    decide +kernel
  have hroom : y.bench.transport.input.dropped = b.transport.input.dropped := by decide +kernel
  obtain ⟨houtcome, -, hbench, -⟩ := link_task_like_ticks c hready hserved hroom
  have hidle : (y.bench.tick y.loop).1 = .ok .idle := by decide +kernel
  exact ⟨hready, hserved, hroom, by decide +kernel, hbench, houtcome.trans hidle⟩

end RigBench
