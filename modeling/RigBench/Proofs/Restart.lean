import Mathlib.Data.List.Forall2
import RigBench.Proofs.ExperimentClock
import RigBench.Proofs.HomingRig
import RigBench.Proofs.Lockstep
import RigBench.Proofs.Readiness

/-!
What an experiment leaves behind. Benches that stand still with the same ramp, whatever happened to
them before, go on alike: the clock, the output and the counters of earlier experiments have no
influence on the next one, nor has the rig, if it is at rest.
-/
namespace RigBench

inductive Deed
  | act (a : Act)
  | reset
  | init
  deriving DecidableEq

namespace Run

variable {ρ : Type} [Rig ρ]

def undergo (x : Run ρ) : Deed → Run ρ
  | .act a => x.step a
  | .reset => { x with bench.transport := x.bench.transport.reset }
  | .init =>
    let (_, loop, transport) := x.loop.init x.bench.transport
    { x with loop, bench.transport := transport }

def through (x : Run ρ) (deeds : List Deed) : Run ρ := deeds.foldl undergo x

def outcomes (x : Run ρ) : List Deed → List (Except BenchError TickOutcome)
  | [] => []
  | d :: deeds =>
    (if d = .act .tick then [(x.bench.tick x.loop).1] else []) ++ (x.undergo d).outcomes deeds

def Halted (x : Run ρ) : Prop :=
  x.bench.transport.isRunning = false ∧ x.bench.transport.input.isEmpty = true

instance (x : Run ρ) : Decidable x.Halted := inferInstanceAs (Decidable (_ ∧ _))

/-- The samples that are queued meanwhile. -/
def samplesOf (x : Run ρ) (deeds : List Deed) : List Frame :=
  ({ x with history := [] }.through deeds).history.sampled

theorem undergo_forget (x : Run ρ) (h : History) (d : Deed) :
    ∃ h', ({ x with history := h } : Run ρ).undergo d = { x.undergo d with history := h' } := by
  cases d with
  | act a => cases a <;> exact ⟨_, rfl⟩
  | reset => exact ⟨_, rfl⟩
  | init => exact ⟨_, rfl⟩

theorem outcomes_forget (x : Run ρ) (h : History) (deeds : List Deed) :
    ({ x with history := h } : Run ρ).outcomes deeds = x.outcomes deeds := by
  induction deeds generalizing x h with
  | nil => rfl
  | cons d deeds ih =>
    obtain ⟨h', hundergo⟩ := x.undergo_forget h d
    rw [outcomes, outcomes, hundergo, ih]

end Run

/-- Rigs in this relation stay in it through the calls of a bench, which do not fail, and report
values in the relation `S`. -/
structure Rig.Parallel {ρ : Type} [Rig ρ] (S : Binary64 → Binary64 → Prop) (R : ρ → ρ → Prop) :
    Prop where
  init : ∀ r q, R r q → ∃ r' q', Rig.init r = (.ok (), r') ∧ Rig.init q = (.ok (), q') ∧ R r' q'
  drive : ∀ r q setpoint dt, R r q → ∃ v w r' q',
    DrivenTo r setpoint dt v r' ∧ DrivenTo q setpoint dt w q' ∧ S v w ∧ R r' q'
  safeState : ∀ r q, R r q →
    ∃ r' q', Rig.safeState r = (.ok (), r') ∧ Rig.safeState q = (.ok (), q') ∧ R r' q'

namespace Rig.Homing

variable {ρ : Type} [Rig ρ] {home : ρ} {P : ρ → Prop}

theorem parallel (h : Rig.Homing home P) :
    Rig.Parallel (fun _ _ => True) fun r q => P r ∧ P q where
  init r q hrq := ⟨home, home, h.init r hrq.1, h.init q hrq.2, h.begins, h.begins⟩
  drive := by
    rintro r q setpoint dt ⟨hr, hq⟩
    obtain ⟨v, r', hv, hr'⟩ := h.drive hr setpoint dt
    obtain ⟨w, q', hw, hq'⟩ := h.drive hq setpoint dt
    exact ⟨v, w, r', q', hv, hw, trivial, hr', hq'⟩
  safeState r q hrq := ⟨home, home, h.safeState r hrq.1, h.safeState q hrq.2, h.begins, h.begins⟩

theorem parallel_self (h : Rig.Homing home P) : Rig.Parallel Eq fun r q => q = r ∧ P r where
  init := by
    rintro r q ⟨rfl, hr⟩
    exact ⟨home, home, h.init _ hr, h.init _ hr, rfl, h.begins⟩
  drive := by
    rintro r q setpoint dt ⟨rfl, hr⟩
    obtain ⟨v, r', hv, hr'⟩ := h.drive hr setpoint dt
    exact ⟨v, v, r', r', hv, hv, rfl, rfl, hr'⟩
  safeState := by
    rintro r q ⟨rfl, hr⟩
    exact ⟨home, home, h.safeState _ hr, h.safeState _ hr, rfl, h.begins⟩

end Rig.Homing

theorem ConfiguredRig.parallel_null :
    Rig.Parallel Eq fun r q : Noted ConfiguredRig =>
      (∃ n, r.rig = null n) ∧ ∃ n, q.rig = null n where
  init := by
    rintro ⟨_, _⟩ ⟨_, _⟩ ⟨⟨n, rfl⟩, m, rfl⟩
    exact ⟨⟨null {}, {}⟩, ⟨null {}, {}⟩, rfl, rfl, ⟨_, rfl⟩, _, rfl⟩
  drive := by
    rintro ⟨_, _⟩ ⟨_, _⟩ setpoint dt ⟨⟨n, rfl⟩, m, rfl⟩
    exact ⟨setpoint, setpoint, ⟨null ⟨setpoint⟩, ⟨true⟩⟩, ⟨null ⟨setpoint⟩, ⟨true⟩⟩,
      ⟨_, rfl, rfl⟩, ⟨_, rfl, rfl⟩, rfl, ⟨_, rfl⟩, _, rfl⟩
  safeState := by
    rintro ⟨_, _⟩ ⟨_, _⟩ ⟨⟨n, rfl⟩, m, rfl⟩
    exact ⟨⟨null {}, {}⟩, ⟨null {}, {}⟩, rfl, rfl, ⟨_, rfl⟩, _, rfl⟩

namespace Transport

theorem state_reset_eq (t : Transport) :
    t.reset.state = if t.isRunning then .idle else t.state := by
  split
  · next hrun => exact state_reset hrun
  · next hrun => exact congrArg Lifecycle.state (if_neg hrun)

/-- Transports whose next experiment goes alike; while they stand still, their clocks may differ. -/
structure Akin (t u : Transport) : Prop where
  state : t.state = u.state
  ready : t.state ≠ .uninitialized
  ramp : t.trajectory.ramp = u.trajectory.ramp
  frames : t.input.frames = u.input.frames
  capacity : t.input.capacity = u.input.capacity
  clock : t.isRunning = true → t.data.time = u.data.time ∧ t.keepaliveTime = u.keepaliveTime

namespace Akin

variable {t u : Transport}

theorem isRunning (h : t.Akin u) : t.isRunning = u.isRunning := by
  unfold Transport.isRunning
  rw [h.state]

theorem receive (h : t.Akin u) (f : Frame) : (t.receive f).Akin (u.receive f) := by
  rw [(receive_eq_obey t f).1, (receive_eq_obey u f).1, ← h.state]
  cases t.state.judge f with
  | start => exact { h with state := rfl, ready := nofun, clock := fun _ => ⟨rfl, rfl⟩ }
  | stop => exact { h with state := rfl, ready := nofun, clock := nofun }
  | keepalive => exact { h with clock := fun hrun => ⟨(h.clock hrun).1, (h.clock hrun).1⟩ }
  | trajectory params ramp =>
    exact { h with ramp := rfl, clock := fun hrun => ⟨(h.clock hrun).1, (h.clock hrun).1⟩ }
  | rejected => exact { h with clock := fun hrun => ⟨(h.clock hrun).1, (h.clock hrun).1⟩ }
  | ignored => exact { h with clock := fun hrun => ⟨(h.clock hrun).1, (h.clock hrun).1⟩ }

theorem foldl_receive (fs : List Frame) (h : t.Akin u) :
    (fs.foldl Transport.receive t).Akin (fs.foldl Transport.receive u) := by
  induction fs generalizing t u with
  | nil => exact h
  | cons f fs ih => exact ih (h.receive f)

theorem handleFrames (h : t.Akin u) : t.handleFrames.2.Akin u.handleFrames.2 := by
  rw [handleFrames_eq, handleFrames_eq, ← h.frames]
  exact { h.foldl_receive t.input.frames with frames := rfl, capacity := h.capacity }

theorem run (h : t.Akin u) : t.run.2.Akin u.run.2 := by
  unfold Transport.run
  rw [if_neg h.ready, if_neg (h.state ▸ h.ready)]
  exact h.handleFrames

theorem reset (h : t.Akin u) : t.reset.Akin u.reset where
  state := by rw [state_reset_eq, state_reset_eq, h.isRunning, h.state]
  ready hnew := h.ready (t.state_reset_eq_uninitialized.mp hnew)
  ramp := h.ramp
  frames := h.frames
  capacity := h.capacity
  clock _ := ⟨rfl, rfl⟩

theorem push (h : t.Akin u) (f : Frame) :
    { t with input := t.input.push f }.Akin { u with input := u.input.push f } where
  state := h.state
  ready := h.ready
  ramp := h.ramp
  frames := by
    change (t.input.push f).frames = (u.input.push f).frames
    rw [FrameQueue.frames_push, FrameQueue.frames_push, FrameQueue.isFull, FrameQueue.isFull,
      h.frames, h.capacity]
  capacity := by
    change (t.input.push f).capacity = (u.input.push f).capacity
    rw [FrameQueue.capacity_push, FrameQueue.capacity_push, h.capacity]
  clock := h.clock

theorem keepaliveExpired (h : t.Akin u) (hrun : t.isRunning = true) (window : Duration) :
    t.keepaliveExpired window = u.keepaliveExpired window := by
  unfold Transport.keepaliveExpired
  rw [(h.clock hrun).1, (h.clock hrun).2]

theorem measured (h : t.Akin u) (hrun : t.isRunning = true) (step : Duration) (v w : Binary64) :
    (t.measured step v).sendData.Akin (u.measured step w).sendData where
  state := h.state
  ready := h.ready
  ramp := h.ramp
  frames := h.frames
  capacity := h.capacity
  clock _ := ⟨congrArg (·.advance step) (h.clock hrun).1, (h.clock hrun).2⟩

theorem sample_measured (h : t.Akin u) (hrun : t.isRunning = true) (step : Duration)
    (v w : Binary64) :
    (u.measured step w).sample = { (t.measured step v).sample with measurement := w } := by
  unfold Transport.measured Trajectory.follow Transport.sample
  rw [h.ramp, (h.clock hrun).1]

end Akin
end Transport

/-- Frames of samples that tell the same, but for measured values in the relation `S`. -/
def BenchSample.Akin (S : Binary64 → Binary64 → Prop) (f g : Frame) : Prop :=
  ∃ (x : BenchSample) (measurement : Binary64), f = x.toFrame ∧
    g = { x with measurement }.toFrame ∧ S x.measurement measurement

namespace ControlLoop

variable {ρ : Type}

/-- Loops that drive alike, with rigs in the relation `R`. -/
structure Akin (R : ρ → ρ → Prop) (c d : ControlLoop ρ) : Prop where
  settings : c.settings = d.settings
  watchesLink : c.watchesLink = d.watchesLink
  rig : R c.rig d.rig

theorem intake_akin {R : ρ → ρ → Prop} {c d : ControlLoop ρ} (hloop : c.Akin R d)
    {t u : Transport} (h : t.Akin u) : (c.intake t).Akin (d.intake u) := by
  unfold intake
  rw [hloop.settings]
  split
  · exact h.handleFrames
  · exact h

variable [Rig ρ]

variable {S : Binary64 → Binary64 → Prop} {R : ρ → ρ → Prop} {c d : ControlLoop ρ}
  {t u : Transport}

theorem abandon_akin (hR : Rig.Parallel S R) (hloop : c.Akin R d) (h : t.Akin u)
    (outcome : TickOutcome) :
    (c.abandon t outcome).1 = (d.abandon u outcome).1 ∧
      (c.abandon t outcome).2.1.Akin R (d.abandon u outcome).2.1 ∧
      (c.abandon t outcome).2.2.Akin (d.abandon u outcome).2.2 := by
  obtain ⟨r, q, hr, hq, hrq⟩ := hR.safeState _ _ hloop.rig
  rw [abandon_eq, abandon_eq, hr, hq]
  exact ⟨rfl, { hloop with rig := hrq }, h.reset⟩

theorem watch_akin (hR : Rig.Parallel S R) (hloop : c.Akin R d) (h : t.Akin u)
    (hrun : t.isRunning = true) :
    (c.watch t).1 = (d.watch u).1 ∧ (c.watch t).2.1.Akin R (d.watch u).2.1 ∧
      (c.watch t).2.2.Akin (d.watch u).2.2 := by
  unfold watch
  rw [h.keepaliveExpired hrun, hloop.settings]
  split
  · exact abandon_akin hR hloop h .keepaliveExpired
  · exact ⟨rfl, hloop, h⟩

theorem sample_akin (hR : Rig.Parallel S R) (hloop : c.Akin R d) (h : t.Akin u)
    (hrun : t.isRunning = true) :
    ∃ v w r q, S v w ∧ R r q ∧
      c.sample t = (.ok (), { c with rig := r }, (t.measured c.settings.step v).sendData) ∧
      d.sample u = (.ok (), { d with rig := q }, (u.measured d.settings.step w).sendData) ∧
      (t.measured c.settings.step v).sendData.Akin (u.measured d.settings.step w).sendData ∧
      BenchSample.Akin S (t.measured c.settings.step v).sample.toFrame
        (u.measured d.settings.step w).sample.toFrame := by
  have hsetpoint : (c.advance t).trajectory.output = (d.advance u).trajectory.output := by
    change t.trajectory.ramp.evaluate (t.data.time.advance c.settings.step).millis =
      u.trajectory.ramp.evaluate (u.data.time.advance d.settings.step).millis
    rw [h.ramp, (h.clock hrun).1, hloop.settings]
  obtain ⟨v, w, r, q, hv, hw, hvw, hrq⟩ :=
    hR.drive _ _ (c.advance t).trajectory.output c.settings.step hloop.rig
  rw [hsetpoint, hloop.settings] at hw
  refine ⟨v, w, r, q, hvw, hrq, sample_of_drivenTo hv, sample_of_drivenTo hw, ?_⟩
  rw [← hloop.settings]
  exact ⟨h.measured hrun _ v w, _, w, rfl, congrArg _ (h.sample_measured hrun _ v w), hvw⟩

theorem proceed_akin (hR : Rig.Parallel S R) (hloop : c.Akin R d) {link link' : LinkState}
    (hlink : link.connected = link'.connected) (h : t.Akin u) :
    (c.proceed link t).1 = (d.proceed link' u).1 ∧
      (c.proceed link t).2.1.Akin R (d.proceed link' u).2.1 ∧
      (c.proceed link t).2.2.Akin (d.proceed link' u).2.2 ∧
      List.Forall₂ (BenchSample.Akin S) (c.queued? link t).toList (d.queued? link' u).toList := by
  have hlost : c.lostLink link t = d.lostLink link' u := by
    rw [lostLink, lostLink, hloop.settings, hloop.watchesLink, hlink, h.isRunning]
  unfold proceed queued?
  rw [← hlost, ← h.isRunning]
  by_cases hl : c.lostLink link t = true
  · rw [if_pos hl, if_pos hl, if_pos hl, if_pos hl]
    obtain ⟨houtcome, hloop', htransport⟩ := abandon_akin hR hloop h .linkLost
    exact ⟨houtcome, hloop', htransport, .nil⟩
  rw [if_neg hl, if_neg hl, if_neg hl, if_neg hl]
  by_cases hrun : t.isRunning = true
  · obtain ⟨v, w, r, q, -, hrq, hx, hy, hsent, hframe⟩ := sample_akin hR hloop h hrun
    rw [if_pos hrun, if_pos hrun, if_pos hrun, if_pos hrun]
    unfold drive
    rw [hx, hy]
    obtain ⟨houtcome, hloop', htransport⟩ :=
      watch_akin (c := { c with rig := r }) (d := { d with rig := q }) hR { hloop with rig := hrq }
        hsent hrun
    refine ⟨houtcome, hloop', htransport, ?_⟩
    simpa [Transport.sendData] using hframe
  · rw [if_neg hrun, if_neg hrun, if_neg hrun, if_neg hrun]
    exact ⟨rfl, hloop, h, .nil⟩

theorem init_akin (hR : Rig.Parallel S R) (hloop : c.Akin R d) (h : t.Akin u) :
    (c.init t).2.1.Akin R (d.init u).2.1 ∧ (c.init t).2.2.Akin (d.init u).2.2 := by
  obtain ⟨r, q, hr, hq, hrq⟩ := hR.init _ _ hloop.rig
  unfold init
  rw [hr, hq]
  dsimp only
  rw [if_neg h.ready, if_neg (h.state ▸ h.ready)]
  exact ⟨{ hloop with rig := hrq }, h⟩

end ControlLoop

namespace Run

variable {ρ : Type} {S : Binary64 → Binary64 → Prop} {R : ρ → ρ → Prop} {x y : Run ρ}

/-- Runs that go on alike, and have queued samples that tell the same. -/
structure Akin (S : Binary64 → Binary64 → Prop) (R : ρ → ρ → Prop) (x y : Run ρ) : Prop where
  loop : x.loop.Akin R y.loop
  connected : x.bench.link.connected = y.bench.link.connected
  transport : x.bench.transport.Akin y.bench.transport
  sampled : List.Forall₂ (BenchSample.Akin S) x.history.sampled y.history.sampled

namespace Akin

variable [Rig ρ]

theorem tick (hR : Rig.Parallel S R) (h : Akin S R x y) :
    (x.bench.tick x.loop).1 = (y.bench.tick y.loop).1 ∧ Akin S R (x.step .tick) (y.step .tick) := by
  have hintake := ControlLoop.intake_akin h.loop h.transport
  obtain ⟨-, -, -, hqueued⟩ := ControlLoop.proceed_akin hR h.loop h.connected hintake
  obtain ⟨houtcome, hloop, htransport, -⟩ :=
    ControlLoop.proceed_akin (c := { x.loop with ticks := x.loop.ticks + 1 })
      (d := { y.loop with ticks := y.loop.ticks + 1 }) hR { h.loop with } h.connected hintake
  refine ⟨houtcome, hloop, h.connected, htransport, ?_⟩
  change List.Forall₂ _ (x.loop.noteTick x.bench.link x.bench.transport x.history).sampled
    (y.loop.noteTick y.bench.link y.bench.transport y.history).sampled
  rw [ControlLoop.sampled_noteTick, ControlLoop.sampled_noteTick]
  exact List.rel_append h.sampled hqueued

theorem step (hR : Rig.Parallel S R) (h : Akin S R x y) (a : Act) :
    Akin S R (x.step a) (y.step a) := by
  cases a with
  | tick => exact (h.tick hR).2
  | service =>
    refine { h with transport := h.transport.run, sampled := ?_ }
    change List.Forall₂ _ (x.bench.transport.noteRun x.history).sampled
      (y.bench.transport.noteRun y.history).sampled
    rw [Transport.sampled_noteRun, Transport.sampled_noteRun]
    exact h.sampled
  | client act =>
    cases act with
    | submit f => exact { h with transport := h.transport.push f }
    | connect => exact { h with connected := rfl }
    | disconnect => exact { h with connected := rfl }
    | collect => exact { h with transport := { h.transport with } }

theorem undergo (hR : Rig.Parallel S R) (h : Akin S R x y) (d : Deed) :
    Akin S R (x.undergo d) (y.undergo d) := by
  cases d with
  | act a => exact h.step hR a
  | reset => exact { h with transport := h.transport.reset }
  | init =>
    obtain ⟨hloop, htransport⟩ := ControlLoop.init_akin hR h.loop h.transport
    exact { h with loop := hloop, transport := htransport }

theorem through (hR : Rig.Parallel S R) (h : Akin S R x y) (deeds : List Deed) :
    x.outcomes deeds = y.outcomes deeds ∧ Akin S R (x.through deeds) (y.through deeds) := by
  induction deeds generalizing x y with
  | nil => exact ⟨rfl, h⟩
  | cons d deeds ih =>
    obtain ⟨houtcomes, hakin⟩ := ih (h.undergo hR d)
    rw [outcomes, outcomes, houtcomes, (h.tick hR).1]
    exact ⟨rfl, hakin⟩

end Akin
end Run

/-- The ramp a bench begins with, or one that a frame can set. -/
def Ramp.Given (ramp : Ramp Binary64) : Prop :=
  ramp = .zero ∨ ∃ f params, Command.decode f = .ok (some (.trajectory params)) ∧
    params.toRamp = .ok ramp

theorem Ramp.given_invariant (settings : ControlSettings) :
    Invariant settings fun t _ => t.trajectory.ramp.Given where
  input h _ := h
  receive := by
    intro t _ h f
    have hr := t.reception_receive f
    generalize t.receive f = t' at hr ⊢
    generalize t.eventOf f = e at hr
    cases hr with
    | start hf hs => exact h
    | stop hf hs => exact h
    | keepalive hf => exact h
    | trajectory hf hr => exact .inr ⟨f, _, hf, hr⟩
    | rejected hf hn => exact h
    | ignored hf => exact h
  sampled h _ _ _ := h
  expired h _ _ _ := h
  reset h := h
  connected h := h
  disconnected h := h
  collect h := h

namespace Run

variable {ρ : Type} [Rig ρ]

theorem capacity_step (x : Run ρ) (a : Act) :
    (x.step a).bench.transport.input.capacity = x.bench.transport.input.capacity := by
  cases a with
  | tick =>
    have hintake : (x.loop.intake x.bench.transport).input.capacity =
        x.bench.transport.input.capacity := by
      unfold ControlLoop.intake
      split
      · rw [Transport.handleFrames_eq]
        rfl
      · rfl
    change (x.loop.tick x.bench.link x.bench.transport).2.2.input.capacity = _
    rw [ControlLoop.tick_eq_proceed, (ControlLoop.proceed_keeps _ _ _).2]
    exact hintake
  | service =>
    change x.bench.transport.run.2.input.capacity = _
    unfold Transport.run
    split
    · rfl
    · rw [Transport.handleFrames_eq]
      rfl
  | client act =>
    cases act with
    | submit f => exact x.bench.transport.input.capacity_push f
    | connect => rfl
    | disconnect => rfl
    | collect => rfl

/-- What a run has kept since its start. -/
structure Kept (start : Run ρ) (P : ρ → Prop) (x : Run ρ) : Prop where
  settings : x.loop.settings = start.loop.settings
  watchesLink : x.loop.watchesLink = start.loop.watchesLink
  capacity : x.bench.transport.input.capacity = start.bench.transport.input.capacity
  ramp : x.bench.transport.trajectory.ramp.Given
  /-- It is ready and goes on like itself. -/
  steady : x.Akin (fun _ _ => True) (fun r q => P r ∧ P q) x

namespace Kept

variable {home : ρ} {P : ρ → Prop} {start x : Run ρ}

omit [Rig ρ] in
theorem rig (h : Kept start P x) : P x.loop.rig := h.steady.loop.rig.1

theorem undergo (hP : Rig.Homing home P) (h : Kept start P x) (d : Deed) :
    Kept start P (x.undergo d) := by
  have hsteady := h.steady.undergo hP.parallel d
  cases d with
  | act a =>
    obtain ⟨hsettings, hwatches⟩ := x.loop_step a
    have hrig : Rig.Dependable x.loop.rig :=
      ⟨P, ⟨hP.apply, fun r hr => (hP.measure r hr).imp fun _ hm => ⟨r, hm, hr⟩,
        fun r hr => ⟨home, hP.safeState r hr, hP.begins⟩⟩, h.rig⟩
    exact
      { settings := hsettings.trans h.settings
        watchesLink := hwatches.trans h.watchesLink
        capacity := (x.capacity_step a).trans h.capacity
        ramp := (Ramp.given_invariant x.loop.settings).step hrig h.ramp a
        steady := hsteady }
  | reset => exact { h with steady := hsteady }
  | init =>
    -- The transport is ready and stays as it is; only the rig is made ready again.
    have hinit : x.loop.init x.bench.transport =
        (.ok (), { x.loop with rig := home }, x.bench.transport) := by
      unfold ControlLoop.init
      rw [hP.init _ h.rig]
      exact if_neg h.steady.transport.ready
    have hx : x.undergo .init = { x with loop := { x.loop with rig := home } } := by
      unfold Run.undergo
      rw [hinit]
    rw [hx] at hsteady ⊢
    exact { h with steady := hsteady }

theorem through (hP : Rig.Homing home P) (h : Kept start P x) (deeds : List Deed) :
    Kept start P (x.through deeds) := by
  induction deeds generalizing x with
  | nil => exact h
  | cons d deeds ih => exact ih (h.undergo hP d)

omit [Rig ρ] in
theorem state_of_halted (h : Kept start P x) (hx : x.Halted) : x.bench.transport.state = .idle := by
  have hready := h.steady.transport.ready
  have hrun := hx.1
  unfold Transport.isRunning at hrun
  generalize x.bench.transport.state = state at hready hrun
  cases state with
  | uninitialized => exact absurd rfl hready
  | idle => rfl
  | running => cases hrun

omit [Rig ρ] in
theorem akin {S : Binary64 → Binary64 → Prop} {R : ρ → ρ → Prop} {y : Run ρ}
    (h : Kept start P x) (h' : Kept start P y) (hx : x.Halted) (hy : y.Halted)
    (hramp : x.bench.transport.trajectory.ramp = y.bench.transport.trajectory.ramp)
    (hlink : x.bench.link.connected = y.bench.link.connected) (hrig : R x.loop.rig y.loop.rig) :
    Run.Akin S R { x with history := [] } { y with history := [] } where
  loop := ⟨h.settings.trans h'.settings.symm, h.watchesLink.trans h'.watchesLink.symm, hrig⟩
  connected := hlink
  transport :=
    { state := (h.state_of_halted hx).trans (h'.state_of_halted hy).symm
      ready := h.steady.transport.ready
      ramp := hramp
      frames := (List.isEmpty_iff.mp hx.2).trans (List.isEmpty_iff.mp hy.2).symm
      capacity := h.capacity.trans h'.capacity.symm
      -- The clocks may well differ, but nobody reads them before the next start.
      clock := fun hrun => absurd hrun (by rw [hx.1]; exact Bool.false_ne_true) }
  sampled := .nil

end Kept
end Run

theorem ControlLoop.rig_of_init {ρ : Type} [Rig ρ] {c₀ c : ControlLoop ρ} {t₀ t : Transport}
    (hinit : c₀.init t₀ = (.ok (), c, t)) : Rig.init c₀.rig = (.ok (), c.rig) := by
  unfold init at hinit
  rcases hrig : Rig.init c₀.rig with ⟨e | _, rig⟩
  · rw [hrig] at hinit
    cases hinit
  · rw [hrig] at hinit
    dsimp only at hinit
    split at hinit
    · split at hinit <;> cases hinit
      rfl
    · cases hinit
      rfl

namespace Run

variable {ρ : Type}

theorem Kept.start {P : ρ → Prop} {c : ControlLoop ρ} {t : Transport} (ht : t.Ready)
    (hrig : P c.rig) :
    Kept (.start c { transport := t }) P (.start c { transport := t }) := by
  have hready : t.state ≠ .uninitialized := by
    rw [ht.idle]
    exact nofun
  exact
    { settings := rfl
      watchesLink := rfl
      capacity := rfl
      ramp := .inl (congrArg Trajectory.ramp ht.trajectory)
      steady :=
        { loop := ⟨rfl, rfl, hrig, hrig⟩
          connected := rfl
          transport := ⟨rfl, hready, rfl, rfl, rfl, fun _ => ⟨rfl, rfl⟩⟩
          sampled := .nil } }

variable [Rig ρ]

theorem introduce {r : Run ρ} (hidle : r.bench.transport.state = .idle)
    (hempty : r.bench.transport.input.frames = []) {f : Frame} {params : TrajectoryParams}
    {ramp : Ramp Binary64} (hf : Command.decode f = .ok (some (.trajectory params)))
    (hr : params.toRamp = .ok ramp) :
    let y := r.through [.act (.client (.submit f)), .act .service]
    y.Halted ∧ y.bench.transport.trajectory.ramp = ramp ∧ y.bench.link = r.bench.link ∧
      y.loop = r.loop ∧ y.history = .accepted (.trajectory params) :: r.history := by
  intro y
  let pushed : Transport :=
    { r.bench.transport with input := r.bench.transport.input.push f }
  have hframes : pushed.input.frames = [f] := by
    change (r.bench.transport.input.push f).frames = [f]
    rw [FrameQueue.frames_push, hempty]
    split <;> rfl
  have hready : pushed.state ≠ .uninitialized := by
    change r.bench.transport.state ≠ _
    rw [hidle]
    exact nofun
  have hjudge : pushed.state.judge f = .trajectory params ramp := by
    simp [ExperimentState.judge, hf, hr]
  have htransport : pushed.run.2 =
      (pushed.obey (.trajectory params ramp)).rewired pushed.input.clear pushed.output := by
    rw [Transport.run, if_neg hready, Transport.handleFrames_eq, hframes, ← hjudge,
      ← (pushed.receive_eq_obey f).1]
    rfl
  have hhistory : pushed.noteRun r.history = .accepted (.trajectory params) :: r.history := by
    have hevent := ({ pushed with input := pushed.input.clear } : Transport).receive_eq_obey f
    change _ ∧ _ = (pushed.state.judge f).event at hevent
    rw [hjudge] at hevent
    rw [Transport.noteRun, if_neg hready, Transport.noteFrames, FrameQueue.drain, hframes]
    exact congrArg (· :: r.history) hevent.2
  have hy : y = ⟨r.loop, { r.bench with transport := pushed.run.2 }, pushed.noteRun r.history⟩ :=
    rfl
  rw [hy, htransport, hhistory]
  have hstill : pushed.isRunning = false := by
    change (r.bench.transport.state == .running) = false
    rw [hidle]
    rfl
  exact ⟨⟨hstill, rfl⟩, rfl, rfl, rfl, rfl⟩

/-- A bench made ready can be given any such ramp, and a link that is up or down, before anything
else happens to it. -/
theorem exists_opening {c : ControlLoop ρ} {t : Transport} (ht : t.Ready)
    (hempty : t.input.frames = []) {ramp : Ramp Binary64} (hramp : ramp.Given) (connected : Bool) :
    ∃ opening, let y := (Run.start c { transport := t }).through opening
      y.Halted ∧ y.bench.transport.trajectory.ramp = ramp ∧ y.bench.link.connected = connected ∧
        y.loop = c ∧ ∀ e ∈ y.history, e = .connected ∨
          ∃ params, e = .accepted (.trajectory params) ∧ params.toRamp = .ok ramp := by
  -- The client comes first, if one is to be there; then the ramp.
  obtain ⟨first, htransport, hlink, hloop, hhistory⟩ : ∃ first,
      let y := (Run.start c { transport := t }).through first
      y.bench.transport = t ∧ y.bench.link.connected = connected ∧ y.loop = c ∧
        ∀ e ∈ y.history, e = .connected := by
    cases connected with
    | false => exact ⟨[], rfl, rfl, rfl, nofun⟩
    | true => exact ⟨[.act (.client .connect)], rfl, rfl, rfl, fun e he => List.mem_singleton.mp he⟩
  rcases hramp with rfl | ⟨f, params, hf, hr⟩
  · refine ⟨first, ⟨?_, ?_⟩, ?_, hlink, hloop, fun e he => .inl (hhistory e he)⟩
    · rw [htransport, Transport.isRunning, ht.idle]
      rfl
    · rw [htransport]
      exact List.isEmpty_iff.mpr hempty
    · rw [htransport, ht.trajectory]
  · obtain ⟨hhalted, hset, hlink', hloop', hhistory'⟩ :=
      introduce (r := (Run.start c { transport := t }).through first)
        ((congrArg Transport.state htransport).trans ht.idle)
        ((congrArg (·.input.frames) htransport).trans hempty) hf hr
    refine ⟨first ++ [.act (.client (.submit f)), .act .service], ?_⟩
    rw [through, List.foldl_append]
    have hlink := (congrArg LinkState.connected hlink').trans hlink
    refine ⟨hhalted, hset, hlink, hloop'.trans hloop, ?_⟩
    intro e he
    have he' : e ∈ Event.accepted (.trajectory params) ::
        ((Run.start c { transport := t }).through first).history := hhistory' ▸ he
    rcases List.mem_cons.mp he' with rfl | he'
    · exact .inr ⟨params, rfl, hr⟩
    · exact .inl (hhistory e he')

end Run

/-- What an experiment leaves behind, for every bench made ready, both kinds of rigs, and everything
that can have happened to the bench before it stands still with no frame waiting. A bench made ready
like it, to which nothing happened but that a client came, if one is there, and a frame set the
ramp, if it is not the one a bench begins with, stands still with this ramp and this link. Every
bench that stands still with this ramp and this link goes on like it, whatever is done to both, a
start to begin with: all ticks have the same result, and the samples tell the same times, set-points
and ramps, one by one. They tell the same measured values as well without hardware, and if neither
rig was driven since it was last made ready or brought to rest. -/
theorem restart_like_fresh {c₀ c : ControlLoop (Noted ConfiguredRig)} {t : Transport}
    {inputCapacity outputCapacity : Nat}
    (hinit : c₀.init (Bench.new inputCapacity outputCapacity).transport = (.ok (), c, t))
    {past : List Deed} (hx : ((Run.start c { transport := t }).through past).Halted) :
    let x := (Run.start c { transport := t }).through past
    let ramp := x.bench.transport.trajectory.ramp
    (∃ opening, let y := (Run.start c { transport := t }).through opening
      y.Halted ∧ y.bench.transport.trajectory.ramp = ramp ∧
        y.bench.link.connected = x.bench.link.connected ∧ y.loop = c ∧ c.rig.seen.driven = false ∧
        ∀ e ∈ y.history, e = .connected ∨
          ∃ params, e = .accepted (.trajectory params) ∧ params.toRamp = .ok ramp) ∧
    ∀ opening deeds, let y := (Run.start c { transport := t }).through opening
      y.Halted → y.bench.transport.trajectory.ramp = ramp →
      y.bench.link.connected = x.bench.link.connected →
        x.outcomes deeds = y.outcomes deeds ∧
        List.Forall₂ (fun f g => ∃ (sample : BenchSample) (measurement : Binary64),
          BenchSample.ofFrame f = .ok sample ∧
            BenchSample.ofFrame g = .ok { sample with measurement })
          (x.samplesOf deeds) (y.samplesOf deeds) ∧
        ((∃ rig, c₀.rig.rig = .null rig) ∨
            x.loop.rig.seen.driven = false ∧ y.loop.rig.seen.driven = false →
          x.samplesOf deeds = y.samplesOf deeds) := by
  intro x ramp
  have ht : t.Ready := ControlLoop.Initialised.ready ⟨c₀, _, hinit, .inl rfl⟩
  have hempty : t.input.frames = [] := by
    have htakes := c₀.takes_init (Bench.new inputCapacity outputCapacity).transport
    rw [hinit] at htakes
    exact htakes.frames
  obtain ⟨hrig, hdriven⟩ := Noted.init_ok (ControlLoop.rig_of_init hinit)
  obtain ⟨P, hhoming, -, hnull⟩ := ConfiguredRig.exists_homing hrig
  have hP := Noted.homing hhoming
  have hstart : Run.Kept (.start c { transport := t }) (Noted.Keeps c.rig.rig P)
      (.start c { transport := t }) := .start ht ⟨hhoming.begins, fun _ => rfl⟩
  have hkept := hstart.through hP past
  constructor
  · obtain ⟨opening, hhalted, hramp, hlink, hloop, hhistory⟩ :=
      Run.exists_opening (c := c) ht hempty hkept.ramp x.bench.link.connected
    exact ⟨opening, hhalted, hramp, hlink, hloop, hdriven, hhistory⟩
  intro opening deeds y hy hramp hlink
  have hkept' := hstart.through hP opening
  have halike := (hkept.akin hkept' hx hy hramp.symm hlink.symm ⟨hkept.rig, hkept'.rig⟩).through
    hP.parallel deeds
  refine ⟨?_, halike.2.sampled.imp ?_, fun hcase => ?_⟩
  · rw [← x.outcomes_forget [], ← y.outcomes_forget []]
    exact halike.1
  · rintro _ _ ⟨sample, measurement, rfl, rfl, -⟩
    exact ⟨sample, measurement, BenchSample.ofFrame_toFrame _, BenchSample.ofFrame_toFrame _⟩
  · obtain ⟨R, hR, hrig⟩ : ∃ R, Rig.Parallel Eq R ∧ R x.loop.rig y.loop.rig := by
      rcases hcase with hnone | ⟨hxrig, hyrig⟩
      · exact
          ⟨_, ConfiguredRig.parallel_null, hnull hnone _ hkept.rig.1, hnull hnone _ hkept'.rig.1⟩
      · refine ⟨_, hP.parallel_self, ?_, hkept.rig⟩
        rw [hkept.rig.eq_of_not_driven hxrig, hkept'.rig.eq_of_not_driven hyrig]
    have hsame := (hkept.akin hkept' hx hy hramp.symm hlink.symm hrig).through hR deeds
    rw [← List.forall₂_eq_eq_eq]
    refine hsame.2.sampled.imp ?_
    rintro _ _ ⟨sample, measurement, rfl, rfl, rfl⟩
    rfl

/-- A second experiment, and the first of another bench. -/
theorem restart_like_fresh_second :
    let c₀ : ControlLoop (Noted ConfiguredRig) :=
      { rig := ⟨.null {}, {}⟩, settings := ⟨.ofMillis 100, .zero, true, true⟩ }
    let c := (c₀.init (Bench.new 4 4).transport).2.1
    let t := (c₀.init (Bench.new 4 4).transport).2.2
    let say := fun command : Command => Deed.act (.client (.submit command.toFrame))
    let ramp := say (.trajectory ⟨.zero, ⟨0x3f800000⟩, 0, 300⟩)
    let start := say .start
    let stop := say .stop
    let tick : Deed := .act .tick
    let x := (Run.start c { transport := t }).through [ramp, start, tick, tick, stop, tick]
    let y := (Run.start c { transport := t }).through [ramp, .act .service]
    c₀.init (Bench.new 4 4).transport = (.ok (), c, t) ∧ x.Halted ∧ y.Halted ∧
      y.bench.transport.trajectory.ramp = x.bench.transport.trajectory.ramp ∧
      x.bench.transport.data ≠ y.bench.transport.data ∧
      x.outcomes [start, tick, tick] = [.ok .sampled, .ok .sampled] ∧
      (x.samplesOf [start, tick, tick]).length = 2 ∧
      x.samplesOf [start, tick, tick] = y.samplesOf [start, tick, tick] := by
  intro c₀ c t say ramp start stop tick x y
  have hinit : c₀.init (Bench.new 4 4).transport = (.ok (), c, t) := rfl
  have hx : x.Halted := by decide +kernel
  have hy : y.Halted := by decide +kernel
  have hramp : y.bench.transport.trajectory.ramp = x.bench.transport.trajectory.ramp := by
    decide +kernel
  have hdata : x.bench.transport.data ≠ y.bench.transport.data := by decide +kernel
  obtain ⟨houtcomes, -, hsamples⟩ := (restart_like_fresh hinit hx).2 [ramp, .act .service]
    [start, tick, tick] hy (by decide +kernel) (by decide +kernel)
  have hfresh : y.outcomes [start, tick, tick] = [.ok .sampled, .ok .sampled] := by decide +kernel
  exact ⟨hinit, hx, hy, hramp, hdata, houtcomes.trans hfresh, by decide +kernel,
    hsamples (.inl ⟨_, rfl⟩)⟩

end RigBench
