import RigBench.Proofs.Run
import RigBench.Proofs.SampleCodec

/-!
The experiment's clock against the history. While an experiment runs, its time is the number of
samples since its start times the step; the ramp in force is the one accepted last.
-/
namespace RigBench

/-- The loop has made its rig ready, and found a transport that was new to the life of a bench or
made it so. -/
def ControlLoop.Initialised {ρ : Type} [Rig ρ] (c : ControlLoop ρ) (t : Transport) : Prop :=
  ∃ (c₀ : ControlLoop ρ) (t₀ : Transport), c₀.init t₀ = (.ok (), c, t) ∧
    (t₀.state = .uninitialized ∨ ∃ t₁ : Transport, t₁.init = .ok t₀)

structure Transport.Ready (t : Transport) : Prop where
  idle : t.state = .idle
  data : t.data = {}
  trajectory : t.trajectory = {}
  keepaliveTime : t.keepaliveTime = .zero

theorem Transport.ready_of_init {t t' : Transport} (h : t.init = .ok t') : t'.Ready := by
  unfold init at h
  rcases htransition : t.lifecycle.transition .idle with e | lifecycle
  · rw [htransition] at h
    cases h
  · rw [htransition] at h
    cases h
    unfold Lifecycle.transition at htransition
    split at htransition
    · cases htransition
      exact ⟨rfl, rfl, rfl, rfl⟩
    · cases htransition

theorem ControlLoop.Initialised.ready {ρ : Type} [Rig ρ] {c : ControlLoop ρ} {t : Transport}
    (h : c.Initialised t) : t.Ready := by
  obtain ⟨c₀, t₀, hinit, hnew⟩ := h
  unfold ControlLoop.init at hinit
  split at hinit
  · cases hinit
  split at hinit
  · split at hinit
    · next t' hmake =>
      cases hinit
      exact Transport.ready_of_init hmake
    · cases hinit
  · next hready =>
    cases hinit
    rcases hnew with hnew | ⟨t₁, hmake⟩
    · exact absurd hnew hready
    · exact Transport.ready_of_init hmake

namespace History

theorem lastSample_of_samplesSinceStart {h : History} {k : Nat}
    (hk : h.samplesSinceStart = some (k + 1)) : ∃ f, h.lastSample = some f := by
  induction h with
  | nil => cases hk
  | cons e h ih =>
    cases e with
    | sample f => exact ⟨f, rfl⟩
    | accepted command =>
      cases command with
      | start => cases hk
      | stop => exact ih hk
      | keepalive => exact ih hk
      | trajectory params => exact ih hk
    | refused => exact ih hk
    | connected => exact ih hk
    | disconnected => exact ih hk

end History

/-- The time after `k` steps of `s` milliseconds; the clock stops at its last value. -/
def clockAfter (k s : Nat) : Nat := min (k * s) ExperimentTime.last

theorem clockAfter_of_lt {k s : Nat} (h : k * s < 18446744073709551616) :
    clockAfter k s = k * s := by
  have hlast : ExperimentTime.last = 18446744073709551615 := rfl
  unfold clockAfter
  omega

theorem toNat_advance_clockAfter {time : ExperimentTime} {step : Duration} {k s : Nat}
    (hs : step.millis = s) (htime : time.millis.toNat = clockAfter k s) :
    (time.advance step).millis.toNat = clockAfter (k + 1) s := by
  rw [ExperimentTime.toNat_advance, htime, hs, clockAfter, clockAfter, Nat.succ_mul]
  omega

/-- What a history says about the transport it led to, at `s` milliseconds for a sample. -/
structure Tracks (s : Nat) (t : Transport) (h : History) : Prop where
  ramp : t.trajectory.ramp = h.ramp
  clock : t.isRunning = true →
    ∃ k, h.samplesSinceStart = some k ∧ t.data.time.millis.toNat = clockAfter k s
  last : ∀ f, h.lastSample = some f →
    ∃ k x, h.samplesSinceStart = some k ∧ BenchSample.ofFrame f = .ok x ∧
      x.time.toNat = clockAfter k s % 4294967296

namespace Tracks

variable {s : Nat} {t : Transport} {h : History}

theorem start (s : Nat) (ht : t.Ready) : Tracks s t [] where
  ramp := by rw [ht.trajectory]; rfl
  clock hrun := by simp [Transport.isRunning, ht.idle] at hrun
  last _ hf := by cases hf

theorem receive (ht : Tracks s t h) (f : Frame) : Tracks s (t.receive f) (t.eventOf f :: h) := by
  have hr := t.reception_receive f
  generalize t.receive f = t' at hr ⊢
  generalize t.eventOf f = e at hr ⊢
  cases hr with
  | start hf hs =>
    refine ⟨ht.ramp, fun _ => ⟨0, rfl, ?_⟩, fun _ hlast => (by cases hlast)⟩
    rw [clockAfter, Nat.zero_mul]
    rfl
  | stop hf hs => exact ⟨ht.ramp, fun hrun => (by cases hrun), ht.last⟩
  | keepalive hf => exact ⟨ht.ramp, ht.clock, ht.last⟩
  | @trajectory params ramp hf hr =>
    refine ⟨?_, ht.clock, ht.last⟩
    change ramp = params.toRamp.toOption.getD _
    rw [hr]
    rfl
  | rejected hf hn => exact ⟨ht.ramp, ht.clock, ht.last⟩
  | ignored hf => exact ⟨ht.ramp, ht.clock, ht.last⟩

theorem measured {step : Duration} (hs : step.millis = s) (ht : Tracks s t h)
    (hrun : t.isRunning = true) (value : Binary64) :
    Tracks s (t.measured step value).sendData
      (.sample (t.measured step value).sample.toFrame :: h) := by
  obtain ⟨k, hk, htime⟩ := ht.clock hrun
  have hk' := History.samplesSinceStart_sample hk (t.measured step value).sample.toFrame
  have htime' := toNat_advance_clockAfter hs htime
  refine ⟨ht.ramp, fun _ => ⟨k + 1, hk', htime'⟩, fun f hf => ?_⟩
  obtain rfl := Option.some.inj hf
  refine ⟨k + 1, (t.measured step value).sample, hk', BenchSample.ofFrame_toFrame _, ?_⟩
  rw [← htime']
  exact ExperimentTime.toNat_wireMillis _

theorem reset (ht : Tracks s t h) : Tracks s t.reset h where
  ramp := ht.ramp
  clock hrun := by rw [t.isRunning_reset] at hrun; cases hrun
  last := ht.last

theorem invariant {settings : ControlSettings} (hs : settings.step.millis = s) :
    Invariant settings (Tracks s) where
  input ht _ := ⟨ht.ramp, ht.clock, ht.last⟩
  receive ht f := ht.receive f
  sampled ht hrun value _ := ht.measured hs hrun value
  expired ht hrun value _ := (ht.measured hs hrun value).reset
  reset ht := ht.reset
  connected ht := ⟨ht.ramp, ht.clock, ht.last⟩
  disconnected ht := ⟨ht.ramp, ht.clock, ht.last⟩
  collect ht := ⟨ht.ramp, ht.clock, ht.last⟩

end Tracks

theorem Duration.millis_of_nanos {d : Duration} {s : Nat} (h : d.nanos = s * 1000000) :
    d.millis = s := by
  rw [millis, h]
  exact Nat.mul_div_cancel s (by decide)

end RigBench
