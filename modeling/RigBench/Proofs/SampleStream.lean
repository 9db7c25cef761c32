import RigBench.Proofs.ExperimentClock

/-!
The stream of samples. A tick queues one sample exactly if the experiment is running and the client
has not gone; the samples of an experiment are numbered by the clock and follow one ramp each.
-/
namespace RigBench

namespace Run

variable {ρ : Type}

/-- The next tick finds an experiment to run: it is running when the frames are taken in, and the
loop does not see the client gone. -/
def Drives (r : Run ρ) : Prop :=
  r.atTick.isRunning = true ∧
    ¬(r.loop.settings.stopOnDisconnect = true ∧ r.loop.watchesLink = true ∧
      r.bench.link.connected = false)

theorem drives_iff (r : Run ρ) :
    r.Drives ↔ r.atTick.isRunning = true ∧ r.loop.lostLink r.bench.link r.atTick = false := by
  unfold Drives ControlLoop.lostLink
  cases r.atTick.isRunning <;> cases r.loop.settings.stopOnDisconnect <;>
    cases r.loop.watchesLink <;> cases r.bench.link.connected <;> simp

variable [Rig ρ]

/-- The next tick pushes one frame into the output queue; a tick that ends the experiment empties
the queue after that. -/
def QueuesOne (r : Run ρ) (f : Frame) : Prop :=
  let outcome := (r.bench.tick r.loop).1
  let after := (r.bench.tick r.loop).2.2
  after.transport.stats.sent = r.bench.transport.stats.sent + 1 ∧
    (outcome = .ok .sampled ∧ after.transport.output = r.bench.transport.output.push f ∨
      outcome = .ok .keepaliveExpired ∧
        after.transport.output = (r.bench.transport.output.push f).clear)

def QueuesNone (r : Run ρ) : Prop :=
  let outcome := (r.bench.tick r.loop).1
  let after := (r.bench.tick r.loop).2.2
  after.transport.stats.sent = r.bench.transport.stats.sent ∧
    (outcome = .ok .idle ∧ after.transport.output = r.bench.transport.output ∨
      outcome = .ok .linkLost ∧ after.transport.output = r.bench.transport.output.clear)

theorem Drives.queuesOne {r : Run ρ} (hd : r.Drives) (hrig : Rig.Dependable r.loop.rig) :
    ∃ value, Rig.reportAfter r.loop.rig
        (r.atTick.measured r.loop.settings.step value).trajectory.output r.loop.settings.step =
          .ok value ∧
      r.QueuesOne (r.atTick.measured r.loop.settings.step value).sample.toFrame ∧
      (r.step .tick).history =
        .sample (r.atTick.measured r.loop.settings.step value).sample.toFrame ::
          r.historyAtTick := by
  obtain ⟨hrun, hlink⟩ := r.drives_iff.mp hd
  obtain ⟨outcome, loop, transport, history, hway, htick, hstep⟩ := r.step_tick
  obtain ⟨houtput, hsent⟩ := r.loop.intake_output r.bench.transport
  unfold QueuesOne
  rw [hstep, htick]
  cases hway with
  | linkLost hlost => rw [hlink] at hlost; cases hlost
  | idle hidle => rw [hrun] at hidle; cases hidle
  | failed _ _ hsample => exact absurd hsample (ControlLoop.sample_ne_error hrig)
  | @sampled value rig hs hwindow =>
    refine ⟨value, hs.report, ⟨congrArg (· + 1) hsent, .inl ⟨rfl, ?_⟩⟩, rfl⟩
    rw [← houtput]
    rfl
  | @expired value rig hs hwindow =>
    obtain ⟨rig', hsafe, -⟩ := (hs.dependable hrig).safeState
    refine ⟨value, hs.report, ⟨congrArg (· + 1) hsent, .inr ⟨by rw [hsafe]; rfl, ?_⟩⟩, rfl⟩
    rw [← houtput]
    rfl

theorem queuesNone_of_not_drives {r : Run ρ} (hd : ¬r.Drives)
    (hrig : Rig.Dependable r.loop.rig) :
    r.QueuesNone ∧ (r.step .tick).history = r.historyAtTick := by
  rw [drives_iff] at hd
  obtain ⟨outcome, loop, transport, history, hway, htick, hstep⟩ := r.step_tick
  obtain ⟨houtput, hsent⟩ := r.loop.intake_output r.bench.transport
  unfold QueuesNone
  rw [hstep, htick]
  cases hway with
  | linkLost hlost =>
    obtain ⟨rig, hsafe, -⟩ := hrig.safeState
    refine ⟨⟨hsent, .inr ⟨by rw [hsafe]; rfl, ?_⟩⟩, rfl⟩
    exact congrArg FrameQueue.clear houtput
  | idle hidle => exact ⟨⟨hsent, .inl ⟨rfl, houtput⟩⟩, rfl⟩
  | failed hlink hrun _ => exact absurd ⟨hrun, hlink⟩ hd
  | sampled hs hwindow => exact absurd ⟨hs.running, hs.linked⟩ hd
  | expired hs hwindow => exact absurd ⟨hs.running, hs.linked⟩ hd

end Run

theorem wireTime_succ {x y : UInt32} {k s : Nat} (hk : (k + 1) * s < 18446744073709551616)
    (hx : x.toNat = (k + 1) * s % 4294967296) (hy : y.toNat = clockAfter k s % 4294967296) :
    x = y + UInt32.ofNat s ∧ (1 ≤ s → (k + 1) * s < 4294967296 → y < x) := by
  rw [Nat.succ_mul] at hk hx
  rw [clockAfter_of_lt (by omega)] at hy
  refine ⟨?_, fun hs hshort => ?_⟩
  · apply UInt32.toNat.inj
    rw [UInt32.toNat_add, UInt32.toNat_ofNat', hx, hy, ← Nat.add_mod]
  · rw [Nat.succ_mul] at hshort
    rw [UInt32.lt_iff_toNat_lt, hx, hy]
    omega

/-- The sample stream of an experiment, for every run of an initialised loop on a rig that does not
fail, at `s` milliseconds of experiment time for a step. A tick queues exactly one frame if it finds
an experiment to run, and none otherwise. The `k`-th frame since the last accepted start is a sample
of time `k * s`, modulo `2 ^ 32` on the wire, and of the ramp accepted last, evaluated at the full
time; its measurement is what the rig reports at that set-point. On the wire the samples of one
experiment are one step apart. -/
theorem tick_queues_sample_of_ramp {ρ : Type} [Rig ρ] {c : ControlLoop ρ} {b : Bench} {s : Nat}
    (hinit : c.Initialised b.transport) (hrig : Rig.Dependable c.rig)
    (hstep : c.settings.step.nanos = s * 1000000) (acts : List Act) :
    let r := (Run.start c b).after acts
    let next := (r.step .tick).history
    (r.Drives → ∃ f x k,
      r.QueuesOne f ∧ next = .sample f :: r.historyAtTick ∧ next.samplesSinceStart = some k ∧
      BenchSample.ofFrame f = .ok x ∧
      (k * s < 18446744073709551616 →
        x.time.toNat = k * s % 4294967296 ∧
        x.setpoint = next.ramp.evaluate (.ofNat (k * s)) ∧
        (k = 1 ∨ ∃ g y, r.historyAtTick.lastSample = some g ∧ BenchSample.ofFrame g = .ok y ∧
          x.time = y.time + UInt32.ofNat s ∧
          (1 ≤ s → k * s < 4294967296 → y.time < x.time))) ∧
      x.startValue = next.ramp.startValue ∧ x.endValue = next.ramp.endValue ∧
      Rig.reportAfter r.loop.rig x.setpoint c.settings.step = .ok x.measurement) ∧
    (¬r.Drives → r.QueuesNone ∧ next = r.historyAtTick) ∧
    ∀ (rig : NullRig) (setpoint : Binary64) (dt : Duration),
      Rig.reportAfter rig setpoint dt = .ok setpoint := by
  intro r next
  have hmillis := Duration.millis_of_nanos hstep
  have hsettings : r.loop.settings = c.settings := ((Run.start c b).loop_after acts).1
  have hrig' : Rig.Dependable r.loop.rig := Run.dependable_after hrig acts
  have hinvariant := Tracks.invariant hmillis
  have htracks : Tracks s r.atTick r.historyAtTick :=
    hinvariant.intake r.loop (hinvariant.after hrig (Tracks.start s hinit.ready) acts)
  refine ⟨fun hd => ?_, fun hd => Run.queuesNone_of_not_drives hd hrig', fun _ _ _ => rfl⟩
  obtain ⟨value, hreport, hqueues, hnext⟩ := hd.queuesOne hrig'
  rw [hsettings] at hreport hqueues hnext
  obtain ⟨k, hk, htime⟩ := htracks.clock hd.1
  have htime' := toNat_advance_clockAfter hmillis htime
  have hnext_eq : next = _ := hnext
  have hramp : next.ramp = r.atTick.trajectory.ramp := by
    rw [hnext_eq, htracks.ramp]
    rfl
  refine ⟨_, (r.atTick.measured c.settings.step value).sample, k + 1, hqueues, hnext, ?_,
    BenchSample.ofFrame_toFrame _, fun hlt => ?_, ?_, ?_, hreport⟩
  · rw [hnext_eq]
    exact History.samplesSinceStart_sample hk _
  · rw [clockAfter_of_lt hlt] at htime'
    have hwire : (r.atTick.measured c.settings.step value).sample.time.toNat =
        (k + 1) * s % 4294967296 := by
      rw [← htime']
      exact ExperimentTime.toNat_wireMillis _
    refine ⟨hwire, ?_, ?_⟩
    · rw [hramp, ← htime', UInt64.ofNat_toNat]
      rfl
    · cases k with
      | zero => exact .inl rfl
      | succ k =>
        obtain ⟨g, hg⟩ := History.lastSample_of_samplesSinceStart hk
        obtain ⟨k', y, hk', hy, hytime⟩ := htracks.last g hg
        obtain rfl := Option.some.inj (hk.symm.trans hk')
        exact .inr ⟨g, y, hg, hy, wireTime_succ hlt hwire hytime⟩
  · rw [hramp]
    rfl
  · rw [hramp]
    rfl

/-- The third sample of an experiment with steps of 100 ms. -/
theorem tick_queues_sample_of_ramp_third :
    let c : ControlLoop NullRig :=
      { rig := {}, settings := ⟨.ofMillis 100, .zero, true, true⟩, watchesLink := false }
    let b := (Bench.new 4 4).init.2
    let r := (Run.start c b).after [.client (.submit Command.start.toFrame), .tick, .tick]
    c.Initialised b.transport ∧ Rig.Dependable c.rig ∧
      c.settings.step.nanos = 100 * 1000000 ∧ r.Drives ∧
      ∃ f x, r.QueuesOne f ∧ BenchSample.ofFrame f = .ok x ∧ x.time.toNat = 300 := by
  intro c b r
  have hinit : c.Initialised b.transport := ⟨c, (Bench.new 4 4).transport, rfl, .inl rfl⟩
  have hdrives : r.Drives := by
    unfold Run.Drives
    decide +kernel
  obtain ⟨f, x, k, hqueues, -, hk, hx, htime, -⟩ :=
    (tick_queues_sample_of_ramp hinit (NullRig.dependable _) rfl
      [.client (.submit Command.start.toFrame), .tick, .tick]).1 hdrives
  have hthird : (r.step .tick).history.samplesSinceStart = some 3 := by decide +kernel
  obtain rfl : k = 3 := Option.some.inj (hk.symm.trans hthird)
  exact ⟨hinit, NullRig.dependable _, rfl, hdrives, f, x, hqueues, hx, (htime (by decide)).1⟩

end RigBench
