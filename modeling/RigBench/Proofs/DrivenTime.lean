import RigBench.Proofs.KeepaliveWindow
import RigBench.Proofs.MeteredRig

/-!
The clock of an experiment against the time its rig is driven for. Every tick hands the rig a whole
step and moves the clock by the whole milliseconds of it: the two agree for steps of whole
milliseconds, drift apart for others, and with a step below a millisecond the clock stands still.
-/
namespace RigBench

namespace Transport

theorem receive_resets (t : Transport) (f : Frame) :
    (t.receive f).stats.resets = t.stats.resets := by
  have hr := t.reception_receive f
  generalize t.receive f = t' at hr ⊢
  generalize t.eventOf f = e at hr
  cases hr <;> rfl

theorem handleFrames_resets (t : Transport) : t.handleFrames.2.stats.resets = t.stats.resets := by
  have hsame : ∀ (t' : Transport) (_ : History) (f : Frame), t'.stats.resets = t.stats.resets →
      (t'.receive f).stats.resets = t.stats.resets :=
    fun t' _ f ht' => (t'.receive_resets f).trans ht'
  exact note_induction (P := fun t' _ => t'.stats.resets = t.stats.resets) hsame t.input.drain.1
    { t with input := t.input.drain.2 } [] rfl

end Transport

theorem ControlLoop.intake_resets {ρ : Type} (c : ControlLoop ρ) (t : Transport) :
    (c.intake t).stats.resets = t.stats.resets := by
  unfold intake
  split
  · exact t.handleFrames_resets
  · rfl

structure Progress where
  /-- Ticks that advanced its time. -/
  ticks : Nat := 0
  /-- Nanoseconds its rig was driven for. -/
  driven : Nat := 0
  deriving DecidableEq

/-- The progress when frames have been taken in: with an accepted start it begins anew. -/
def Progress.renewed (p : Option Progress) (news : History) : Option Progress :=
  if .accepted .start ∈ news then some {} else p

instance {ρ : Type} (r : Run ρ) : Decidable r.Drives := inferInstanceAs (Decidable (_ ∧ _))

/-- A run with a meter on its rig, and the progress of the experiment that was started last, unless
it was reset since. -/
structure Drive (ρ : Type) where
  run : Run (Metered ρ)
  progress : Option Progress := none

namespace Drive

variable {ρ : Type}

def start (c : ControlLoop (Metered ρ)) (b : Bench) : Drive ρ := { run := .start c b }

def transport (x : Drive ρ) : Transport := x.run.bench.transport

variable [Rig ρ]

def progressAtTick (x : Drive ρ) : Option Progress :=
  Progress.renewed x.progress (x.run.loop.noteIntake x.transport [])

/-- The progress after an act: what the tick, the meter and the count of resets tell. -/
def progressAfter (x : Drive ρ) : Act → Option Progress
  | .tick =>
    let after := x.run.step .tick
    if after.bench.transport.stats.resets = x.transport.stats.resets then
      if x.run.Drives then
        x.progressAtTick.map fun p =>
          ⟨p.ticks + 1, p.driven + (after.loop.rig.seen.driven - x.run.loop.rig.seen.driven)⟩
      else x.progressAtTick
    else none
  | .service => Progress.renewed x.progress (x.transport.noteRun [])
  | .client _ => x.progress

def step (x : Drive ρ) (a : Act) : Drive ρ := { run := x.run.step a, progress := x.progressAfter a }

def after (x : Drive ρ) (acts : List Act) : Drive ρ := acts.foldl step x

theorem after_append_singleton (x : Drive ρ) (acts : List Act) (a : Act) :
    x.after (acts ++ [a]) = (x.after acts).step a := by
  rw [after, List.foldl_append]
  rfl

theorem run_after (x : Drive ρ) (acts : List Act) : (x.after acts).run = x.run.after acts := by
  induction acts using List.reverseRecOn with
  | nil => rfl
  | append_singleton acts a ih =>
    rw [after_append_singleton, Run.after_append_singleton, ← ih]
    rfl

end Drive

/-- The clock shows the whole milliseconds of a step for every tick, the rig was driven for a whole
step on every tick, and an experiment that is running is known. -/
structure Agrees (step : Duration) (p : Option Progress) (t : Transport) : Prop where
  driven : ∀ x, p = some x → x.driven = x.ticks * step.nanos
  clock : ∀ x, p = some x → t.data.time.millis.toNat = clockAfter x.ticks step.millis
  running : t.isRunning = true → p.isSome = true
  ordered : t.trajectory.ramp.startTime ≤ t.trajectory.ramp.endTime

namespace Agrees

variable {step : Duration} {p : Option Progress} {t : Transport}

theorem start (step : Duration) (ht : t.Ready) : Agrees step none t where
  driven := nofun
  clock := nofun
  running hrun := by simp [Transport.isRunning, ht.idle] at hrun
  ordered := by rw [ht.trajectory]; exact Nat.le_refl 0

theorem reset (h : Agrees step p t) : Agrees step none t.reset where
  driven := nofun
  clock := nofun
  running hrun := by rw [t.isRunning_reset] at hrun; cases hrun
  ordered := h.ordered

theorem congr {t' : Transport} (h : Agrees step p t) (hdata : t'.data = t.data)
    (hrun : t'.isRunning = true → t.isRunning = true)
    (hramp : t'.trajectory.ramp = t.trajectory.ramp) : Agrees step p t' where
  driven := h.driven
  clock x hx := by rw [hdata]; exact h.clock x hx
  running hr := h.running (hrun hr)
  ordered := by rw [hramp]; exact h.ordered

theorem frameInvariant (step : Duration) (p : Option Progress) :
    FrameInvariant fun t news => Agrees step (Progress.renewed p news) t where
  input h _ := h.congr rfl id rfl
  receive := by
    intro t news h f
    have hr := t.reception_receive f
    generalize t.receive f = t' at hr ⊢
    generalize t.eventOf f = e at hr ⊢
    have hother : e ≠ .accepted .start →
        Progress.renewed p (e :: news) = Progress.renewed p news := by
      intro he
      simp [Progress.renewed, he.symm]
    cases hr with
    | start hf hs =>
      rw [show Progress.renewed p (.accepted .start :: news) = some {} from
        if_pos List.mem_cons_self]
      refine ⟨?_, ?_, fun _ => rfl, h.ordered⟩
      · intro x hx
        obtain rfl := Option.some.inj hx
        exact (Nat.zero_mul _).symm
      · intro x hx
        obtain rfl := Option.some.inj hx
        rw [clockAfter, Nat.zero_mul]
        rfl
    | stop hf hs => rw [hother (by simp)]; exact h.congr rfl (fun hrun => (by cases hrun)) rfl
    | keepalive hf => rw [hother (by simp)]; exact h.congr rfl id rfl
    | @trajectory params ramp hf hr =>
      rw [hother (by simp)]
      exact { h with ordered := (TrajectoryParams.toRamp_eq_ok_iff.mp hr).2.ordered }
    | rejected hf hn => rw [hother (by simp)]; exact h.congr rfl id rfl
    | ignored hf => rw [hother (by simp)]; exact h.congr rfl id rfl

theorem advance {t' : Transport} (h : Agrees step p t) (hrun : t.isRunning = true)
    (htime : t'.data.time = t.data.time.advance step)
    (hramp : t'.trajectory.ramp = t.trajectory.ramp) {before after : Nat}
    (hmeter : after = before + step.nanos) :
    Agrees step (p.map fun x => ⟨x.ticks + 1, x.driven + (after - before)⟩) t' := by
  obtain ⟨x, rfl⟩ := Option.isSome_iff_exists.mp (h.running hrun)
  refine ⟨?_, ?_, fun _ => rfl, hramp ▸ h.ordered⟩
  · intro y hy
    obtain rfl := Option.some.inj hy
    change x.driven + (after - before) = (x.ticks + 1) * step.nanos
    rw [hmeter, Nat.add_sub_cancel_left, h.driven x rfl, Nat.succ_mul]
  · intro y hy
    obtain rfl := Option.some.inj hy
    rw [htime]
    exact toNat_advance_clockAfter rfl (h.clock x rfl)

end Agrees

namespace Drive

variable {ρ : Type}

theorem agrees_atTick {x : Drive ρ} {step : Duration} (h : Agrees step x.progress x.transport) :
    Agrees step x.progressAtTick x.run.atTick :=
  (Agrees.frameInvariant step x.progress).intake x.run.loop h

variable [Rig ρ]

theorem agrees_step {x : Drive ρ} (h : Agrees x.run.loop.settings.step x.progress x.transport)
    (a : Act) : Agrees x.run.loop.settings.step (x.step a).progress (x.step a).transport := by
  cases a with
  | tick =>
    obtain ⟨outcome, loop, transport, history, hway, -, hstep⟩ := x.run.step_tick
    have hintake := agrees_atTick h
    have hresets : x.run.atTick.stats.resets = x.transport.stats.resets :=
      x.run.loop.intake_resets _
    change Agrees _ (x.progressAfter .tick) (x.run.step .tick).bench.transport
    unfold progressAfter
    rw [hstep]
    dsimp only
    have hmeter := x.run.loop.driven_sample x.run.atTick
    cases hway with
    | linkLost hlost =>
      rw [if_neg (hresets ▸ Nat.succ_ne_self _)]
      exact hintake.reset
    | idle hidle =>
      have hd : ¬x.run.Drives := fun hd => Bool.false_ne_true (hidle.symm.trans hd.1)
      rw [if_pos hresets, if_neg hd]
      exact hintake
    | failed hlink hrun hsample =>
      have hd : x.run.Drives := x.run.drives_iff.mpr ⟨hrun, hlink⟩
      have hkept : (x.run.loop.advance x.run.atTick).stats.resets = x.transport.stats.resets :=
        hresets
      rw [if_pos hkept, if_pos hd]
      rw [hsample] at hmeter
      refine hintake.advance hrun ?_ ?_ hmeter <;> rfl
    | @sampled value rig hs hwindow =>
      have hd : x.run.Drives := x.run.drives_iff.mpr ⟨hs.running, hs.linked⟩
      have hkept : (x.run.atTick.measured x.run.loop.settings.step value).sendData.stats.resets =
          x.transport.stats.resets := hresets
      rw [if_pos hkept, if_pos hd]
      rw [hs.sample] at hmeter
      refine hintake.advance hs.running ?_ ?_ hmeter <;> rfl
    | expired hs hwindow =>
      rw [if_neg (hresets ▸ Nat.succ_ne_self _)]
      exact { hintake.reset with }
  | service => exact (Agrees.frameInvariant _ x.progress).service h
  | client act =>
    cases act with
    | submit f => exact h.congr rfl id rfl
    | connect => exact h
    | disconnect => exact h
    | collect => exact h.congr rfl id rfl

theorem agrees_after {x : Drive ρ} (h : Agrees x.run.loop.settings.step x.progress x.transport)
    (acts : List Act) :
    Agrees x.run.loop.settings.step (x.after acts).progress (x.after acts).transport := by
  induction acts using List.reverseRecOn with
  | nil => exact h
  | append_singleton acts a ih =>
    have hsettings : (x.after acts).run.loop.settings = x.run.loop.settings := by
      rw [run_after]
      exact (x.run.loop_after acts).1
    rw [after_append_singleton]
    rw [← hsettings] at ih ⊢
    exact agrees_step ih a

end Drive

/-- The clock shows the time driven as long as the parts of a millisecond that every step leaves
out do not add up to a whole one, and when it stands at its last value. -/
theorem clockAfter_eq_driven_iff (n step : Nat) :
    clockAfter n (step / 1000000) = min (n * step / 1000000) ExperimentTime.last ↔
      n * (step % 1000000) < 1000000 ∨ ExperimentTime.last ≤ n * (step / 1000000) := by
  have hsplit : n * step / 1000000 = n * (step / 1000000) + n * (step % 1000000) / 1000000 := by
    conv_lhs => rw [← Nat.div_add_mod step 1000000, Nat.mul_add, Nat.mul_left_comm]
    exact Nat.mul_add_div (by decide) _ _
  have hzero : n * (step % 1000000) / 1000000 = 0 ↔ n * (step % 1000000) < 1000000 :=
    Nat.div_eq_zero_iff_lt (by decide)
  rw [hsplit, clockAfter, ← hzero]
  omega

theorem Duration.whole_of_mod {step : Duration} (hpositive : step.isZero = false)
    (hwhole : step.nanos % 1000000 = 0) :
    1 ≤ step.millis ∧ step.millis * 1000000 = step.nanos := by
  have hnonzero : step.nanos ≠ 0 := by simpa [isZero] using hpositive
  unfold millis
  omega

namespace Drive

theorem advance_atTick {ρ : Type} {x : Drive ρ}
    (h : Agrees x.run.loop.settings.step x.progress x.transport) (hd : x.run.Drives) :
    let s := x.run.loop.settings.step.millis
    let t := x.run.loop.advance x.run.atTick
    ∃ n, x.progressAtTick = some ⟨n, n * x.run.loop.settings.step.nanos⟩ ∧
      t.data.time.millis.toNat = clockAfter (n + 1) s ∧
      t.trajectory.output = t.trajectory.ramp.evaluate t.data.time.millis ∧
      (t.trajectory.ramp.endTime.toNat ≤ (n + 1) * s →
        t.trajectory.output = t.trajectory.ramp.endValue) := by
  intro s t
  have hagrees := agrees_atTick h
  obtain ⟨⟨n, driven⟩, hp⟩ := Option.isSome_iff_exists.mp (hagrees.running hd.1)
  obtain rfl : driven = n * x.run.loop.settings.step.nanos := hagrees.driven _ hp
  have htime : t.data.time.millis.toNat = clockAfter (n + 1) s :=
    toNat_advance_clockAfter rfl (hagrees.clock _ hp)
  refine ⟨n, hp, htime, rfl, fun hend => ?_⟩
  have hlast : t.trajectory.ramp.endTime.toNat ≤ ExperimentTime.last :=
    Nat.le_of_lt_succ t.trajectory.ramp.endTime.toNat_lt
  have hover : t.trajectory.ramp.endTime ≤ t.data.time.millis :=
    UInt64.le_iff_toNat_le.mpr (htime ▸ Nat.le_min.mpr ⟨hend, hlast⟩)
  exact Ramp.evaluate_beyond (UInt64.le_trans hagrees.ordered hover) hover

end Drive

theorem Run.silence_of_drives {ρ : Type} [Rig ρ] {c : ControlLoop ρ} {b : Bench}
    (ht : b.transport.Ready) (hrig : Rig.Dependable c.rig) (acts : List Act) :
    let r := (Run.start c b).after acts
    let next := (r.step .tick).history
    let s := c.settings.step.millis
    let window := c.settings.keepalive
    r.Drives → ∃ k j, next.samplesSinceStart = some k ∧ next.samplesSinceFrame = some (j + 1) ∧
      j + 1 ≤ k ∧
      (window.nanos ≠ 0 → k * s < 18446744073709551616 →
        j * (s * 1000000) ≤ window.nanos ∧
        ((r.bench.tick r.loop).1 = .ok .keepaliveExpired ↔
          window.nanos < (j + 1) * (s * 1000000))) := by
  intro r next s window hd
  have hsettings : r.loop.settings = c.settings := ((Run.start c b).loop_after acts).1
  have hrig' : Rig.Dependable r.loop.rig := dependable_after hrig acts
  have hinvariant : Invariant c.settings
      (Watched b.transport.output.frames s c.settings.keepalive) := Watched.invariant rfl
  have hwatched := hinvariant.after (r := Run.start c b) hrig ⟨.start ht, .start⟩ acts
  have hattends : Attends s window r.atTick r.historyAtTick :=
    (hinvariant.intake r.loop hwatched).attends
  have hadvance : r.loop.advance r.atTick =
      r.atTick.measured c.settings.step r.atTick.data.measurement := by
    rw [← hsettings]
    rfl
  have hexpires := expires_iff hrig'
  rw [hsettings, hadvance, and_iff_right hd] at hexpires
  obtain ⟨k, j, hk, hj, hjk, hlook⟩ := hattends.keepaliveExpired_iff rfl hd.1 _
  obtain ⟨value, -, -, hqueued⟩ := hd.queuesOne hrig'
  have hnext : next = _ := hqueued
  refine ⟨k + 1, j, hnext ▸ History.samplesSinceStart_sample hk _,
    hnext ▸ History.samplesSinceFrame_sample hj _, Nat.succ_le_succ hjk, fun hnonzero hlt => ?_⟩
  obtain ⟨hshort, hmeasured⟩ := hlook hnonzero hlt
  exact ⟨hshort, hexpires.trans hmeasured⟩

theorem Assembly.controlLoop_init {cfg : Config} (hvalid : cfg.validate = .ok ()) :
    ∃ c t, (controlLoop cfg).metered.init (bare cfg).bench.transport = (.ok (), c, t) ∧
      c.Initialised t ∧ c.settings = cfg.control.settings ∧ Rig.Dependable c.rig := by
  obtain ⟨rig, hinit, hrig⟩ := Config.rig_init hvalid
  have hmetered : Rig.init (controlLoop cfg).metered.rig = (.ok (), ⟨rig, {}⟩) :=
    ObservedRig.call_eq hinit _ _
  obtain ⟨t, hmake⟩ : ∃ t, (bare cfg).bench.transport.init = .ok t := ⟨_, rfl⟩
  have hloop := ControlLoop.init_of_new hmetered rfl hmake
  exact ⟨_, t, hloop, ⟨_, _, hloop, .inl rfl⟩, rfl, hrig.mirror ObservedRig.mirrors rfl⟩

/-- The clock of an experiment against the time its rig is driven for, for every accepted
configuration and every run of an initialised loop with its settings, on a rig with a meter. After
`n` ticks that advanced its time, the rig was driven for `n` steps and the clock shows `n` times the
whole milliseconds of a step. That is the time driven until the parts left out add up to a
millisecond: for ever, if a step is a whole number of milliseconds. A ramp is at its end when this
clock has passed its window, and the first sample beyond the keepalive window ends the experiment of
a silent client. With a step below a millisecond the clock stays at zero, and no client is silent
for long enough. -/
theorem clock_shows_driven_time_iff {cfg : Config} (hvalid : cfg.validate = .ok ()) :
    let step := cfg.control.step
    let s := step.millis
    let window := cfg.control.keepalive
    (∃ c t, (Assembly.controlLoop cfg).metered.init (Assembly.bare cfg).bench.transport =
      (.ok (), c, t) ∧ c.Initialised t ∧ c.settings = cfg.control.settings ∧
        Rig.Dependable c.rig) ∧
    (step.nanos % 1000000 = 0 → 1 ≤ s ∧ s * 1000000 = step.nanos) ∧
    ∀ {ρ : Type} [Rig ρ] (c : ControlLoop (Metered ρ)) (b : Bench), c.Initialised b.transport →
      c.settings = cfg.control.settings → ∀ acts : List Act,
      let x := (Drive.start c b).after acts
      let next := x.run.loop.advance x.run.atTick
      let expires := (x.run.bench.tick x.run.loop).1 = .ok .keepaliveExpired
      (x.transport.isRunning = true → x.progress.isSome = true) ∧
      (∀ n driven, x.progress = some ⟨n, driven⟩ → driven = n * step.nanos ∧
        x.transport.data.time.millis.toNat = min (n * s) ExperimentTime.last ∧
        (x.transport.data.time.millis.toNat = min (driven / 1000000) ExperimentTime.last ↔
          n * (step.nanos % 1000000) < 1000000 ∨ ExperimentTime.last ≤ n * s)) ∧
      (x.run.Drives → ∃ n, x.progressAtTick = some ⟨n, n * step.nanos⟩ ∧
        next.data.time.millis.toNat = min ((n + 1) * s) ExperimentTime.last ∧
        next.trajectory.output = next.trajectory.ramp.evaluate next.data.time.millis ∧
        (next.trajectory.ramp.endTime.toNat ≤ (n + 1) * s →
          next.trajectory.output = next.trajectory.ramp.endValue)) ∧
      (Rig.Dependable c.rig → x.run.Drives → ∃ k j,
        (x.run.step .tick).history.samplesSinceStart = some k ∧
        (x.run.step .tick).history.samplesSinceFrame = some (j + 1) ∧ j + 1 ≤ k ∧
        (window.nanos ≠ 0 → k * s < 18446744073709551616 →
          (expires ↔ window.nanos < (j + 1) * (s * 1000000)) ∧
          (1 ≤ s → j + 1 ≤ window.nanos / (s * 1000000) + 1) ∧ (s = 0 → ¬expires))) := by
  intro step s window
  have hstep : step.isZero = false :=
    Config.ne_zero_of_valid hvalid (List.mem_cons_of_mem _ List.mem_cons_self)
  refine ⟨Assembly.controlLoop_init hvalid, Duration.whole_of_mod hstep, ?_⟩
  intro ρ _ c b hinit hsettings acts x next expires
  have hloop : x.run.loop.settings = cfg.control.settings := by
    rw [← hsettings, Drive.run_after]
    exact ((Run.start c b).loop_after acts).1
  have hagrees : Agrees x.run.loop.settings.step x.progress x.transport := by
    rw [hloop, ← hsettings]
    exact Drive.agrees_after (x := Drive.start c b) (.start _ hinit.ready) acts
  have hnext := fun hd => Drive.advance_atTick hagrees hd
  rw [hloop] at hagrees hnext
  refine ⟨hagrees.running, fun n driven hp => ?_, hnext, fun hrig hd => ?_⟩
  · obtain rfl : driven = n * step.nanos := hagrees.driven _ hp
    have htime : x.transport.data.time.millis.toNat = clockAfter n s := hagrees.clock _ hp
    refine ⟨rfl, htime, ?_⟩
    rw [htime]
    exact clockAfter_eq_driven_iff n step.nanos
  · have hsilence := Run.silence_of_drives hinit.ready hrig acts
    rw [hsettings] at hsilence
    have hrun : x.run = (Run.start c b).after acts := Drive.run_after _ acts
    rw [← hrun] at hsilence
    obtain ⟨k, j, hk, hj, hjk, hlook⟩ := hsilence hd
    refine ⟨k, j, hk, hj, hjk, fun hnonzero hlt => ?_⟩
    obtain ⟨hshort, hexpires⟩ := hlook hnonzero hlt
    refine ⟨hexpires, fun hs => Nat.succ_le_succ ?_, fun hs hexp => ?_⟩
    · exact (Nat.le_div_iff_mul_le (by omega)).mpr hshort
    · have hlong : window.nanos < (j + 1) * (s * 1000000) := hexpires.mp hexp
      rw [hs] at hlong
      omega

/-- After the third tick of a step of 400 microseconds, the rig is driven for 1.2 ms. -/
theorem clock_shows_driven_time_iff_third :
    let cfg : Config := { control.step := ⟨400000, by decide⟩ }
    let c : ControlLoop (Metered NullRig) := { rig := ⟨{}, {}⟩, settings := cfg.control.settings }
    let b := (Bench.new 4 4).init.2
    let x := (Drive.start c b).after
      [.client (.submit Command.start.toFrame), .tick, .tick, .tick]
    cfg.validate = .ok () ∧ c.Initialised b.transport ∧ c.settings = cfg.control.settings ∧
      Rig.Dependable c.rig ∧ x.progress = some ⟨3, 1200000⟩ ∧
      x.transport.data.time.millis.toNat ≠ 1200000 / 1000000 := by
  intro cfg c b x
  have hinit : c.Initialised b.transport := ⟨c, (Bench.new 4 4).transport, rfl, .inl rfl⟩
  have hrig : Rig.Dependable c.rig := (NullRig.dependable _).mirror ObservedRig.mirrors rfl
  have hprogress : x.progress = some ⟨3, 1200000⟩ := by decide +kernel
  have hvalid : cfg.validate = .ok () := rfl
  obtain ⟨-, htime, -⟩ := ((clock_shows_driven_time_iff hvalid).2.2 c b hinit rfl
    [.client (.submit Command.start.toFrame), .tick, .tick, .tick]).2.1 3 1200000 hprogress
  refine ⟨hvalid, hinit, rfl, hrig, hprogress, ?_⟩
  rw [htime]
  decide

/-- With steps of half a millisecond, the rig is driven for a millisecond in two ticks, and the
clock still shows zero. -/
theorem clock_stands_still :
    let cfg : Config := { control.step := ⟨500000, by decide⟩ }
    let c := ((Assembly.controlLoop cfg).metered.init (Assembly.bare cfg).bench.transport).2.1
    let t := ((Assembly.controlLoop cfg).metered.init (Assembly.bare cfg).bench.transport).2.2
    let x := (Drive.start c { (Assembly.bare cfg).bench with transport := t }).after
      [.client .connect, .client (.submit Command.start.toFrame), .tick, .tick]
    cfg.validate = .ok () ∧ x.progress = some ⟨2, 1000000⟩ ∧ x.transport.isRunning = true ∧
      x.transport.data.time.millis = 0 := by
  decide +kernel

end RigBench
