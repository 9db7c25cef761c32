import RigBench.Proofs.SampleStream

/-!
The keepalive window. The silence of a client is counted in samples since its last frame; the tick
on which it grows longer than the window ends the experiment, no tick before it does, and no sample
from beyond the window reaches a reader.
-/
namespace RigBench

/-- With `k` samples since the start and `j` since the last frame, the next one is beyond the window
exactly if the silence is longer than it. -/
theorem Transport.keepaliveExpired_measured {t : Transport} {step window : Duration}
    {value : Binary64} {k j s : Nat} (hs : step.millis = s) (hj : j ≤ k)
    (htime : t.data.time.millis.toNat = clockAfter k s)
    (hkeep : t.keepaliveTime.millis.toNat = clockAfter (k - j) s)
    (hwindow : window.nanos ≠ 0) (hlt : (k + 1) * s < 18446744073709551616) :
    (t.measured step value).keepaliveExpired window = true ↔
      window.nanos < (j + 1) * s * 1000000 := by
  have hzero : window.isZero = false := by simpa [Duration.isZero] using hwindow
  have hlast : ExperimentTime.last = 18446744073709551615 := rfl
  have hnow : ((t.measured step value).data.time).millis.toNat = (k + 1) * s := by
    rw [← clockAfter_of_lt hlt]
    exact toNat_advance_clockAfter hs htime
  have hsplit : (k + 1) * s = (k - j) * s + (j + 1) * s := by
    rw [← Nat.add_mul]
    congr 1
    omega
  have hdeadline : ((t.measured step value).keepaliveTime.advance window).millis.toNat =
      min ((k - j) * s + window.millis) ExperimentTime.last := by
    rw [ExperimentTime.toNat_advance]
    change min (t.keepaliveTime.millis.toNat + window.millis) _ = _
    rw [hkeep, clockAfter_of_lt (by omega)]
  have hmillis : window.millis < (j + 1) * s ↔ window.nanos < (j + 1) * s * 1000000 :=
    Nat.div_lt_iff_lt_mul (by decide)
  unfold keepaliveExpired
  rw [hzero, Bool.not_false, Bool.true_and, decide_eq_true_eq, UInt64.lt_iff_toNat_lt, hdeadline,
    hnow, ← hmillis]
  omega

theorem Transport.keepaliveExpired_zero {t : Transport} {window : Duration}
    (hwindow : window.nanos = 0) : t.keepaliveExpired window = false := by
  simp [keepaliveExpired, Duration.isZero, hwindow]

/-- The last sample of a history is not beyond the window: `j` samples of `s` milliseconds since the
last frame, of an experiment whose clock has not reached its end. -/
def History.WithinWindow (h : History) (s : Nat) (window : Duration) : Prop :=
  ∃ k j, h.samplesSinceStart = some k ∧ h.samplesSinceFrame = some j ∧ j ≤ k ∧
    (window.nanos ≠ 0 → k * s < 18446744073709551616 → j * s * 1000000 ≤ window.nanos)

/-- A running experiment is within its window, and the transport knows when the last frame came. -/
def Attends (s : Nat) (window : Duration) (t : Transport) (h : History) : Prop :=
  t.isRunning = true → ∃ k j, h.samplesSinceStart = some k ∧ h.samplesSinceFrame = some j ∧
    j ≤ k ∧ t.data.time.millis.toNat = clockAfter k s ∧
    t.keepaliveTime.millis.toNat = clockAfter (k - j) s ∧
    (window.nanos ≠ 0 → k * s < 18446744073709551616 → j * s * 1000000 ≤ window.nanos)

namespace Attends

variable {s : Nat} {window : Duration} {t : Transport} {h : History}

theorem of_not_running (h : History) (hrun : t.isRunning = false) : Attends s window t h := by
  intro htrue
  rw [hrun] at htrue
  cases htrue

theorem start (ht : t.Ready) : Attends s window t [] :=
  of_not_running [] (by rw [Transport.isRunning, ht.idle]; rfl)

theorem hear (ht : Attends s window t h) {e : Event}
    (hstart : History.samplesSinceStart (e :: h) = h.samplesSinceStart)
    (hframe : History.samplesSinceFrame (e :: h) = some 0) : Attends s window t.hear (e :: h) := by
  intro hrun
  obtain ⟨k, _, hk, -, -, htime, -⟩ := ht hrun
  exact ⟨k, 0, hstart.trans hk, hframe, Nat.zero_le k, htime, htime, fun _ _ => by omega⟩

theorem receive (ht : Attends s window t h) (f : Frame) :
    Attends s window (t.receive f) (t.eventOf f :: h) := by
  have hr := t.reception_receive f
  generalize t.receive f = t' at hr ⊢
  generalize t.eventOf f = e at hr ⊢
  cases hr with
  | start hf hs =>
    intro _
    have hzero : (0 : Nat) = clockAfter 0 s := by rw [clockAfter, Nat.zero_mul]; rfl
    exact ⟨0, 0, rfl, rfl, Nat.le_refl 0, hzero, hzero, fun _ _ => by omega⟩
  | stop hf hs => exact of_not_running _ rfl
  | keepalive hf => exact ht.hear rfl rfl
  | trajectory hf hr => exact ht.hear rfl rfl
  | rejected hf hn => exact ht.hear rfl rfl
  | ignored hf => exact ht.hear rfl rfl

theorem sampled {step : Duration} {value : Binary64} (hs : step.millis = s)
    (ht : Attends s window t h) (hrun : t.isRunning = true)
    (hwindow : (t.measured step value).keepaliveExpired window = false) (f : Frame) :
    Attends s window (t.measured step value).sendData (.sample f :: h) := by
  obtain ⟨k, j, hk, hj, hjk, htime, hkeep, -⟩ := ht hrun
  intro _
  refine ⟨k + 1, j + 1, History.samplesSinceStart_sample hk f,
    History.samplesSinceFrame_sample hj f, Nat.succ_le_succ hjk,
    toNat_advance_clockAfter hs htime, ?_, ?_⟩
  · rw [Nat.add_sub_add_right]
    exact hkeep
  · intro hnonzero hlt
    have hexpired : (t.measured step value).keepaliveExpired window = true ↔
        window.nanos < (j + 1) * s * 1000000 :=
      Transport.keepaliveExpired_measured hs hjk htime hkeep hnonzero hlt
    rw [hwindow] at hexpired
    exact Nat.not_lt.mp fun hlong => Bool.false_ne_true (hexpired.mpr hlong)

/-- The next sample of a running experiment is beyond the window exactly if the silence is then
longer than it; so far it is not. -/
theorem keepaliveExpired_iff {step : Duration} (hs : step.millis = s) (ht : Attends s window t h)
    (hrun : t.isRunning = true) (value : Binary64) :
    ∃ k j, h.samplesSinceStart = some k ∧ h.samplesSinceFrame = some j ∧ j ≤ k ∧
      (window.nanos ≠ 0 → (k + 1) * s < 18446744073709551616 →
        j * (s * 1000000) ≤ window.nanos ∧
        ((t.measured step value).keepaliveExpired window = true ↔
          window.nanos < (j + 1) * (s * 1000000))) := by
  obtain ⟨k, j, hk, hj, hjk, htime, hkeep, hwithin⟩ := ht hrun
  refine ⟨k, j, hk, hj, hjk, fun hnonzero hlt => ?_⟩
  rw [← Nat.mul_assoc, ← Nat.mul_assoc]
  have hearlier : k * s < 18446744073709551616 :=
    Nat.lt_of_le_of_lt (Nat.mul_le_mul_right s (Nat.le_succ k)) hlt
  exact ⟨hwithin hnonzero hearlier,
    Transport.keepaliveExpired_measured hs hjk htime hkeep hnonzero hlt⟩

theorem withinWindow (ht : Attends s window t h) (hrun : t.isRunning = true) :
    h.WithinWindow s window := by
  obtain ⟨k, j, hk, hj, hjk, -, -, hwithin⟩ := ht hrun
  exact ⟨k, j, hk, hj, hjk, hwithin⟩

end Attends

/-- The frames of an output queue: at most those of before the run, then the newest samples, each of
them within its window. -/
def Outbox (before frames : List Frame) (s : Nat) (window : Duration) (h : History) : Prop :=
  ∃ old waiting, frames = old ++ waiting.map Prod.fst ∧ old <:+ before ∧ waiting <:+ h.samples ∧
    ∀ p ∈ waiting, p.2.WithinWindow s window

namespace Outbox

variable {before frames : List Frame} {s : Nat} {window : Duration} {h : History}

theorem start : Outbox before before s window [] :=
  ⟨before, [], by simp, List.suffix_refl before, List.nil_suffix, by simp⟩

theorem clear : Outbox before [] s window h :=
  ⟨[], [], rfl, List.nil_suffix, List.nil_suffix, by simp⟩

theorem of_samples_eq {h' : History} (hsame : h'.samples = h.samples)
    (hbox : Outbox before frames s window h) : Outbox before frames s window h' := by
  unfold Outbox
  rw [hsame]
  exact hbox

theorem drop_one (hbox : Outbox before frames s window h) :
    Outbox before (frames.drop 1) s window h := by
  obtain ⟨old, waiting, hframes, hold, hwaiting, hwithin⟩ := hbox
  cases old with
  | nil =>
    refine ⟨[], waiting.drop 1, ?_, hold, (List.drop_suffix 1 waiting).trans hwaiting, ?_⟩
    · rw [hframes, List.nil_append, List.nil_append, List.map_drop]
    · intro p hp
      exact hwithin p (List.mem_of_mem_drop hp)
  | cons f old =>
    refine ⟨old, waiting, ?_, (List.suffix_cons f old).trans hold, hwaiting, hwithin⟩
    rw [hframes]
    rfl

theorem append {f : Frame} (hbox : Outbox before frames s window h)
    (hnew : History.WithinWindow (.sample f :: h) s window) :
    Outbox before (frames ++ [f]) s window (.sample f :: h) := by
  obtain ⟨old, waiting, hframes, hold, hwaiting, hwithin⟩ := hbox
  refine ⟨old, waiting ++ [(f, .sample f :: h)], ?_, hold, ?_, ?_⟩
  · rw [hframes, List.map_append, List.append_assoc]
    rfl
  · obtain ⟨gone, hgone⟩ := hwaiting
    refine ⟨gone, ?_⟩
    rw [← List.append_assoc, hgone]
    rfl
  · intro p hp
    rcases List.mem_append.mp hp with hp | hp
    · exact hwithin p hp
    · rw [List.mem_singleton.mp hp]
      exact hnew

theorem push {q : FrameQueue} {f : Frame} (hbox : Outbox before q.frames s window h)
    (hnew : History.WithinWindow (.sample f :: h) s window) :
    Outbox before (q.push f).frames s window (.sample f :: h) := by
  rw [FrameQueue.frames_push]
  split
  · exact hbox.drop_one.append hnew
  · exact hbox.append hnew

end Outbox

structure Watched (before : List Frame) (s : Nat) (window : Duration) (t : Transport)
    (h : History) : Prop where
  attends : Attends s window t h
  outbox : Outbox before t.output.frames s window h

namespace Watched

variable {before : List Frame} {s : Nat} {window : Duration} {t : Transport} {h : History}

theorem receive (ht : Watched before s window t h) (f : Frame) :
    Watched before s window (t.receive f) (t.eventOf f :: h) where
  attends := ht.attends.receive f
  outbox := by
    rw [(t.receive_output f).1]
    exact ht.outbox.of_samples_eq (t.samples_eventOf f h)

theorem sampled {step : Duration} {value : Binary64} (hs : step.millis = s)
    (ht : Watched before s window t h) (hrun : t.isRunning = true)
    (hwindow : (t.measured step value).keepaliveExpired window = false) :
    Watched before s window (t.measured step value).sendData
      (.sample (t.measured step value).sample.toFrame :: h) := by
  have hattends := ht.attends.sampled hs hrun hwindow (t.measured step value).sample.toFrame
  exact ⟨hattends, ht.outbox.push (hattends.withinWindow hrun)⟩

theorem reset (t : Transport) (h : History) : Watched before s window t.reset h where
  attends := .of_not_running h t.isRunning_reset
  outbox := .clear

theorem invariant {settings : ControlSettings} (hs : settings.step.millis = s) :
    Invariant settings (Watched before s settings.keepalive) where
  input ht _ := ⟨ht.attends, ht.outbox⟩
  receive ht f := ht.receive f
  sampled ht hrun _ hwindow := ht.sampled hs hrun hwindow
  expired _ _ _ _ := .reset _ _
  reset _ := .reset _ _
  connected ht := ⟨ht.attends, ht.outbox⟩
  disconnected ht := ⟨ht.attends, ht.outbox⟩
  collect ht := ⟨ht.attends, .clear⟩

end Watched

theorem Run.expires_iff {ρ : Type} [Rig ρ] {r : Run ρ} (hrig : Rig.Dependable r.loop.rig) :
    (r.bench.tick r.loop).1 = .ok .keepaliveExpired ↔
      r.Drives ∧ (r.loop.advance r.atTick).keepaliveExpired r.loop.settings.keepalive = true := by
  rw [r.drives_iff]
  obtain ⟨outcome, loop, transport, history, hway, htick, -⟩ := r.step_tick
  rw [htick]
  cases hway with
  | linkLost hlost =>
    obtain ⟨rig, hsafe, -⟩ := hrig.safeState
    rw [hsafe, hlost]
    simp [Except.map]
  | idle hidle => simp [hidle]
  | failed _ _ hsample => exact absurd hsample (ControlLoop.sample_ne_error hrig)
  | sampled hs hwindow =>
    have hopen : (r.loop.advance r.atTick).keepaliveExpired r.loop.settings.keepalive = false :=
      hwindow
    simp [hopen]
  | expired hs hwindow =>
    obtain ⟨rig, hsafe, -⟩ := (hs.dependable hrig).safeState
    rw [hsafe]
    exact ⟨fun _ => ⟨⟨hs.running, hs.linked⟩, hwindow⟩, fun _ => rfl⟩

theorem Run.reset_of_expires {ρ : Type} [Rig ρ] {r : Run ρ}
    (hexpires : (r.bench.tick r.loop).1 = .ok .keepaliveExpired) :
    ∃ t : Transport, t.isRunning = true ∧ (r.step .tick).bench.transport = t.reset := by
  obtain ⟨outcome, loop, transport, history, hway, htick, hstep⟩ := r.step_tick
  rw [htick] at hexpires
  rw [hstep]
  cases hway with
  | linkLost hlost =>
    exfalso
    cases hsafe : (Rig.safeState r.loop.rig).1 <;> rw [hsafe] at hexpires <;> cases hexpires
  | idle hidle => cases hexpires
  | failed _ _ hsample => cases hexpires
  | sampled hs hwindow => cases hexpires
  | @expired value rig hs hwindow =>
    exact ⟨(r.atTick.measured r.loop.settings.step value).sendData, hs.running, rfl⟩

theorem first_beyond_iff {window step j : Nat} (hstep : 0 < step)
    (hwithin : (j - 1) * step ≤ window) : window < j * step ↔ j = window / step + 1 := by
  constructor
  · intro hlong
    have hlow : j - 1 ≤ window / step := (Nat.le_div_iff_mul_le hstep).mpr hwithin
    have hhigh : window / step < j := (Nat.div_lt_iff_lt_mul hstep).mpr hlong
    omega
  · intro hj
    rw [hj, ← Nat.div_lt_iff_lt_mul hstep]
    exact Nat.lt_succ_self _

/-- The keepalive window, for every run of an initialised loop on a rig that does not fail, at `s`
milliseconds of experiment time for a step. A tick that drives the experiment ends it exactly if the
`j` samples since the last frame take longer than the window, which none before it did; this is the
first sample that does not fit. Such a tick leaves an idle bench and an empty output queue, and with
a window of zero there is none. No reader ever finds a sample from beyond the window. -/
theorem tick_expires_iff_silence {ρ : Type} [Rig ρ] {c : ControlLoop ρ} {b : Bench} {s : Nat}
    (hinit : c.Initialised b.transport) (hrig : Rig.Dependable c.rig) (hs : 1 ≤ s)
    (hstep : c.settings.step.nanos = s * 1000000) (acts : List Act) :
    let r := (Run.start c b).after acts
    let next := r.step .tick
    let expires := (r.bench.tick r.loop).1 = .ok .keepaliveExpired
    let window := c.settings.keepalive
    (r.Drives → ∃ k j, next.history.samplesSinceStart = some k ∧
      next.history.samplesSinceFrame = some j ∧ 1 ≤ j ∧ j ≤ k ∧
      (window.nanos ≠ 0 → k * s < 18446744073709551616 →
        (expires ↔ window.nanos < j * (s * 1000000)) ∧
        (expires ↔ j = window.nanos / (s * 1000000) + 1) ∧
        j ≤ window.nanos / (s * 1000000) + 1)) ∧
    (expires → r.Drives ∧ window.nanos ≠ 0 ∧ next.bench.transport.state = .idle ∧
      next.bench.transport.data = {} ∧ next.bench.transport.output.frames = []) ∧
    ∃ old taken, r.bench.collect.1 = old ++ taken.map Prod.fst ∧
      old <:+ b.transport.output.frames ∧ taken <:+ r.history.samples ∧
      ∀ p ∈ taken, p.2.WithinWindow s window := by
  intro r next expires window
  have hmillis := Duration.millis_of_nanos hstep
  have hsettings : r.loop.settings = c.settings := ((Run.start c b).loop_after acts).1
  have hrig' : Rig.Dependable r.loop.rig := Run.dependable_after hrig acts
  have hinvariant : Invariant c.settings
      (Watched b.transport.output.frames s c.settings.keepalive) := Watched.invariant hmillis
  have hwatched := hinvariant.after (r := Run.start c b) hrig
    ⟨.start hinit.ready, .start⟩ acts
  have hattends : Attends s window r.atTick r.historyAtTick :=
    (hinvariant.intake r.loop hwatched).attends
  have hadvance : r.loop.advance r.atTick =
      r.atTick.measured c.settings.step r.atTick.data.measurement := by
    rw [← hsettings]
    rfl
  have hexpires := Run.expires_iff hrig'
  rw [hsettings, hadvance] at hexpires
  refine ⟨fun hd => ?_, fun hexp => ?_, hwatched.outbox⟩
  · obtain ⟨k, j, hk, hj, hjk, hlook⟩ := hattends.keepaliveExpired_iff hmillis hd.1 _
    obtain ⟨value, -, -, hnext⟩ := hd.queuesOne hrig'
    refine ⟨k + 1, j + 1, hnext ▸ History.samplesSinceStart_sample hk _,
      hnext ▸ History.samplesSinceFrame_sample hj _, Nat.succ_pos j, Nat.succ_le_succ hjk,
      fun hnonzero hlt => ?_⟩
    obtain ⟨hshort, hmeasured⟩ := hlook hnonzero hlt
    have hlong : expires ↔ window.nanos < (j + 1) * (s * 1000000) :=
      hexpires.trans ((and_iff_right hd).trans hmeasured)
    have hpos : 0 < s * 1000000 := by omega
    refine ⟨hlong, hlong.trans (first_beyond_iff hpos hshort), Nat.succ_le_succ ?_⟩
    exact (Nat.le_div_iff_mul_le hpos).mpr hshort
  · obtain ⟨hd, hwindow⟩ := hexpires.mp hexp
    obtain ⟨t, hrun, ht⟩ := Run.reset_of_expires hexp
    refine ⟨hd, fun hzero => ?_, ?_⟩
    · rw [Transport.keepaliveExpired_zero hzero] at hwindow
      cases hwindow
    · change (r.step .tick).bench.transport.state = _ ∧ _
      rw [ht]
      exact ⟨t.state_reset hrun, rfl, rfl⟩

/-- With steps of 100 ms and a window of 300 ms, the fourth silent tick ends the experiment. -/
theorem tick_expires_iff_silence_fourth :
    let c : ControlLoop NullRig :=
      { rig := {}, settings := ⟨.ofMillis 100, .ofMillis 300, true, true⟩ }
    let b := (Bench.new 4 4).init.2
    let r := (Run.start c b).after
      [.client (.submit Command.start.toFrame), .tick, .tick, .tick]
    c.Initialised b.transport ∧ Rig.Dependable c.rig ∧ 1 ≤ 100 ∧
      c.settings.step.nanos = 100 * 1000000 ∧ r.Drives ∧
      (r.step .tick).history.samplesSinceFrame = some 4 ∧
      (r.bench.tick r.loop).1 = .ok .keepaliveExpired := by
  intro c b r
  have hinit : c.Initialised b.transport := ⟨c, (Bench.new 4 4).transport, rfl, .inl rfl⟩
  have hdrives : r.Drives := by
    unfold Run.Drives
    decide +kernel
  obtain ⟨k, j, hk, hj, -, -, hexact⟩ :=
    (tick_expires_iff_silence hinit (NullRig.dependable _) (by decide) rfl
      [.client (.submit Command.start.toFrame), .tick, .tick, .tick]).1 hdrives
  have hfourth : (r.step .tick).history.samplesSinceFrame = some 4 := by decide +kernel
  have hcount : (r.step .tick).history.samplesSinceStart = some 4 := by decide +kernel
  obtain rfl : j = 4 := Option.some.inj (hj.symm.trans hfourth)
  obtain rfl : k = 4 := Option.some.inj (hk.symm.trans hcount)
  exact ⟨hinit, NullRig.dependable _, by decide, rfl, hdrives, hfourth,
    (hexact (by decide) (by decide)).2.1.mpr (by decide)⟩

end RigBench
