import RigBench.Proofs.Reception
import RigBench.Rig.Simulated

/-!
The ways a tick can go, said once, and rigs on which every tick succeeds.
-/
namespace RigBench

/-- Rigs on which no call of a running experiment fails, and which such calls do not lead out of. -/
structure Rig.Closed {ρ : Type} [Rig ρ] (P : ρ → Prop) : Prop where
  apply : ∀ r setpoint dt, P r → ∃ r', Rig.apply r setpoint dt = (.ok (), r') ∧ P r'
  measure : ∀ r, P r → ∃ value r', Rig.measure r = (.ok value, r') ∧ P r'
  safeState : ∀ r, P r → ∃ r', Rig.safeState r = (.ok (), r') ∧ P r'

/-- Every call succeeds, now and after any calls. -/
def Rig.Dependable {ρ : Type} [Rig ρ] (r : ρ) : Prop := ∃ P, Rig.Closed P ∧ P r

namespace Rig.Dependable

variable {ρ : Type} [Rig ρ] {r : ρ}

theorem apply (h : Dependable r) (setpoint : Binary64) (dt : Duration) :
    ∃ r', Rig.apply r setpoint dt = (.ok (), r') ∧ Dependable r' := by
  obtain ⟨P, hP, hr⟩ := h
  obtain ⟨r', happly, hr'⟩ := hP.apply r setpoint dt hr
  exact ⟨r', happly, P, hP, hr'⟩

theorem measure (h : Dependable r) :
    ∃ value r', Rig.measure r = (.ok value, r') ∧ Dependable r' := by
  obtain ⟨P, hP, hr⟩ := h
  obtain ⟨value, r', hmeasure, hr'⟩ := hP.measure r hr
  exact ⟨value, r', hmeasure, P, hP, hr'⟩

theorem safeState (h : Dependable r) :
    ∃ r', Rig.safeState r = (.ok (), r') ∧ Dependable r' := by
  obtain ⟨P, hP, hr⟩ := h
  obtain ⟨r', hsafe, hr'⟩ := hP.safeState r hr
  exact ⟨r', hsafe, P, hP, hr'⟩

end Rig.Dependable

theorem NullRig.dependable (r : NullRig) : Rig.Dependable r := by
  refine ⟨fun _ => True, ⟨?_, ?_, ?_⟩, trivial⟩
  · exact fun _ setpoint _ _ => ⟨⟨setpoint⟩, rfl, trivial⟩
  · exact fun r _ => ⟨r.last, r, rfl, trivial⟩
  · exact fun _ _ => ⟨⟨.zero⟩, rfl, trivial⟩

theorem SimulatedRig.dependable {r : SimulatedRig} (h : r.ready = true) : Rig.Dependable r := by
  refine ⟨fun r => r.ready = true, ⟨?_, ?_, ?_⟩, h⟩
  · exact fun r setpoint dt h => ⟨{ r with value := r.respond setpoint dt }, if_pos h, h⟩
  · exact fun r h => ⟨r.value, r, rfl, h⟩
  · exact fun r h => ⟨{ r with value := .zero }, rfl, h⟩

/-- What a rig reports when it has been driven to a set-point. -/
def Rig.reportAfter {ρ : Type} [Rig ρ] (r : ρ) (setpoint : Binary64) (dt : Duration) :
    Except BenchError Binary64 :=
  (Rig.measure (Rig.apply r setpoint dt).2).1

def Rig.DrivenTo {ρ : Type} [Rig ρ] (r : ρ) (setpoint : Binary64) (dt : Duration)
    (value : Binary64) (r' : ρ) : Prop :=
  ∃ moved, Rig.apply r setpoint dt = (.ok (), moved) ∧ Rig.measure moved = (.ok value, r')

/-- One step later, with the set-point of that time and a measured value. -/
def Transport.measured (t : Transport) (step : Duration) (value : Binary64) : Transport :=
  let data : BenchData := ⟨t.data.time.advance step, value⟩
  { t with data, trajectory := t.trajectory.follow data }

@[simp] theorem FrameQueue.frames_push (q : FrameQueue) (f : Frame) :
    (q.push f).frames = (if q.isFull then q.frames.drop 1 else q.frames) ++ [f] := by
  unfold push wake append isFull
  by_cases h : q.frames.length = q.capacity
  · simp [h]
  · simp [h]

namespace ControlLoop

variable {ρ : Type}

theorem intake_output (c : ControlLoop ρ) (t : Transport) :
    (c.intake t).output = t.output ∧ (c.intake t).stats.sent = t.stats.sent := by
  unfold intake
  split
  · exact t.handleFrames_output
  · exact ⟨rfl, rfl⟩

variable [Rig ρ]

/-- Counting a tick changes nothing that the tick looks at. -/
theorem tick_eq (c : ControlLoop ρ) (link : LinkState) (t : Transport) :
    c.tick link t =
      if c.lostLink link (c.intake t) then
        { c with ticks := c.ticks + 1 }.abandon (c.intake t) .linkLost
      else if (c.intake t).isRunning then { c with ticks := c.ticks + 1 }.drive (c.intake t)
      else (.ok .idle, { c with ticks := c.ticks + 1 }, c.intake t) := rfl

theorem sample_ticks (c : ControlLoop ρ) (t : Transport) (n : Nat) :
    ({ c with ticks := n } : ControlLoop ρ).sample t =
      ((c.sample t).1, { (c.sample t).2.1 with ticks := n }, (c.sample t).2.2) := by
  unfold sample
  dsimp only [advance]
  rcases Rig.apply c.rig _ c.settings.step with ⟨_ | _, rig⟩
  · rfl
  · dsimp only
    rcases Rig.measure rig with ⟨_ | _, rig'⟩ <;> rfl

theorem abandon_eq (c : ControlLoop ρ) (t : Transport) (outcome : TickOutcome) :
    c.abandon t outcome =
      ((Rig.safeState c.rig).1.map fun _ => outcome, { c with rig := (Rig.safeState c.rig).2 },
        t.reset) := by
  unfold abandon
  rcases Rig.safeState c.rig with ⟨_ | _, rig⟩ <;> rfl

/-- How the rig goes along with the step of a running experiment: it fails, or it is driven to the
set-point and reports a value. -/
theorem sample_cases (c : ControlLoop ρ) (t : Transport) :
    (∃ e rig, c.sample t = (.error e, { c with rig }, c.advance t)) ∨
    ∃ value rig, c.sample t = (.ok (), { c with rig }, (t.measured c.settings.step value).sendData) ∧
      Rig.reportAfter c.rig (c.advance t).trajectory.output c.settings.step = .ok value := by
  unfold sample Rig.reportAfter
  dsimp only
  rcases Rig.apply c.rig (c.advance t).trajectory.output c.settings.step with ⟨e | _, rig⟩
  · exact .inl ⟨e, rig, rfl⟩
  · dsimp only
    rcases Rig.measure rig with ⟨e | value, rig'⟩
    · exact .inl ⟨e, rig', rfl⟩
    · exact .inr ⟨value, rig', rfl, rfl⟩

theorem sample_of_drivenTo {c : ControlLoop ρ} {t : Transport}
    {value : Binary64} {rig : ρ}
    (h : Rig.DrivenTo c.rig (c.advance t).trajectory.output c.settings.step value rig) :
    c.sample t = (.ok (), { c with rig }, (t.measured c.settings.step value).sendData) := by
  obtain ⟨moved, happly, hmeasure⟩ := h
  unfold sample
  dsimp only
  rw [happly]
  dsimp only
  rw [hmeasure]
  rfl

theorem sample_of_dependable {c : ControlLoop ρ} (hrig : Rig.Dependable c.rig) (t : Transport) :
    ∃ value rig, c.sample t =
      (.ok (), { c with rig }, (t.measured c.settings.step value).sendData) ∧
      Rig.Dependable rig := by
  obtain ⟨rig, happly, hrig⟩ := hrig.apply (c.advance t).trajectory.output c.settings.step
  obtain ⟨value, rig', hmeasure, hrig'⟩ := hrig.measure
  refine ⟨value, rig', ?_, hrig'⟩
  unfold sample
  dsimp only
  rw [happly]
  dsimp only
  rw [hmeasure]
  rfl

theorem sample_ne_error {c c' : ControlLoop ρ} {t t' : Transport} {e : BenchError}
    (hrig : Rig.Dependable c.rig) : c.sample t ≠ (.error e, c', t') := by
  obtain ⟨value, rig, hsample, -⟩ := sample_of_dependable hrig t
  rw [hsample]
  exact nofun

structure Samples (c : ControlLoop ρ) (link : LinkState) (t : Transport) (value : Binary64)
    (rig : ρ) : Prop where
  linked : c.lostLink link t = false
  running : t.isRunning = true
  sample : c.sample t = (.ok (), { c with rig }, (t.measured c.settings.step value).sendData)
  report : Rig.reportAfter c.rig (c.advance t).trajectory.output c.settings.step = .ok value

theorem Samples.dependable {c : ControlLoop ρ} {link : LinkState} {t : Transport}
    {value : Binary64} {rig : ρ} (hs : c.Samples link t value rig)
    (hrig : Rig.Dependable c.rig) : Rig.Dependable rig := by
  obtain ⟨value', rig', hsample, hrig'⟩ := sample_of_dependable hrig t
  have heq := congrArg (fun call => call.2.1.rig) (hs.sample.symm.trans hsample)
  dsimp only at heq
  rwa [heq]

/-- The ways a tick can go once it has taken in its frames: result, loop, transport and history. -/
inductive TickWay (c : ControlLoop ρ) (link : LinkState) (t : Transport) (h : History) :
    Except BenchError TickOutcome → ControlLoop ρ → Transport → History → Prop
  | linkLost (hlost : c.lostLink link t = true) :
    TickWay c link t h ((Rig.safeState c.rig).1.map fun _ => .linkLost)
      { c with rig := (Rig.safeState c.rig).2, ticks := c.ticks + 1 } t.reset h
  | idle (hidle : t.isRunning = false) :
    TickWay c link t h (.ok .idle) { c with ticks := c.ticks + 1 } t h
  | failed {e : BenchError} {rig : ρ} (hlink : c.lostLink link t = false)
      (hrun : t.isRunning = true) (hsample : c.sample t = (.error e, { c with rig }, c.advance t)) :
    TickWay c link t h (.error e) { c with rig, ticks := c.ticks + 1 } (c.advance t) h
  | sampled {value : Binary64} {rig : ρ} (hs : c.Samples link t value rig)
      (hwindow : (t.measured c.settings.step value).keepaliveExpired c.settings.keepalive = false) :
    TickWay c link t h (.ok .sampled) { c with rig, ticks := c.ticks + 1 }
      (t.measured c.settings.step value).sendData
      (.sample (t.measured c.settings.step value).sample.toFrame :: h)
  | expired {value : Binary64} {rig : ρ} (hs : c.Samples link t value rig)
      (hwindow : (t.measured c.settings.step value).keepaliveExpired c.settings.keepalive = true) :
    TickWay c link t h ((Rig.safeState rig).1.map fun _ => .keepaliveExpired)
      { c with rig := (Rig.safeState rig).2, ticks := c.ticks + 1 }
      (t.measured c.settings.step value).sendData.reset
      (.sample (t.measured c.settings.step value).sample.toFrame :: h)

theorem noteSample_of_ok {c : ControlLoop ρ} {t : Transport} {value : Binary64} {rig : ρ}
    (hsample : c.sample t =
      (.ok (), { c with rig }, (t.measured c.settings.step value).sendData)) (h : History) :
    c.noteSample t h = .sample (t.measured c.settings.step value).sample.toFrame :: h := by
  unfold noteSample
  rw [hsample]
  simp [Transport.sendData]

theorem tickWay_tick (c : ControlLoop ρ) (link : LinkState) (t : Transport) (h : History) :
    TickWay c link (c.intake t) (c.noteIntake t h) (c.tick link t).1 (c.tick link t).2.1
      (c.tick link t).2.2 (c.noteTick link t h) := by
  rw [tick_eq]
  unfold noteTick
  dsimp only
  generalize c.intake t = t
  generalize c.noteIntake _ h = h
  by_cases hlost : c.lostLink link t = true
  · rw [if_pos hlost, if_pos hlost, abandon_eq]
    exact .linkLost hlost
  rw [if_neg hlost, if_neg hlost]
  rw [Bool.not_eq_true] at hlost
  by_cases hrun : t.isRunning = true
  · rw [if_pos hrun, if_pos hrun]
    unfold drive
    rw [sample_ticks]
    rcases c.sample_cases t with ⟨e, rig, hsample⟩ | ⟨value, rig, hsample, hreport⟩
    · have hnote : c.noteSample t h = h := by
        unfold noteSample
        rw [hsample]
      rw [hsample, hnote]
      exact .failed hlost hrun hsample
    · rw [hsample, noteSample_of_ok hsample]
      dsimp only
      unfold watch
      split
      · next hwindow =>
        rw [abandon_eq]
        exact .expired ⟨hlost, hrun, hsample, hreport⟩ hwindow
      · next hwindow =>
        exact .sampled ⟨hlost, hrun, hsample, hreport⟩ ((Bool.not_eq_true _).mp hwindow)
  · rw [if_neg hrun, if_neg hrun]
    exact .idle ((Bool.not_eq_true _).mp hrun)

end ControlLoop
end RigBench
