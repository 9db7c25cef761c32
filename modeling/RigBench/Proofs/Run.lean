import Mathlib.Data.List.Induction
import RigBench.Proofs.Tick

/-!
Runs of a bench under one control loop. What each piece of a run keeps, the whole run keeps, so
that the theory of runs looks at frames, samples and resets one at a time.
-/
namespace RigBench

/-- A fact about a transport and its history that frames keep. -/
structure FrameInvariant (P : Transport → History → Prop) : Prop where
  input {t : Transport} {h : History} : P t h → ∀ q, P { t with input := q } h
  receive {t : Transport} {h : History} : P t h → ∀ f, P (t.receive f) (t.eventOf f :: h)

/-- A fact about a transport and its history that whatever happens to a bench keeps. -/
structure Invariant (settings : ControlSettings) (P : Transport → History → Prop) : Prop
    extends FrameInvariant P where
  sampled {t : Transport} {h : History} : P t h → t.isRunning = true → ∀ value,
    (t.measured settings.step value).keepaliveExpired settings.keepalive = false →
      P (t.measured settings.step value).sendData
        (.sample (t.measured settings.step value).sample.toFrame :: h)
  expired {t : Transport} {h : History} : P t h → t.isRunning = true → ∀ value,
    (t.measured settings.step value).keepaliveExpired settings.keepalive = true →
      P (t.measured settings.step value).sendData.reset
        (.sample (t.measured settings.step value).sample.toFrame :: h)
  reset {t : Transport} {h : History} : P t h → P t.reset h
  connected {t : Transport} {h : History} : P t h → P t (.connected :: h)
  disconnected {t : Transport} {h : History} : P t h → P t (.disconnected :: h)
  collect {t : Transport} {h : History} : P t h → P { t with output := t.output.clear } h

namespace Run

variable {ρ : Type} [Rig ρ]

def atTick (r : Run ρ) : Transport := r.loop.intake r.bench.transport

def historyAtTick (r : Run ρ) : History := r.loop.noteIntake r.bench.transport r.history

theorem step_tick (r : Run ρ) :
    ∃ outcome loop transport history,
      r.loop.TickWay r.bench.link r.atTick r.historyAtTick outcome loop transport history ∧
      r.bench.tick r.loop = (outcome, loop, { r.bench with transport }) ∧
      r.step .tick = ⟨loop, { r.bench with transport }, history⟩ :=
  ⟨_, _, _, _, r.loop.tickWay_tick r.bench.link r.bench.transport r.history, rfl, rfl⟩

theorem loop_step (r : Run ρ) (a : Act) :
    (r.step a).loop.settings = r.loop.settings ∧
      (r.step a).loop.watchesLink = r.loop.watchesLink := by
  cases a with
  | tick =>
    obtain ⟨outcome, loop, transport, history, hway, -, hstep⟩ := r.step_tick
    rw [hstep]
    cases hway <;> exact ⟨rfl, rfl⟩
  | service => exact ⟨rfl, rfl⟩
  | client act => exact ⟨rfl, rfl⟩

theorem loop_after (r : Run ρ) (acts : List Act) :
    (r.after acts).loop.settings = r.loop.settings ∧
      (r.after acts).loop.watchesLink = r.loop.watchesLink := by
  induction acts using List.reverseRecOn with
  | nil => exact ⟨rfl, rfl⟩
  | append_singleton acts a ih =>
    rw [after_append_singleton]
    have hstep := (r.after acts).loop_step a
    exact ⟨hstep.1.trans ih.1, hstep.2.trans ih.2⟩

theorem dependable_step {r : Run ρ} (hrig : Rig.Dependable r.loop.rig) (a : Act) :
    Rig.Dependable (r.step a).loop.rig := by
  cases a with
  | tick =>
    obtain ⟨outcome, loop, transport, history, hway, -, hstep⟩ := r.step_tick
    rw [hstep]
    cases hway with
    | linkLost hlost =>
      obtain ⟨rig, hsafe, hrest⟩ := hrig.safeState
      rw [hsafe]
      exact hrest
    | idle hidle => exact hrig
    | failed hlink hrun hsample => exact absurd hsample (ControlLoop.sample_ne_error hrig)
    | sampled hs hwindow => exact hs.dependable hrig
    | expired hs hwindow =>
      obtain ⟨rig, hsafe, hrest⟩ := (hs.dependable hrig).safeState
      rw [hsafe]
      exact hrest
  | service => exact hrig
  | client act => exact hrig

theorem dependable_after {r : Run ρ} (hrig : Rig.Dependable r.loop.rig) (acts : List Act) :
    Rig.Dependable (r.after acts).loop.rig := by
  induction acts using List.reverseRecOn with
  | nil => exact hrig
  | append_singleton acts a ih =>
    rw [after_append_singleton]
    exact dependable_step ih a

end Run

namespace FrameInvariant

variable {ρ : Type} {P : Transport → History → Prop}

theorem frames (hP : FrameInvariant P) {t : Transport} {h : History} (ht : P t h) :
    P t.handleFrames.2 (t.noteFrames h) := by
  have hdrained := hP.input ht t.input.drain.2
  exact Transport.note_induction (P := P) (fun _ _ f hp => hP.receive hp f) t.input.drain.1 _ h
    hdrained

theorem intake (hP : FrameInvariant P) (c : ControlLoop ρ) {t : Transport} {h : History}
    (ht : P t h) : P (c.intake t) (c.noteIntake t h) := by
  unfold ControlLoop.intake ControlLoop.noteIntake
  split
  · exact hP.frames ht
  · exact ht

theorem service (hP : FrameInvariant P) {t : Transport} {h : History} (ht : P t h) :
    P t.run.2 (t.noteRun h) := by
  unfold Transport.run Transport.noteRun
  split
  · exact ht
  · exact hP.frames ht

end FrameInvariant

namespace Invariant

variable {ρ : Type} {settings : ControlSettings} {P : Transport → History → Prop}

theorem client (hP : Invariant settings P) {b : Bench} {h : History} (ht : P b.transport h)
    (act : ClientAct) : P (b.undergo act).transport (act.note h) := by
  cases act with
  | submit f => exact hP.input ht _
  | connect => exact hP.connected ht
  | disconnect => exact hP.disconnected ht
  | collect => exact hP.collect ht

variable [Rig ρ]

theorem step {r : Run ρ} (hP : Invariant r.loop.settings P) (hrig : Rig.Dependable r.loop.rig)
    (h : P r.bench.transport r.history) (a : Act) :
    P (r.step a).bench.transport (r.step a).history := by
  cases a with
  | tick =>
    obtain ⟨outcome, loop, transport, history, hway, -, hstep⟩ := r.step_tick
    have hintake : P r.atTick r.historyAtTick := hP.intake r.loop h
    rw [hstep]
    cases hway with
    | linkLost hlost => exact hP.reset hintake
    | idle hidle => exact hintake
    | failed hlink hrun hsample => exact absurd hsample (ControlLoop.sample_ne_error hrig)
    | sampled hs hwindow => exact hP.sampled hintake hs.running _ hwindow
    | expired hs hwindow => exact hP.expired hintake hs.running _ hwindow
  | service => exact hP.service h
  | client act => exact hP.client h act

theorem after {r : Run ρ} (hP : Invariant r.loop.settings P) (hrig : Rig.Dependable r.loop.rig)
    (h : P r.bench.transport r.history) (acts : List Act) :
    P (r.after acts).bench.transport (r.after acts).history := by
  induction acts using List.reverseRecOn with
  | nil => exact h
  | append_singleton acts a ih =>
    rw [Run.after_append_singleton]
    have hsettings := (r.loop_after acts).1
    exact step (hsettings ▸ hP) (Run.dependable_after hrig acts) ih a

end Invariant
end RigBench
