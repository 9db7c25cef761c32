import RigBench.Proofs.Tick

/-!
Rigs that answer as another rig does. One of them notes every call that is made of it, and keeps of
its notes whatever somebody wants to know; what it keeps of a tick follows from the calls that a
tick makes, one after the other up to the first that fails.
-/
namespace RigBench

/-- Rigs in this relation answer the calls of a running experiment alike, and stay in it. -/
structure Rig.Mirrors {ρ σ : Type} [Rig ρ] [Rig σ] (R : ρ → σ → Prop) : Prop where
  apply : ∀ r q setpoint dt, R r q →
    (Rig.apply q setpoint dt).1 = (Rig.apply r setpoint dt).1 ∧
      R (Rig.apply r setpoint dt).2 (Rig.apply q setpoint dt).2
  measure : ∀ r q, R r q →
    (Rig.measure q).1 = (Rig.measure r).1 ∧ R (Rig.measure r).2 (Rig.measure q).2
  safeState : ∀ r q, R r q →
    (Rig.safeState q).1 = (Rig.safeState r).1 ∧ R (Rig.safeState r).2 (Rig.safeState q).2

theorem Rig.Dependable.mirror {ρ σ : Type} [Rig ρ] [Rig σ] {R : ρ → σ → Prop}
    (hR : Rig.Mirrors R) {r : ρ} {q : σ} (hrq : R r q) (hrig : Rig.Dependable r) :
    Rig.Dependable q := by
  refine ⟨fun q => ∃ r, R r q ∧ Rig.Dependable r, ⟨?_, ?_, ?_⟩, r, hrq, hrig⟩
  · rintro q setpoint dt ⟨r, hrq, hrig⟩
    obtain ⟨r', happly, hrig'⟩ := hrig.apply setpoint dt
    obtain ⟨hanswer, hrest⟩ := hR.apply r q setpoint dt hrq
    rw [happly] at hanswer hrest
    exact ⟨_, Prod.ext hanswer rfl, r', hrest, hrig'⟩
  · rintro q ⟨r, hrq, hrig⟩
    obtain ⟨value, r', hmeasure, hrig'⟩ := hrig.measure
    obtain ⟨hanswer, hrest⟩ := hR.measure r q hrq
    rw [hmeasure] at hanswer hrest
    exact ⟨value, _, Prod.ext hanswer rfl, r', hrest, hrig'⟩
  · rintro q ⟨r, hrq, hrig⟩
    obtain ⟨r', hsafe, hrig'⟩ := hrig.safeState
    obtain ⟨hanswer, hrest⟩ := hR.safeState r q hrq
    rw [hsafe] at hanswer hrest
    exact ⟨_, Prod.ext hanswer rfl, r', hrest, hrig'⟩

inductive RigRequest
  | init
  | apply (setpoint : Binary64) (dt : Duration)
  | measure
  | safeState
  | shutdown
  deriving DecidableEq

/-- A call with the error that it gave. -/
abbrev RigNote := RigRequest × Option BenchError

def RigRequest.note {α : Type} (request : RigRequest) (x : Except BenchError α) : RigNote :=
  (request, match x with
    | .ok _ => none
    | .error e => some e)

/-- Something that is kept of the calls of a rig. -/
class RigObserver (σ : Type) where
  note : σ → RigNote → σ

def RigObserver.after {σ : Type} [RigObserver σ] (seen : σ) (notes : List RigNote) : σ :=
  notes.foldl note seen

structure ObservedRig (σ ρ : Type) where
  rig : ρ
  seen : σ
  deriving DecidableEq

namespace ObservedRig

open RigObserver

variable {σ ρ : Type} [RigObserver σ]

def call {α : Type} (r : ObservedRig σ ρ) (request : RigRequest) (f : ρ → RigCall ρ α) :
    RigCall (ObservedRig σ ρ) α :=
  let (x, rig) := f r.rig
  (x, { rig, seen := note r.seen (request.note x) })

theorem call_eq {α : Type} {r rig : ρ} {f : ρ → RigCall ρ α} {x : Except BenchError α}
    (h : f r = (x, rig)) (seen : σ) (request : RigRequest) :
    call ⟨r, seen⟩ request f = (x, ⟨rig, note seen (request.note x)⟩) := by
  unfold call
  rw [h]

variable [Rig ρ]

instance : Rig (ObservedRig σ ρ) where
  name r := Rig.name r.rig
  init r := r.call .init Rig.init
  apply r setpoint dt := r.call (.apply setpoint dt) (Rig.apply · setpoint dt)
  measure r := r.call .measure Rig.measure
  safeState r := r.call .safeState Rig.safeState
  shutdown r := r.call .shutdown Rig.shutdown

theorem mirrors : Rig.Mirrors fun (r : ρ) (q : ObservedRig σ ρ) => q.rig = r := by
  constructor <;> rintro r q <;> intros <;> subst r <;> exact ⟨rfl, rfl⟩

theorem apply_eq {r rig : ρ} {setpoint : Binary64} {dt : Duration} {x : Except BenchError Unit}
    (h : Rig.apply r setpoint dt = (x, rig)) (seen : σ) :
    Rig.apply (⟨r, seen⟩ : ObservedRig σ ρ) setpoint dt =
      (x, ⟨rig, note seen ((RigRequest.apply setpoint dt).note x)⟩) :=
  call_eq (f := (Rig.apply · setpoint dt)) h seen _

theorem measure_eq {r rig : ρ} {x : Except BenchError Binary64} (h : Rig.measure r = (x, rig))
    (seen : σ) :
    Rig.measure (⟨r, seen⟩ : ObservedRig σ ρ) =
      (x, ⟨rig, note seen (RigRequest.measure.note x)⟩) :=
  call_eq h seen _

end ObservedRig

namespace Transport

/-- The call that drives a rig along the next step. -/
def driveRequest (t : Transport) (step : Duration) : RigRequest :=
  .apply (t.trajectory.ramp.evaluate (t.data.time.advance step).millis) step

/-- One step later, with the set-point of that time and the value measured before. -/
def unmeasured (t : Transport) (step : Duration) : Transport := t.measured step t.data.measurement

/-- The ways to get a sample: calls, result and the transport that is left. -/
inductive SampleCourse (t : Transport) (step : Duration) :
    List RigNote → Except BenchError Unit → Transport → Prop
  | unmoved (e : BenchError) :
    SampleCourse t step [(t.driveRequest step, some e)] (.error e) (t.unmeasured step)
  | unmeasured (e : BenchError) :
    SampleCourse t step [(t.driveRequest step, none), (.measure, some e)] (.error e)
      (t.unmeasured step)
  | sampled (value : Binary64) :
    SampleCourse t step [(t.driveRequest step, none), (.measure, none)] (.ok ())
      (t.measured step value).sendData

end Transport

namespace ControlLoop

open RigObserver

variable {σ ρ : Type}

def observed (c : ControlLoop ρ) (seen : σ) : ControlLoop (ObservedRig σ ρ) :=
  { rig := ⟨c.rig, seen⟩
    settings := c.settings
    watchesLink := c.watchesLink
    ticks := c.ticks }

def unobserved (c : ControlLoop (ObservedRig σ ρ)) : ControlLoop ρ :=
  { rig := c.rig.rig
    settings := c.settings
    watchesLink := c.watchesLink
    ticks := c.ticks }

variable [RigObserver σ] [Rig ρ]

theorem sample_of_apply_error {c : ControlLoop ρ} {t : Transport} {e : BenchError} {rig : ρ}
    (h : Rig.apply c.rig (c.advance t).trajectory.output c.settings.step = (.error e, rig)) :
    c.sample t = (.error e, { c with rig }, c.advance t) := by
  unfold sample
  dsimp only
  rw [h]

theorem sample_of_measure_error {c : ControlLoop ρ} {t : Transport} {e : BenchError}
    {moved rig : ρ}
    (happly : Rig.apply c.rig (c.advance t).trajectory.output c.settings.step = (.ok (), moved))
    (hmeasure : Rig.measure moved = (.error e, rig)) :
    c.sample t = (.error e, { c with rig }, c.advance t) := by
  unfold sample
  dsimp only
  rw [happly]
  dsimp only
  rw [hmeasure]

theorem sample_observed (c : ControlLoop ρ) (seen : σ) (t : Transport) :
    ∃ notes, (c.observed seen).sample t =
        ((c.sample t).1, (c.sample t).2.1.observed (after seen notes), (c.sample t).2.2) ∧
      t.SampleCourse c.settings.step notes (c.sample t).1 (c.sample t).2.2 := by
  rcases happly : Rig.apply c.rig (c.advance t).trajectory.output c.settings.step with ⟨e | _, rig⟩
  · rw [sample_of_apply_error happly]
    refine ⟨_, ?_, .unmoved e⟩
    exact sample_of_apply_error (c := c.observed seen) (ObservedRig.apply_eq happly seen)
  have happly' := ObservedRig.apply_eq happly seen
  rcases hmeasure : Rig.measure rig with ⟨e | value, rig'⟩
  · rw [sample_of_measure_error happly hmeasure]
    refine ⟨_, ?_, .unmeasured e⟩
    exact sample_of_measure_error (c := c.observed seen) happly'
      (ObservedRig.measure_eq hmeasure _)
  · rw [sample_of_drivenTo ⟨rig, happly, hmeasure⟩]
    refine ⟨_, ?_, .sampled value⟩
    exact sample_of_drivenTo (c := c.observed seen)
      ⟨_, happly', ObservedRig.measure_eq hmeasure _⟩

end ControlLoop
end RigBench
