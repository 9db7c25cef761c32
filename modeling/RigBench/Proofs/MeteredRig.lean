import RigBench.Assembly
import RigBench.Proofs.ObservedRig

/-!
A meter for the time a rig is driven, and the rigs that a configuration selects.
-/
namespace RigBench

structure Meter where
  driven : Nat := 0
  deriving DecidableEq

namespace Meter

instance : RigObserver Meter where
  note
    | m, (.apply _ dt, _) => { driven := m.driven + dt.nanos }
    | m, _ => m

/-- A step of a running experiment hands the rig one step of time, even if the rig fails. -/
theorem driven_after {t t' : Transport} {step : Duration} {notes : List RigNote}
    {result : Except BenchError Unit} (h : t.SampleCourse step notes result t') (m : Meter) :
    (RigObserver.after m notes).driven = m.driven + step.nanos := by
  cases h <;> rfl

end Meter

abbrev Metered (ρ : Type) := ObservedRig Meter ρ

namespace ControlLoop

variable {ρ : Type}

def metered (c : ControlLoop ρ) : ControlLoop (Metered ρ) := c.observed {}

theorem driven_sample [Rig ρ] (c : ControlLoop (Metered ρ)) (t : Transport) :
    (c.sample t).2.1.rig.seen.driven = c.rig.seen.driven + c.settings.step.nanos := by
  obtain ⟨notes, hsample, hcourse⟩ := c.unobserved.sample_observed c.rig.seen t
  rw [show c.sample t = _ from hsample]
  exact Meter.driven_after hcourse c.rig.seen

end ControlLoop

namespace ConfiguredRig

theorem mirrors_null : Rig.Mirrors fun (r : NullRig) q => q = null r := by
  constructor <;> rintro r q <;> intros <;> subst q <;> exact ⟨rfl, rfl⟩

theorem mirrors_simulated : Rig.Mirrors fun (r : SimulatedRig) q => q = simulated r := by
  constructor <;> rintro r q <;> intros <;> subst q <;> exact ⟨rfl, rfl⟩

end ConfiguredRig

theorem ControlLoop.init_of_new {ρ : Type} [Rig ρ] {c : ControlLoop ρ} {rig : ρ} {t t' : Transport}
    (hrig : Rig.init c.rig = (.ok (), rig)) (hnew : t.state = .uninitialized)
    (hinit : t.init = .ok t') : c.init t = (.ok (), { c with rig }, t') := by
  unfold ControlLoop.init
  rw [hrig]
  dsimp only
  rw [if_pos hnew, hinit]

namespace Config

theorem ne_zero_of_valid {cfg : Config} (hvalid : cfg.validate = .ok ()) {field : String}
    {zero : Bool} (hcheck : (field, zero) ∈ cfg.zeroChecks) : zero = false := by
  unfold validate at hvalid
  split at hvalid
  · cases hvalid
  · next hnone =>
    exact (Bool.not_eq_true _).mp (List.find?_eq_none.mp hnone (field, zero) hcheck)

theorem rig_init {cfg : Config} (hvalid : cfg.validate = .ok ()) :
    ∃ rig, Rig.init (ConfiguredRig.ofConfig cfg.rig) = (.ok (), rig) ∧ Rig.Dependable rig := by
  have hcheck : (decide (cfg.rig.kind = .simulated) && cfg.rig.timeConstant.isZero) = false :=
    ne_zero_of_valid hvalid (List.getLast_mem (by simp [zeroChecks]))
  unfold ConfiguredRig.ofConfig
  cases hkind : cfg.rig.kind with
  | none => exact ⟨.null {}, rfl, (NullRig.dependable _).mirror ConfiguredRig.mirrors_null rfl⟩
  | simulated =>
    have hpositive : cfg.rig.timeConstant.isZero = false := by simpa [hkind] using hcheck
    refine ⟨.simulated { timeConstant := cfg.rig.timeConstant, ready := true }, ?_,
      (SimulatedRig.dependable rfl).mirror ConfiguredRig.mirrors_simulated rfl⟩
    have hready : Rig.init ({ timeConstant := cfg.rig.timeConstant } : SimulatedRig) =
        (.ok (), { timeConstant := cfg.rig.timeConstant, ready := true }) := by
      change (if cfg.rig.timeConstant.isZero then _ else _) = _
      rw [hpositive]
      rfl
    change (ConfiguredRig.simulated _).call _ _ = _
    rw [ConfiguredRig.call, hready]

end Config
end RigBench
