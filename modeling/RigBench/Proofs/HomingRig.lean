import RigBench.Proofs.ObservedRig
import RigBench.Rig.Configured

/-!
Rigs that `init` and the rest position always bring back to where they began, and a note on a rig of
whether it has left.
-/
namespace RigBench

/-- Rigs that do not fail, and that `init` and the rest position bring back to where they began. -/
structure Rig.Homing {ρ : Type} [Rig ρ] (home : ρ) (P : ρ → Prop) : Prop where
  begins : P home
  init : ∀ r, P r → Rig.init r = (.ok (), home)
  apply : ∀ r setpoint dt, P r → ∃ r', Rig.apply r setpoint dt = (.ok (), r') ∧ P r'
  measure : ∀ r, P r → ∃ value, Rig.measure r = (.ok value, r)
  safeState : ∀ r, P r → Rig.safeState r = (.ok (), home)

theorem Rig.Homing.drive {ρ : Type} [Rig ρ] {home : ρ} {P : ρ → Prop} (h : Rig.Homing home P)
    {r : ρ} (hr : P r) (setpoint : Binary64) (dt : Duration) :
    ∃ value r', DrivenTo r setpoint dt value r' ∧ P r' := by
  obtain ⟨r', happly, hr'⟩ := h.apply r setpoint dt hr
  obtain ⟨value, hmeasure⟩ := h.measure r' hr'
  exact ⟨value, r', ⟨r', happly, hmeasure⟩, hr'⟩

theorem NullRig.homing : Rig.Homing ({} : NullRig) fun _ => True where
  begins := trivial
  init _ _ := rfl
  apply _ setpoint _ _ := ⟨⟨setpoint⟩, rfl, trivial⟩
  measure r _ := ⟨r.last, rfl⟩
  safeState _ _ := rfl

theorem SimulatedRig.homing {timeConstant : Duration} (hpositive : timeConstant.isZero = false) :
    Rig.Homing ({ timeConstant, ready := true } : SimulatedRig)
      fun r => r.timeConstant = timeConstant ∧ r.ready = true where
  begins := ⟨rfl, rfl⟩
  init := by
    rintro r ⟨rfl, hready⟩
    change (if r.timeConstant.isZero then _ else _) = _
    rw [hpositive]
    rfl
  apply := by
    rintro r setpoint dt ⟨rfl, hready⟩
    exact ⟨{ r with value := r.respond setpoint dt }, if_pos hready, rfl, hready⟩
  measure r _ := ⟨r.value, rfl⟩
  safeState := by
    rintro r ⟨rfl, hready⟩
    change (Except.ok (), { r with value := Binary64.zero }) = _
    rw [← hready]

namespace ConfiguredRig

theorem homing_null : Rig.Homing (null {}) fun r => ∃ n, r = null n where
  begins := ⟨_, rfl⟩
  init := by rintro _ ⟨n, rfl⟩; rfl
  apply := by rintro _ setpoint _ ⟨n, rfl⟩; exact ⟨_, rfl, _, rfl⟩
  measure := by rintro _ ⟨n, rfl⟩; exact ⟨_, rfl⟩
  safeState := by rintro _ ⟨n, rfl⟩; rfl

theorem homing_simulated {home : SimulatedRig} {P : SimulatedRig → Prop}
    (h : Rig.Homing home P) : Rig.Homing (simulated home) fun r => ∃ s, r = simulated s ∧ P s where
  begins := ⟨_, rfl, h.begins⟩
  init := by
    rintro _ ⟨s, rfl, hs⟩
    change (simulated s).call _ _ = _
    rw [call, h.init s hs]
  apply := by
    rintro _ setpoint dt ⟨s, rfl, hs⟩
    obtain ⟨s', happly, hs'⟩ := h.apply s setpoint dt hs
    refine ⟨simulated s', ?_, s', rfl, hs'⟩
    change (simulated s).call _ _ = _
    rw [call, happly]
  measure := by
    rintro _ ⟨s, rfl, hs⟩
    obtain ⟨value, hmeasure⟩ := h.measure s hs
    refine ⟨value, ?_⟩
    change (simulated s).call _ _ = _
    rw [call, hmeasure]
  safeState := by
    rintro _ ⟨s, rfl, hs⟩
    change (simulated s).call _ _ = _
    rw [call, h.safeState s hs]

theorem ready_of_init {r ready : ConfiguredRig} (hinit : Rig.init r = (.ok (), ready)) :
    ((∃ m, r = null m) ∧ ready = null {}) ∨
      ∃ s, r = simulated s ∧ s.timeConstant.isZero = false ∧
        ready = simulated { timeConstant := s.timeConstant, ready := true } := by
  cases r with
  | null m => exact .inl ⟨⟨m, rfl⟩, (congrArg Prod.snd hinit).symm⟩
  | simulated s =>
    have hcall : Rig.init (simulated s) = ((Rig.init s).1, simulated (Rig.init s).2) := rfl
    rw [hcall] at hinit
    by_cases hzero : s.timeConstant.isZero = true
    · have hfails : Rig.init s = (.error (.config (.mustBeNonZero "rig.time_constant")), s) :=
        if_pos hzero
      rw [hfails] at hinit
      cases hinit
    · have hready : Rig.init s = (.ok (), { timeConstant := s.timeConstant, ready := true }) :=
        if_neg hzero
      rw [hready] at hinit
      cases hinit
      exact .inr ⟨s, rfl, (Bool.not_eq_true _).mp hzero, rfl⟩

theorem exists_homing {r ready : ConfiguredRig} (hinit : Rig.init r = (.ok (), ready)) :
    ∃ P, Rig.Homing ready P ∧ Rig.measure ready = (.ok .zero, ready) ∧
      ((∃ m, r = null m) → ∀ r, P r → ∃ m, r = null m) := by
  rcases ready_of_init hinit with ⟨-, rfl⟩ | ⟨s, rfl, hpositive, rfl⟩
  · exact ⟨_, homing_null, rfl, fun _ r hr => hr⟩
  · exact ⟨_, homing_simulated (SimulatedRig.homing hpositive), rfl, nofun⟩

theorem shutdown_of_init {r ready : ConfiguredRig} (hinit : Rig.init r = (.ok (), ready)) :
    (Rig.measure (Rig.shutdown ready).2).1 = .ok .zero ∧
      ((∃ s, r = simulated s) → ∀ setpoint dt,
        Rig.apply (Rig.shutdown ready).2 setpoint dt =
          (.error (.io .rigNotInitialized), (Rig.shutdown ready).2)) := by
  rcases ready_of_init hinit with ⟨⟨m, rfl⟩, rfl⟩ | ⟨s, rfl, hpositive, rfl⟩
  · exact ⟨rfl, nofun⟩
  · exact ⟨rfl, fun _ setpoint dt => rfl⟩

end ConfiguredRig

/-- Whether a rig was driven since it was last made ready or brought to rest. -/
structure Departure where
  driven : Bool := false
  deriving DecidableEq

instance : RigObserver Departure where
  note
    | _, (.init, _) => { driven := false }
    | _, (.apply _ _, _) => { driven := true }
    | _, (.safeState, _) => { driven := false }
    | d, _ => d

abbrev Noted (ρ : Type) := ObservedRig Departure ρ

namespace Noted

variable {ρ : Type}

/-- The rig is as `P` says, and where it began unless it is driven. -/
def Keeps (home : ρ) (P : ρ → Prop) (n : Noted ρ) : Prop :=
  P n.rig ∧ (n.seen.driven = false → n.rig = home)

theorem Keeps.eq_of_not_driven {home : ρ} {P : ρ → Prop} {n : Noted ρ} (h : Keeps home P n)
    (hdriven : n.seen.driven = false) : n = ⟨home, {}⟩ := by
  obtain ⟨rig, ⟨driven⟩⟩ := n
  obtain rfl : driven = false := hdriven
  obtain rfl : rig = home := h.2 rfl
  rfl

variable [Rig ρ]

theorem homing {home : ρ} {P : ρ → Prop} (h : Rig.Homing home P) :
    Rig.Homing (⟨home, {}⟩ : Noted ρ) (Keeps home P) where
  begins := ⟨h.begins, fun _ => rfl⟩
  init n hn := ObservedRig.call_eq (h.init n.rig hn.1) n.seen _
  apply n setpoint dt hn := by
    obtain ⟨r', happly, hr'⟩ := h.apply n.rig setpoint dt hn.1
    exact ⟨_, ObservedRig.apply_eq happly n.seen, hr', nofun⟩
  measure n hn := by
    obtain ⟨value, hmeasure⟩ := h.measure n.rig hn.1
    exact ⟨value, ObservedRig.measure_eq hmeasure n.seen⟩
  safeState n hn := ObservedRig.call_eq (h.safeState n.rig hn.1) n.seen _

theorem init_ok {n ready : Noted ρ} (hinit : Rig.init n = (.ok (), ready)) :
    Rig.init n.rig = (.ok (), ready.rig) ∧ ready.seen.driven = false := by
  have hcall : Rig.init n = ((Rig.init n.rig).1, ⟨(Rig.init n.rig).2, {}⟩) := rfl
  rw [hcall] at hinit
  obtain ⟨hresult, rfl⟩ := Prod.mk.inj hinit
  exact ⟨Prod.ext hresult rfl, rfl⟩

end Noted
end RigBench
