/-!
Machines whose steps may be impossible. A run is possible if all its steps are, one after the other.
-/
namespace RigBench

/-- What each of some steps keeps, a run of them keeps. -/
theorem foldlM_keeps {σ α : Type} {step : σ → α → Option σ} {P : σ → Prop} {events : List α}
    (hstep : ∀ e ∈ events, ∀ {s t}, P s → step s e = some t → P t) {s t : σ} (hs : P s)
    (hrun : events.foldlM step s = some t) : P t := by
  induction events generalizing s with
  | nil =>
    obtain rfl := Option.some.inj hrun
    exact hs
  | cons e events ih =>
    obtain ⟨u, hu, hrun⟩ := Option.bind_eq_some_iff.mp hrun
    obtain ⟨hfirst, hstep⟩ := List.forall_mem_cons.mp hstep
    exact ih hstep (hfirst hs hu) hrun

end RigBench
