import RigBench.Proofs.ExperimentClock
import RigBench.Proofs.FrameDelivery

/-!
The way into readiness. `init` makes a transport ready; but a stop is the same step of the life
cycle, so that a transport which takes in frames before `init` leaves the uninitialized state with
the first stop among them. Nothing else does, and a stop has an effect in every state but idle.
-/
namespace RigBench

inductive TransportAct
  | submit (f : Frame)
  | handle
  | service
  | send
  | reset
  | ask (window : Duration)
  | init
  deriving DecidableEq

structure TransportRun where
  transport : Transport
  taken : List Frame := []
  /-- Attempts at `init` that succeeded. -/
  inits : Nat := 0
  deriving DecidableEq

namespace Transport

theorem state_receive (t : Transport) (f : Frame) :
    (t.receive f).state = .uninitialized ↔
      t.state = .uninitialized ∧ Command.decode f ≠ .ok (some .stop) := by
  have hr := t.reception_receive f
  generalize t.receive f = t' at hr ⊢
  generalize t.eventOf f = e at hr
  cases hr with
  | start hf hs => exact ⟨nofun, fun ⟨hnew, _⟩ => by rw [hs] at hnew; cases hnew⟩
  | stop hf hs => exact ⟨nofun, fun ⟨_, hstop⟩ => absurd hf hstop⟩
  | keepalive hf => exact ⟨fun hnew => ⟨hnew, by simp [hf]⟩, And.left⟩
  | trajectory hf hr => exact ⟨fun hnew => ⟨hnew, by simp [hf]⟩, And.left⟩
  | rejected hf hn =>
    refine ⟨fun hnew => ⟨hnew, fun hstop => ?_⟩, And.left⟩
    have hidle : t.state = .idle := by simpa [Refuses, hstop] using hf
    have hnew' : t.state = .uninitialized := hnew
    rw [hidle] at hnew'
    cases hnew'
  | ignored hf => exact ⟨fun hnew => ⟨hnew, by simp [hf]⟩, And.left⟩

theorem state_foldl_receive (fs : List Frame) (t : Transport) :
    (fs.foldl receive t).state = .uninitialized ↔
      t.state = .uninitialized ∧ ∀ f ∈ fs, Command.decode f ≠ .ok (some .stop) := by
  induction fs generalizing t with
  | nil => simp
  | cons f fs ih => rw [List.foldl_cons, ih, state_receive, List.forall_mem_cons, and_assoc]

theorem state_handleFrames (t : Transport) :
    t.handleFrames.2.state = .uninitialized ↔
      t.state = .uninitialized ∧ ∀ f ∈ t.input.frames, Command.decode f ≠ .ok (some .stop) :=
  state_foldl_receive t.input.frames { t with input := t.input.clear }

theorem state_run (t : Transport) :
    t.run.2.state = .uninitialized ↔
      t.state = .uninitialized ∧ ∀ f ∈ t.runFrames, Command.decode f ≠ .ok (some .stop) := by
  unfold run runFrames
  split
  · next hnew => simp [hnew]
  · next hleft => simp [state_handleFrames, hleft]

theorem state_reset_eq_uninitialized (t : Transport) :
    t.reset.state = .uninitialized ↔ t.state = .uninitialized := by
  by_cases hrun : t.isRunning = true
  · have hstate : t.state = .running := beq_iff_eq.mp hrun
    rw [state_reset hrun, hstate]
    decide
  · have hsame : t.reset.lifecycle = t.lifecycle := if_neg hrun
    rw [state, hsame]
    rfl

theorem exists_init (t : Transport) (hnew : t.state ≠ .idle) : ∃ t', t.init = .ok t' := by
  unfold init
  rw [t.lifecycle.transition_idle hnew]
  exact ⟨_, rfl⟩

theorem exists_init_error (t : Transport) (hidle : t.state = .idle) : ∃ e, t.init = .error e := by
  obtain ⟨e, he⟩ := t.lifecycle.transition_idle_of_eq hidle
  unfold init
  rw [he]
  exact ⟨e, rfl⟩

theorem handled_stop_iff {t : Transport} {f : Frame}
    (hf : Command.decode f = .ok (some .stop)) :
    ((t.receive f).stats.handled = t.stats.handled + 1 ↔ t.state ≠ .idle) ∧
      (t.state = .idle → t.receive f = t.hear.countRejected) := by
  have hr := t.reception_receive f
  generalize t.receive f = t' at hr ⊢
  generalize t.eventOf f = e at hr
  cases hr with
  | start hf' hs => rw [hf] at hf'; cases hf'
  | stop hf' hs => exact ⟨⟨fun _ => hs, fun _ => rfl⟩, fun hidle => absurd hidle hs⟩
  | keepalive hf' => rw [hf] at hf'; cases hf'
  | trajectory hf' hr' => rw [hf] at hf'; cases hf'
  | rejected hf' hn =>
    have hidle : t.state = .idle := by simpa [Refuses, hf] using hf'
    refine ⟨⟨fun hcount => ?_, fun hne => absurd hidle hne⟩, fun _ => rfl⟩
    have hcount' : t.stats.handled = t.stats.handled + 1 := hcount
    omega
  | ignored hf' => rw [hf] at hf'; cases hf'

end Transport

namespace TransportRun

def start (t : Transport) : TransportRun := { transport := t }

def step (x : TransportRun) : TransportAct → TransportRun
  | .submit f =>
    { x with transport := { x.transport with input := x.transport.input.push f } }
  | .handle =>
    { x with
      transport := x.transport.handleFrames.2
      taken := x.taken ++ x.transport.input.frames }
  | .service =>
    { x with transport := x.transport.run.2, taken := x.taken ++ x.transport.runFrames }
  | .send => { x with transport := x.transport.sendData }
  | .reset => { x with transport := x.transport.reset }
  | .ask _ => x
  | .init =>
    match x.transport.init with
    | .ok t => { x with transport := t, inits := x.inits + 1 }
    | .error _ => x

def after (x : TransportRun) (acts : List TransportAct) : TransportRun := acts.foldl step x

/-- The transport is uninitialized as long as `init` has not succeeded and no stop was taken in. -/
def Waits (x : TransportRun) : Prop :=
  x.transport.state = .uninitialized ↔
    x.inits = 0 ∧ ∀ f ∈ x.taken, Command.decode f ≠ .ok (some .stop)

theorem Waits.of_state_iff {x y : TransportRun} (hx : x.Waits) (hinits : y.inits = x.inits)
    {fs : List Frame} (htaken : y.taken = x.taken ++ fs)
    (hstate : y.transport.state = .uninitialized ↔ x.transport.state = .uninitialized ∧
      ∀ f ∈ fs, Command.decode f ≠ .ok (some .stop)) : y.Waits := by
  unfold Waits at *
  rw [hstate, hx, hinits, htaken, List.forall_mem_append, and_assoc]

theorem Waits.step {x : TransportRun} (hx : x.Waits) (a : TransportAct) : (x.step a).Waits := by
  cases a with
  | submit f => exact hx
  | handle => exact hx.of_state_iff rfl rfl x.transport.state_handleFrames
  | service => exact hx.of_state_iff rfl rfl x.transport.state_run
  | send => exact hx
  | reset => exact x.transport.state_reset_eq_uninitialized.trans hx
  | ask window => exact hx
  | init =>
    unfold TransportRun.step
    dsimp only
    split
    · next t hinit =>
      -- a transport that has been made ready is idle
      have hidle := (Transport.ready_of_init hinit).idle
      constructor
      · intro hnew
        rw [show t.state = .uninitialized from hnew] at hidle
        cases hidle
      · rintro ⟨hinits, -⟩
        cases hinits
    · exact hx

theorem waits_after (acts : List TransportAct) {x : TransportRun} (hx : x.Waits) :
    (x.after acts).Waits := by
  induction acts generalizing x with
  | nil => exact hx
  | cons a acts ih => exact ih (hx.step a)

end TransportRun

/-- What leads out of the uninitialized state, for every transport and every sequence of acts: the
first success of `init` and the first stop that is taken in, and nothing else. As long as there was
neither, `init` succeeds and makes the transport ready; where a stop came first and no experiment
was started since, it fails. A stop is handled in every state but idle: in all but the uninitialized
one, exactly if an experiment is running. -/
theorem leaves_uninitialized_iff (input output : FrameQueue) (acts : List TransportAct) :
    let x := (TransportRun.start (.new input output)).after acts
    let t := x.transport
    (t.state = .uninitialized ↔
      x.inits = 0 ∧ ∀ f ∈ x.taken, Command.decode f ≠ .ok (some .stop)) ∧
    (t.state = .uninitialized → ∃ t', t.init = .ok t' ∧ t'.Ready) ∧
    (t.state = .idle → ∃ e, t.init = .error e) ∧
    ∀ f, Command.decode f = .ok (some .stop) →
      let handled := (t.receive f).stats.handled = t.stats.handled + 1
      (handled ↔ t.state ≠ .idle) ∧
      (t.state ≠ .uninitialized → (handled ↔ t.state = .running)) ∧
      (¬handled → t.receive f = t.hear.countRejected) := by
  intro x t
  have hstart : (TransportRun.start (.new input output)).Waits :=
    ⟨fun _ => ⟨rfl, nofun⟩, fun _ => rfl⟩
  refine ⟨TransportRun.waits_after acts hstart, fun hnew => ?_, t.exists_init_error, fun f hf => ?_⟩
  · obtain ⟨t', hinit⟩ := t.exists_init (by rw [hnew]; decide)
    exact ⟨t', hinit, Transport.ready_of_init hinit⟩
  · intro handled
    obtain ⟨hhandled, hrefused⟩ := t.handled_stop_iff hf
    refine ⟨hhandled, fun hleft => hhandled.trans ?_, fun hnot => hrefused ?_⟩
    · cases hs : t.state with
      | uninitialized => exact absurd hs hleft
      | idle => decide
      | running => decide
    · by_contra hne
      exact hnot (hhandled.mpr hne)

/-- A stop before `init` does what `init` is for, so that `init` fails. -/
theorem stop_leaves_uninitialized :
    let x := (TransportRun.start (.new (.new 4) (.new 4))).after
      [.submit Command.stop.toFrame, .handle]
    x.inits = 0 ∧ x.transport.state = .idle ∧ x.transport.stats.handled = 1 ∧
      ∃ e, x.transport.init = .error e := by
  intro x
  have hidle : x.transport.state = .idle := by decide +kernel
  exact ⟨by decide +kernel, hidle, by decide +kernel, x.transport.exists_init_error hidle⟩

end RigBench
