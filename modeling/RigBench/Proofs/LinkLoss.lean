import RigBench.Proofs.ExperimentClock

/-!
Experiments whose client has left. A tick looks at the link as it is at that moment: a disconnect is
seen by the next tick, unless the link is up again by then.
-/
namespace RigBench

def Orphaned (t : Transport) (h : History) : Prop := t.isRunning = true ∧ h.clientLeft = true

theorem Orphaned.of_receive {t : Transport} {f : Frame} {h : History}
    (ho : Orphaned (t.receive f) (t.eventOf f :: h)) : Orphaned t h := by
  have hr := t.reception_receive f
  generalize t.receive f = t' at hr ho
  generalize t.eventOf f = e at hr ho
  obtain ⟨hrun, hleft⟩ := ho
  cases hr with
  | start hf hs => cases hleft
  | stop hf hs => cases hrun
  | keepalive hf => exact ⟨hrun, hleft⟩
  | trajectory hf hr => exact ⟨hrun, hleft⟩
  | rejected hf hn => exact ⟨hrun, hleft⟩
  | ignored hf => exact ⟨hrun, hleft⟩

theorem Orphaned.frameInvariant (Q : Prop) : FrameInvariant fun t h => Orphaned t h → Q where
  input hp _ := hp
  receive hp _ ho := hp ho.of_receive

theorem Orphaned.not_reset (t : Transport) (h : History) : ¬Orphaned t.reset h := by
  intro ho
  have hrun := ho.1
  rw [t.isRunning_reset] at hrun
  cases hrun

/-- Whether a disconnect is still to be seen by a tick. -/
def unseenAfter (unseen : Bool) : Act → Bool
  | .tick => false
  | .client .disconnect => true
  | _ => unseen

/-- A connect comes after a disconnect with no tick between. -/
def reconnectsUnseen (unseen : Bool) : List Act → Bool
  | [] => false
  | a :: acts =>
    (unseen && a == .client .connect) || reconnectsUnseen (unseenAfter unseen a) acts

namespace Run

variable {ρ : Type}

theorem lostLink_eq {r : Run ρ} (hwatch : r.loop.watchesLink = true)
    (hstop : r.loop.settings.stopOnDisconnect = true) (hrun : r.atTick.isRunning = true) :
    r.loop.lostLink r.bench.link r.atTick = !r.bench.link.connected := by
  unfold ControlLoop.lostLink
  rw [hwatch, hstop, hrun]
  rfl

/-- If the experiment is orphaned, the link is down and no tick has looked since. -/
def Notices (r : Run ρ) (unseen : Bool) : Prop :=
  Orphaned r.bench.transport r.history → r.bench.link.connected = false ∧ unseen = true

theorem Notices.atTick {r : Run ρ} {unseen : Bool} (hr : r.Notices unseen)
    (ho : Orphaned r.atTick r.historyAtTick) : r.bench.link.connected = false :=
  ((Orphaned.frameInvariant _).intake r.loop hr ho).1

variable [Rig ρ]

def QueuesSample (r : Run ρ) : Prop := ∃ f, (r.step .tick).history = .sample f :: r.historyAtTick

def LosesLink (r : Run ρ) : Prop :=
  (r.bench.tick r.loop).1 = (Rig.safeState r.loop.rig).1.map (fun _ => .linkLost) ∧
    (r.step .tick).bench.transport = r.atTick.reset ∧
    (r.step .tick).history = r.historyAtTick

theorem queuesSample_iff (r : Run ρ) :
    r.QueuesSample ↔ r.atTick.isRunning = true ∧ r.loop.lostLink r.bench.link r.atTick = false ∧
      (r.loop.sample r.atTick).1 = .ok () := by
  unfold QueuesSample
  obtain ⟨outcome, loop, transport, history, hway, -, hstep⟩ := r.step_tick
  rw [hstep]
  cases hway with
  | linkLost hlost => simp [hlost]
  | idle hidle => simp [hidle]
  | failed hlink hrun hsample => simp [hsample]
  | sampled hs hwindow => simp [hs.running, hs.linked, hs.sample]
  | expired hs hwindow => simp [hs.running, hs.linked, hs.sample]

theorem losesLink_of_lostLink {r : Run ρ} (hlost : r.loop.lostLink r.bench.link r.atTick = true) :
    r.LosesLink := by
  unfold LosesLink
  obtain ⟨outcome, loop, transport, history, hway, htick, hstep⟩ := r.step_tick
  rw [htick, hstep]
  have hrun : r.atTick.isRunning = true := by
    simp only [ControlLoop.lostLink, Bool.and_eq_true] at hlost
    exact hlost.1.1.2
  cases hway with
  | linkLost _ => exact ⟨rfl, rfl, rfl⟩
  | idle hidle => rw [hrun] at hidle; cases hidle
  | failed hlink _ _ => rw [hlost] at hlink; cases hlink
  | sampled hs _ => exact absurd (hlost.symm.trans hs.linked) (by decide)
  | expired hs _ => exact absurd (hlost.symm.trans hs.linked) (by decide)

theorem Notices.step {r : Run ρ} {unseen : Bool} (hwatch : r.loop.watchesLink = true)
    (hstop : r.loop.settings.stopOnDisconnect = true) (hr : r.Notices unseen) {a : Act}
    (ha : (unseen && a == .client .connect) = false) :
    (r.step a).Notices (unseenAfter unseen a) := by
  cases a with
  | tick =>
    -- the tick sees an orphan there is, so that there is none when it is over
    intro ho
    exfalso
    have hbefore : Orphaned r.atTick r.historyAtTick := by
      obtain ⟨outcome, loop, transport, history, hway, -, hstep⟩ := r.step_tick
      rw [hstep] at ho
      cases hway with
      | linkLost _ => exact absurd ho (Orphaned.not_reset _ _)
      | idle _ => exact ho
      | failed _ _ _ => exact ho
      | sampled hs _ => exact ⟨hs.running, ho.2⟩
      | expired _ _ => exact absurd ho (Orphaned.not_reset _ _)
    have hlost := lostLink_eq hwatch hstop hbefore.1
    rw [hr.atTick hbefore] at hlost
    have hreset := (losesLink_of_lostLink hlost).2.1
    rw [hreset] at ho
    exact absurd ho (Orphaned.not_reset _ _)
  | service =>
    intro ho
    exact (Orphaned.frameInvariant _).service hr ho
  | client act =>
    cases act with
    | submit f => exact hr
    | collect => exact hr
    | disconnect => exact fun _ => ⟨rfl, rfl⟩
    | connect =>
      intro ho
      obtain ⟨-, rfl⟩ := hr ho
      cases ha

theorem Notices.after {r : Run ρ} {unseen : Bool} {acts : List Act}
    (hwatch : r.loop.watchesLink = true) (hstop : r.loop.settings.stopOnDisconnect = true)
    (hr : r.Notices unseen) (hacts : reconnectsUnseen unseen acts = false) :
    ∃ unseen', (r.after acts).Notices unseen' := by
  induction acts generalizing r unseen with
  | nil => exact ⟨unseen, hr⟩
  | cons a acts ih =>
    obtain ⟨ha, hacts⟩ := Bool.or_eq_false_iff.mp hacts
    obtain ⟨hsettings, hwatches⟩ := r.loop_step a
    exact ih (hwatches.trans hwatch) (hsettings ▸ hstop) (hr.step hwatch hstop ha) hacts

end Run

/-- When an experiment outlives its client, for every rig and every run of a loop that watches the
link and stops on a disconnect. A tick queues a sample although the client has left since the start
exactly if the experiment is still running, the link is up again and the rig does not fail. Where a
tick stands between every disconnect and the next connect this never happens, and the next tick ends
an experiment its client has left. -/
theorem tick_outlives_client_iff {ρ : Type} [Rig ρ] {c : ControlLoop ρ}
    (hwatch : c.watchesLink = true) (hstop : c.settings.stopOnDisconnect = true) (b : Bench)
    (acts : List Act) :
    let r := (Run.start c b).after acts
    let left := r.historyAtTick.clientLeft
    (r.QueuesSample ∧ left = true ↔
      r.atTick.isRunning = true ∧ left = true ∧ r.bench.link.connected = true ∧
        (r.loop.sample r.atTick).1 = .ok ()) ∧
    (r.atTick.isRunning = true → r.bench.link.connected = false → r.LosesLink) ∧
    (reconnectsUnseen false acts = false →
      (r.QueuesSample → left = false) ∧
      (r.atTick.isRunning = true → left = true → r.LosesLink)) := by
  intro r left
  obtain ⟨hsettings, hwatches⟩ := (Run.start c b).loop_after acts
  have hwatch' : r.loop.watchesLink = true := hwatches.trans hwatch
  have hstop' : r.loop.settings.stopOnDisconnect = true := hsettings ▸ hstop
  have hqueues := r.queuesSample_iff
  have hloses : r.atTick.isRunning = true → r.bench.link.connected = false → r.LosesLink := by
    intro hrun hdown
    apply Run.losesLink_of_lostLink
    rw [Run.lostLink_eq hwatch' hstop' hrun, hdown]
    rfl
  refine ⟨?_, hloses, fun hacts => ?_⟩
  · constructor
    · rintro ⟨hsample, hleft⟩
      obtain ⟨hrun, hlink, hok⟩ := hqueues.mp hsample
      rw [Run.lostLink_eq hwatch' hstop' hrun, Bool.not_eq_false'] at hlink
      exact ⟨hrun, hleft, hlink, hok⟩
    · rintro ⟨hrun, hleft, hup, hok⟩
      refine ⟨hqueues.mpr ⟨hrun, ?_, hok⟩, hleft⟩
      rw [Run.lostLink_eq hwatch' hstop' hrun, hup]
      rfl
  · -- no experiment is orphaned before anything happened
    have hstart : (Run.start c b).Notices false := fun ho => (by cases ho.2)
    obtain ⟨unseen, hnotices⟩ := hstart.after hwatch hstop hacts
    have hdown : r.atTick.isRunning = true → left = true → r.bench.link.connected = false :=
      fun hrun hleft => hnotices.atTick ⟨hrun, hleft⟩
    refine ⟨fun hsample => ?_, fun hrun hleft => hloses hrun (hdown hrun hleft)⟩
    obtain ⟨hrun, hlink, -⟩ := hqueues.mp hsample
    by_contra hleft
    rw [Bool.not_eq_false] at hleft
    rw [Run.lostLink_eq hwatch' hstop' hrun, hdown hrun hleft] at hlink
    cases hlink

/-- A tick after the disconnect ends the experiment. -/
theorem tick_outlives_client_iff_seen :
    let c : ControlLoop NullRig :=
      { rig := {}, settings := ⟨.ofMillis 100, .zero, true, true⟩, watchesLink := true }
    let b := (Bench.new 4 4).init.2
    let acts : List Act :=
      [.client .connect, .client (.submit Command.start.toFrame), .tick, .client .disconnect]
    let r := (Run.start c b).after acts
    c.watchesLink = true ∧ c.settings.stopOnDisconnect = true ∧
      reconnectsUnseen false acts = false ∧ r.atTick.isRunning = true ∧
      r.historyAtTick.clientLeft = true ∧ r.LosesLink := by
  intro c b acts r
  have hseen : reconnectsUnseen false acts = false := by decide +kernel
  have hrun : r.atTick.isRunning = true := by decide +kernel
  have hleft : r.historyAtTick.clientLeft = true := by decide +kernel
  have hloses := ((tick_outlives_client_iff (c := c) rfl rfl b acts).2.2 hseen).2 hrun hleft
  exact ⟨rfl, rfl, hseen, hrun, hleft, hloses⟩

/-- A client that comes back before the next tick finds the experiment of before still running. -/
theorem sampled_after_reconnect :
    let c : ControlLoop NullRig :=
      { rig := {}, settings := ⟨.ofMillis 100, .zero, true, true⟩, watchesLink := true }
    let b := (Bench.new 4 4).init.2
    let r := (Run.start c b).after
      [.client .connect, .client (.submit Command.start.toFrame), .tick, .client .disconnect,
        .client .connect]
    c.Initialised b.transport ∧ c.watchesLink = true ∧ c.settings.stopOnDisconnect = true ∧
      (r.bench.tick r.loop).1 = .ok .sampled ∧ r.QueuesSample ∧
      r.historyAtTick.clientLeft = true := by
  intro c b r
  have hinit : c.Initialised b.transport := ⟨c, (Bench.new 4 4).transport, rfl, .inl rfl⟩
  have hsampled : (r.bench.tick r.loop).1 = .ok .sampled := by decide +kernel
  have hleft : r.historyAtTick.clientLeft = true := by decide +kernel
  have hqueues : r.QueuesSample := by
    rw [Run.queuesSample_iff]
    decide +kernel
  exact ⟨hinit, rfl, rfl, hsampled, hqueues, hleft⟩

end RigBench
