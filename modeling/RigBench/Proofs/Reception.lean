import RigBench.Proofs.History
import RigBench.Proofs.SingleValue

/-!
What taking in a frame can do to a transport, said once: the effect of every kind of frame together
with what the history notes about it. The rest of the theory looks at frames through these cases.
-/
namespace RigBench

/-- A window in order that ends within the range of a signed 16-bit time, with finite values. -/
structure Ramp.WellFormed (ramp : Ramp Binary64) : Prop where
  ordered : ramp.startTime ≤ ramp.endTime
  bounded : ramp.endTime ≤ 32767
  startFinite : ramp.startValue.isFinite = true
  endFinite : ramp.endValue.isFinite = true

theorem Ramp.wellFormed_zero : zero.WellFormed := ⟨by decide, by decide, by decide, by decide⟩

namespace TrajectoryParams

/-- The ramp has the times and values that a client named. The client wrote the end value in single
precision, the ramp has it in double precision. -/
structure Describes (params : TrajectoryParams) (ramp : Ramp Binary64) : Prop where
  startTime : (ramp.startTime.toNat : Int) = params.startTime.toInt
  endTime : (ramp.endTime.toNat : Int) = params.endTime.toInt
  startValue : ramp.startValue = params.startValue
  endValue : params.endValue.SameNumber ramp.endValue

theorem timeOf_eq_ok_iff {millis : Int16} {time : UInt64} :
    timeOf millis = .ok time ↔ (time.toNat : Int) = millis.toInt := by
  have hlt := millis.toInt_lt
  have hsign : millis < 0 ↔ millis.toInt < 0 := Int16.lt_iff_toInt_lt
  unfold timeOf
  split
  · next hnegative =>
    have := hsign.mp hnegative
    exact ⟨nofun, fun heq => by omega⟩
  · next hpositive =>
    have := mt hsign.mpr hpositive
    rw [Except.ok.injEq, ← UInt64.toNat_inj, UInt64.toNat_ofNat']
    omega

/-- A client's ramp is accepted exactly if it is well formed, and then as the client named it. -/
theorem toRamp_eq_ok_iff {params : TrajectoryParams} {ramp : Ramp Binary64} :
    params.toRamp = .ok ramp ↔ params.Describes ramp ∧ ramp.WellFormed := by
  have hmade : params.toRamp = .ok ramp ↔ ∃ startTime endTime,
      timeOf params.startTime = .ok startTime ∧ timeOf params.endTime = .ok endTime ∧
        Ramp.make startTime endTime params.startValue params.endValue.widen = .ok ramp := by
    unfold toRamp
    cases timeOf params.startTime with
    | error e => exact ⟨nofun, nofun⟩
    | ok startTime =>
      cases timeOf params.endTime with
      | error e => exact ⟨nofun, nofun⟩
      | ok endTime => simp [bind, Except.bind]
  simp only [hmade, timeOf_eq_ok_iff, Ramp.make_eq_ok_iff]
  constructor
  · rintro ⟨startTime, endTime, hstart, hend, rfl, hordered, hstartFinite, hendFinite⟩
    have hlt := params.endTime.toInt_lt
    have hbounded : endTime ≤ 32767 := by
      rw [UInt64.le_iff_toNat_le, show (32767 : UInt64).toNat = 32767 from rfl]
      omega
    exact ⟨⟨hstart, hend, rfl, Binary32.sameNumber_iff.mpr ⟨rfl, hendFinite⟩⟩, hordered, hbounded,
      hstartFinite, hendFinite⟩
  · rintro ⟨hd, hw⟩
    have hend := (Binary32.sameNumber_iff.mp hd.endValue).1
    refine ⟨ramp.startTime, ramp.endTime, hd.startTime, hd.endTime, ?_, hw.ordered, ?_, ?_⟩
    · rw [← hd.startValue, ← hend]
    · exact hd.startValue ▸ hw.startFinite
    · exact hend ▸ hw.endFinite

end TrajectoryParams

namespace Lifecycle

theorem transition_running (c : Lifecycle) (h : c.state = .idle) :
    c.transition .running = .ok ⟨.running, some .idle, c.transitions + 1⟩ := by
  rw [transition, h]
  rfl

theorem transition_running_of_ne (c : Lifecycle) (h : c.state ≠ .idle) :
    ∃ e, c.transition .running = .error e := by
  unfold transition
  cases hs : c.state with
  | uninitialized => exact ⟨_, rfl⟩
  | idle => exact absurd hs h
  | running => exact ⟨_, rfl⟩

theorem transition_idle (c : Lifecycle) (h : c.state ≠ .idle) :
    c.transition .idle = .ok ⟨.idle, some c.state, c.transitions + 1⟩ := by
  unfold transition
  cases hs : c.state with
  | uninitialized => rfl
  | idle => exact absurd hs h
  | running => rfl

theorem transition_idle_of_eq (c : Lifecycle) (h : c.state = .idle) :
    ∃ e, c.transition .idle = .error e := by
  rw [transition, h]
  exact ⟨_, rfl⟩

end Lifecycle

namespace Transport

/-- A frame that is malformed, not allowed now, or about nothing here. -/
def Refuses (t : Transport) (f : Frame) : Prop :=
  match Command.decode f with
  | .ok (some .start) => t.state ≠ .idle
  | .ok (some .stop) => t.state = .idle
  | .ok (some .keepalive) => False
  | .ok (some (.trajectory params)) => ∃ e, params.toRamp = .error e
  | .ok none => True
  | .error _ => True

/-- The transport at the moment a frame has come. -/
def hear (t : Transport) : Transport := { t with keepaliveTime := t.data.time }

/-- The effects a frame can have, each with what is noted of it. -/
inductive Reception (t : Transport) (f : Frame) : Transport → Event → Prop
  | start (hf : Command.decode f = .ok (some .start)) (hs : t.state = .idle) :
    Reception t f
      { t with
        lifecycle := ⟨.running, some .idle, t.lifecycle.transitions + 1⟩
        data := {}
        keepaliveTime := .zero
        trajectory.output := t.trajectory.ramp.evaluate 0 }.countHandled
      (.accepted .start)
  | stop (hf : Command.decode f = .ok (some .stop)) (hs : t.state ≠ .idle) :
    Reception t f
      { t.hear with
        lifecycle := ⟨.idle, some t.state, t.lifecycle.transitions + 1⟩ }.countHandled
      (.accepted .stop)
  | keepalive (hf : Command.decode f = .ok (some .keepalive)) :
    Reception t f t.hear.countHandled (.accepted .keepalive)
  | trajectory {params : TrajectoryParams} {ramp : Ramp Binary64}
      (hf : Command.decode f = .ok (some (.trajectory params))) (hr : params.toRamp = .ok ramp) :
    Reception t f { t.hear with trajectory.ramp := ramp }.countHandled
      (.accepted (.trajectory params))
  | rejected (hf : t.Refuses f) (hn : Command.decode f ≠ .ok none) :
    Reception t f t.hear.countRejected .refused
  | ignored (hf : Command.decode f = .ok none) : Reception t f t.hear.countIgnored .refused

theorem eventOf_of_counted {t : Transport} {f : Frame} {command : Command}
    (hf : Command.decode f = .ok (some command))
    (hc : (t.receive f).stats.handled = t.stats.handled + 1) :
    t.eventOf f = .accepted command := by
  unfold eventOf
  rw [hf]
  exact if_pos hc

theorem eventOf_of_not_counted {t : Transport} {f : Frame}
    (hc : (t.receive f).stats.handled = t.stats.handled) : t.eventOf f = .refused := by
  unfold eventOf
  split
  · exact if_neg (by omega)
  · rfl

theorem reception_start {t : Transport} {f : Frame} (hf : Command.decode f = .ok (some .start)) :
    Reception t f (t.receive f) (t.eventOf f) := by
  have hreceive : t.receive f = t.hear.startExperiment := by
    unfold receive dispatch
    rw [hf]
    rfl
  by_cases hs : t.state = .idle
  · have hstart : t.receive f =
        { t with
          lifecycle := ⟨.running, some .idle, t.lifecycle.transitions + 1⟩
          data := {}
          keepaliveTime := .zero
          trajectory.output := t.trajectory.ramp.evaluate 0 }.countHandled := by
      rw [hreceive, startExperiment, show t.hear.lifecycle.transition .running = _ from
        t.lifecycle.transition_running hs]
      rfl
    rw [eventOf_of_counted hf (by rw [hstart]; rfl), hstart]
    exact .start hf hs
  · obtain ⟨e, he⟩ := t.lifecycle.transition_running_of_ne hs
    have hrefuse : t.receive f = t.hear.countRejected := by
      rw [hreceive, startExperiment, show t.hear.lifecycle.transition .running = _ from he]
    rw [eventOf_of_not_counted (by rw [hrefuse]; rfl), hrefuse]
    exact .rejected (by simpa [Refuses, hf] using hs) (by simp [hf])

theorem reception_stop {t : Transport} {f : Frame} (hf : Command.decode f = .ok (some .stop)) :
    Reception t f (t.receive f) (t.eventOf f) := by
  have hreceive : t.receive f = t.hear.stopExperiment := by
    unfold receive dispatch
    rw [hf]
    rfl
  by_cases hs : t.state = .idle
  · obtain ⟨e, he⟩ := t.lifecycle.transition_idle_of_eq hs
    have hrefuse : t.receive f = t.hear.countRejected := by
      rw [hreceive, stopExperiment, show t.hear.lifecycle.transition .idle = _ from he]
    rw [eventOf_of_not_counted (by rw [hrefuse]; rfl), hrefuse]
    exact .rejected (by simpa [Refuses, hf] using hs) (by simp [hf])
  · have hstop : t.receive f =
        { t.hear with
          lifecycle := ⟨.idle, some t.state, t.lifecycle.transitions + 1⟩ }.countHandled := by
      rw [hreceive, stopExperiment, show t.hear.lifecycle.transition .idle = _ from
        t.lifecycle.transition_idle hs]
      rfl
    rw [eventOf_of_counted hf (by rw [hstop]; rfl), hstop]
    exact .stop hf hs

theorem reception_trajectory {t : Transport} {f : Frame} {params : TrajectoryParams}
    (hf : Command.decode f = .ok (some (.trajectory params))) :
    Reception t f (t.receive f) (t.eventOf f) := by
  have hreceive : t.receive f = t.hear.dispatch f := rfl
  cases hr : params.toRamp with
  | ok ramp =>
    have hset : t.receive f = { t.hear with trajectory.ramp := ramp }.countHandled := by
      rw [hreceive, dispatch, hf]
      simp only [hr]
    rw [eventOf_of_counted hf (by rw [hset]; rfl), hset]
    exact .trajectory hf hr
  | error e =>
    have hrefuse : t.receive f = t.hear.countRejected := by
      rw [hreceive, dispatch, hf]
      simp only [hr]
    rw [eventOf_of_not_counted (by rw [hrefuse]; rfl), hrefuse]
    exact .rejected (by simp [Refuses, hf, hr]) (by simp [hf])

theorem reception_receive (t : Transport) (f : Frame) :
    Reception t f (t.receive f) (t.eventOf f) := by
  have hreceive : t.receive f = t.hear.dispatch f := rfl
  cases hf : Command.decode f with
  | error e =>
    have hrefuse : t.receive f = t.hear.countRejected := by
      rw [hreceive, dispatch, hf]
    rw [eventOf_of_not_counted (by rw [hrefuse]; rfl), hrefuse]
    exact .rejected (by simp [Refuses, hf]) (by simp [hf])
  | ok command =>
    match command with
    | some .start => exact reception_start hf
    | some .stop => exact reception_stop hf
    | some .keepalive =>
      have hkeep : t.receive f = t.hear.countHandled := by
        rw [hreceive, dispatch, hf]
      rw [eventOf_of_counted hf (by rw [hkeep]; rfl), hkeep]
      exact .keepalive hf
    | some (.trajectory params) => exact reception_trajectory hf
    | none =>
      have hignore : t.receive f = t.hear.countIgnored := by
        rw [hreceive, dispatch, hf]
      rw [eventOf_of_not_counted (by rw [hignore]; rfl), hignore]
      exact .ignored hf

theorem receive_output (t : Transport) (f : Frame) :
    (t.receive f).output = t.output ∧ (t.receive f).stats.sent = t.stats.sent := by
  have hr := t.reception_receive f
  generalize t.receive f = t' at hr ⊢
  generalize t.eventOf f = e at hr
  cases hr <;> exact ⟨rfl, rfl⟩

/-- What every frame keeps, all frames keep. -/
theorem note_induction {P : Transport → History → Prop}
    (hreceive : ∀ t h f, P t h → P (t.receive f) (t.eventOf f :: h)) (fs : List Frame) :
    ∀ t h, P t h → P (fs.foldl receive t) (t.note fs h) := by
  induction fs with
  | nil => exact fun _ _ h => h
  | cons f fs ih => exact fun t h hp => ih _ _ (hreceive t h f hp)

theorem handleFrames_output (t : Transport) :
    t.handleFrames.2.output = t.output ∧ t.handleFrames.2.stats.sent = t.stats.sent := by
  let Same := fun (t' : Transport) (_ : History) =>
    t'.output = t.output ∧ t'.stats.sent = t.stats.sent
  have hsame : ∀ t' h f, Same t' h → Same (t'.receive f) (t'.eventOf f :: h) := by
    intro t' h f hsame
    have hreceive := t'.receive_output f
    exact ⟨hreceive.1.trans hsame.1, hreceive.2.trans hsame.2⟩
  exact note_induction hsame t.input.drain.1 { t with input := t.input.drain.2 } [] ⟨rfl, rfl⟩

theorem state_reset {t : Transport} (hrun : t.isRunning = true) :
    t.reset.state = .idle := by
  have hstate : t.lifecycle.state = .running := beq_iff_eq.mp hrun
  have hstop := t.lifecycle.transition_idle (by rw [hstate]; decide)
  unfold reset
  simp only [hrun, hstop]
  rfl

theorem isRunning_reset (t : Transport) : t.reset.isRunning = false := by
  by_cases hrun : t.isRunning = true
  · rw [isRunning, state_reset hrun]
    rfl
  · rw [Bool.not_eq_true] at hrun
    unfold reset
    simp only [hrun, Bool.false_eq_true, ↓reduceIte]
    exact hrun

end Transport
end RigBench
