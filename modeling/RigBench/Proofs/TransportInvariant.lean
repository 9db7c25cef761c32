import RigBench.Proofs.Run

/-!
What every transport keeps, whatever is done to it: by a control loop, by the link task, by those
who share its queues, in any order and whether it has been made ready or not.
-/
namespace RigBench

namespace History

def lastTrajectory : History → Option TrajectoryParams
  | [] => none
  | .accepted (.trajectory params) :: _ => some params
  | _ :: h => lastTrajectory h

/-- Of starts and stops, a stop was accepted last. -/
def stopped : History → Bool
  | [] => false
  | .accepted .stop :: _ => true
  | .accepted .start :: _ => false
  | _ :: h => stopped h

theorem stopped_append {news h : History} (hnone : .accepted .start ∉ news)
    (hstopped : h.stopped = true) : (news ++ h).stopped = true := by
  induction news with
  | nil => exact hstopped
  | cons e news ih =>
    rw [List.mem_cons, not_or] at hnone
    have hrest := ih hnone.2
    rw [List.cons_append]
    unfold stopped
    split
    · next heq => cases heq
    · rfl
    · next heq => exact absurd (List.cons.inj heq).1.symm hnone.1
    · next heq =>
      obtain ⟨-, rfl⟩ := List.cons.inj heq
      exact hrest

end History

namespace Transport

theorem note_append (fs : List Frame) : ∀ (t : Transport) (h : History),
    t.note fs h = t.note fs [] ++ h := by
  induction fs with
  | nil => exact fun _ _ => rfl
  | cons f fs ih =>
    intro t h
    rw [note, note, ih, ih _ [_], List.append_assoc]
    rfl

theorem noteFrames_append (t : Transport) (h : History) :
    t.noteFrames h = t.noteFrames [] ++ h := note_append _ _ h

theorem noteRun_append (t : Transport) (h : History) : t.noteRun h = t.noteRun [] ++ h := by
  unfold noteRun
  split
  · rfl
  · exact t.noteFrames_append h

end Transport

namespace ControlLoop

variable {ρ : Type}

theorem noteIntake_append (c : ControlLoop ρ) (t : Transport) (h : History) :
    c.noteIntake t h = c.noteIntake t [] ++ h := by
  unfold noteIntake
  split
  · exact t.noteFrames_append h
  · rfl

variable [Rig ρ]

theorem noteSample_append (c : ControlLoop ρ) (t : Transport) (h h' : History) :
    c.noteSample t (h ++ h') = c.noteSample t h ++ h' := by
  unfold noteSample
  split
  · exact (List.append_assoc _ _ _).symm
  · rfl

theorem noteTick_append (c : ControlLoop ρ) (link : LinkState) (t : Transport) (h : History) :
    c.noteTick link t h = c.noteTick link t [] ++ h := by
  unfold noteTick
  dsimp only
  rw [noteIntake_append]
  split
  · rfl
  · split
    · exact c.noteSample_append _ _ h
    · rfl

theorem noteIntake_isSuffix (c : ControlLoop ρ) (link : LinkState) (t : Transport) :
    c.noteIntake t [] <:+ c.noteTick link t [] := by
  unfold noteTick noteSample
  dsimp only
  split
  · exact List.suffix_refl _
  · split
    · split
      · exact List.suffix_append _ _
      · exact List.suffix_refl _
    · exact List.suffix_refl _

theorem tick_of_not_running {c : ControlLoop ρ} {t : Transport}
    (hidle : (c.intake t).isRunning = false) (link : LinkState) :
    (c.tick link t).2.2 = c.intake t ∧ c.noteTick link t [] = c.noteIntake t [] := by
  have hlink : c.lostLink link (c.intake t) = false := by
    unfold lostLink
    rw [hidle, Bool.and_false, Bool.false_and, Bool.false_and]
  rw [tick_eq]
  unfold noteTick
  simp only [hlink, hidle, Bool.false_eq_true, ↓reduceIte, and_self]

end ControlLoop

/-- A fact about a transport and its history that frames and ticks keep, with every rig. -/
structure TickInvariant (P : Transport → History → Prop) : Prop extends FrameInvariant P where
  measured {t : Transport} {h : History} : P t h → t.isRunning = true → ∀ step value,
    P (t.measured step value) h
  sendData {t : Transport} {h : History} : P t h → P t.sendData (.sample t.sample.toFrame :: h)
  reset {t : Transport} {h : History} : P t h → P t.reset h

theorem TickInvariant.tick {P : Transport → History → Prop} (hP : TickInvariant P) {ρ : Type}
    [Rig ρ] (c : ControlLoop ρ) (link : LinkState) {t : Transport} {h : History} (ht : P t h) :
    P (c.tick link t).2.2 (c.noteTick link t h) := by
  have hintake := hP.intake c ht
  have hway := c.tickWay_tick link t h
  generalize c.intake t = t' at hintake hway
  generalize c.noteIntake t h = h' at hintake hway
  generalize c.tick link t = call at hway ⊢
  generalize c.noteTick link t h = h'' at hway ⊢
  obtain ⟨outcome, loop, transport⟩ := call
  dsimp only at hway ⊢
  cases hway with
  | linkLost hlost => exact hP.reset hintake
  | idle hidle => exact hintake
  -- the time has gone on when the rig fails, and the value measured before stands
  | failed hlink hrun hsample => exact hP.measured hintake hrun _ t'.data.measurement
  | sampled hs hwindow => exact hP.sendData (hP.measured hintake hs.running _ _)
  | expired hs hwindow => exact hP.reset (hP.sendData (hP.measured hintake hs.running _ _))

/-- The ramp of these parameters; without any, the zero ramp. -/
def Ramp.IsOf (ramp : Ramp Binary64) : Option TrajectoryParams → Prop
  | none => ramp = .zero
  | some params => params.Describes ramp

theorem ExperimentTime.le_advance (t : ExperimentTime) (step : Duration) :
    t.millis ≤ (t.advance step).millis := by
  have hlast := t.millis.toNat_lt
  rw [UInt64.le_iff_toNat_le, toNat_advance, last]
  omega

namespace Transport

theorem of_init {t t' : Transport} (h : t.init = .ok t') :
    t.state ≠ .idle ∧ ∃ lifecycle, t' =
      { t with lifecycle, data := {}, trajectory := {}, keepaliveTime := .zero } := by
  unfold init at h
  cases hmake : t.lifecycle.transition .idle with
  | error e =>
    rw [hmake] at h
    cases h
  | ok lifecycle =>
    rw [hmake] at h
    cases h
    refine ⟨fun hidle => ?_, lifecycle, rfl⟩
    obtain ⟨e, he⟩ := t.lifecycle.transition_idle_of_eq hidle
    cases hmake.symm.trans he

theorem state_reset_of_idle {t : Transport} (hidle : t.state = .idle) : t.reset.state = .idle := by
  have hrun : t.isRunning = false := by
    rw [isRunning, hidle]
    rfl
  unfold reset
  simp only [hrun, Bool.false_eq_true, ↓reduceIte]
  exact hidle

/-- What holds of a transport and all that happened since it was made ready. -/
structure Coherent (t : Transport) (h : History) : Prop where
  keepalive : t.keepaliveTime.millis ≤ t.data.time.millis
  ramp : t.trajectory.ramp.IsOf h.lastTrajectory
  wellFormed : t.trajectory.ramp.WellFormed
  idle : h.stopped = true → t.state = .idle

theorem data_invariant {data : BenchData} :
    FrameInvariant fun t news => .accepted .start ∉ news → t.data = data where
  input h _ := h
  receive := by
    intro t news h f hnone
    have hr := t.reception_receive f
    generalize t.receive f = t' at hr ⊢
    generalize t.eventOf f = e at hr hnone
    rw [List.mem_cons, not_or] at hnone
    cases hr with
    | start hf hs => exact absurd rfl hnone.1
    | stop hf hs => exact h hnone.2
    | keepalive hf => exact h hnone.2
    | trajectory hf hr => exact h hnone.2
    | rejected hf hn => exact h hnone.2
    | ignored hf => exact h hnone.2

namespace Coherent

variable {t : Transport} {h : History}

theorem fresh {t' : Transport} (hinit : t.init = .ok t') : t'.Coherent [] := by
  obtain ⟨-, lifecycle, rfl⟩ := of_init hinit
  exact ⟨UInt64.le_refl 0, rfl, Ramp.wellFormed_zero, nofun⟩

theorem reset (hc : t.Coherent h) : t.reset.Coherent h where
  keepalive := UInt64.le_refl 0
  ramp := hc.ramp
  wellFormed := hc.wellFormed
  idle hstopped := state_reset_of_idle (hc.idle hstopped)

theorem sendData (hc : t.Coherent h) : t.sendData.Coherent h := { hc with }

theorem not_stopped (hc : t.Coherent h) (hrun : t.isRunning = true) : h.stopped ≠ true := by
  intro hstopped
  rw [isRunning, hc.idle hstopped] at hrun
  cases hrun

theorem measured (hc : t.Coherent h) (hrun : t.isRunning = true) (step : Duration)
    (value : Binary64) : (t.measured step value).Coherent h where
  keepalive := UInt64.le_trans hc.keepalive (t.data.time.le_advance step)
  ramp := hc.ramp
  wellFormed := hc.wellFormed
  idle hstopped := absurd hstopped (hc.not_stopped hrun)

theorem tickInvariant : TickInvariant Coherent where
  input hc _ := { hc with }
  receive := by
    intro t h hc f
    have hr := t.reception_receive f
    generalize t.receive f = t' at hr ⊢
    generalize t.eventOf f = e at hr ⊢
    cases hr with
    | start hf hs => exact { hc with keepalive := UInt64.le_refl 0, idle := nofun }
    | stop hf hs => exact { hc with keepalive := UInt64.le_refl _, idle := fun _ => rfl }
    | keepalive hf => exact { hc with keepalive := UInt64.le_refl _ }
    | trajectory hf hr =>
      obtain ⟨hdescribes, hwellFormed⟩ := TrajectoryParams.toRamp_eq_ok_iff.mp hr
      exact ⟨UInt64.le_refl _, hdescribes, hwellFormed, hc.idle⟩
    | rejected hf hn => exact { hc with keepalive := UInt64.le_refl _ }
    | ignored hf => exact { hc with keepalive := UInt64.le_refl _ }
  measured := measured
  sendData hc := { hc with }
  reset := reset

end Coherent

/-- From one transport to the next, these frames are put into the output queue, others are only
taken out of it. -/
structure Sends (t t' : Transport) (frames : List Frame) : Prop where
  samples : ∀ f ∈ frames, ∃ sample : BenchSample, f = sample.toFrame
  sent : t'.stats.sent = t.stats.sent + frames.length
  output : t'.output.frames <:+ t.output.frames ++ frames

namespace Sends

variable {t t' t'' : Transport}

theorem nothing (hsent : t'.stats.sent = t.stats.sent)
    (houtput : t'.output.frames <:+ t.output.frames) : t.Sends t' [] where
  samples := nofun
  sent := hsent
  output := by rwa [List.append_nil]

theorem of_same (h : t'.output = t.output ∧ t'.stats.sent = t.stats.sent) : t.Sends t' [] :=
  nothing h.2 ⟨[], congrArg FrameQueue.frames h.1⟩

theorem sendData (t : Transport) : t.Sends t.sendData [t.sample.toFrame] where
  samples f hf := ⟨t.sample, List.mem_singleton.mp hf⟩
  sent := rfl
  output := by
    change (t.output.push t.sample.toFrame).frames <:+ _
    rw [FrameQueue.frames_push]
    split
    · exact ⟨t.output.frames.take 1, by rw [← List.append_assoc, List.take_append_drop]⟩
    · exact List.suffix_refl _

theorem reset (t : Transport) : t.Sends t.reset [] := nothing rfl List.nil_suffix

theorem trans {frames frames' : List Frame} (h : t.Sends t' frames) (h' : t'.Sends t'' frames') :
    t.Sends t'' (frames ++ frames') where
  samples f hf := (List.mem_append.mp hf).elim (h.samples f) (h'.samples f)
  sent := by
    rw [h'.sent, h.sent, List.length_append]
    omega
  output := by
    obtain ⟨gone, houtput⟩ := h.output
    rw [← List.append_assoc, ← houtput, List.append_assoc]
    exact h'.output.trans (List.suffix_append _ _)

theorem tickInvariant (t : Transport) :
    TickInvariant fun t' h => t.Sends t' (h.samples.map Prod.fst) where
  input h _ := { h with }
  receive {t' h} hs f := by
    obtain ⟨houtput, hsent⟩ := t'.receive_output f
    rw [samples_eventOf]
    refine ⟨hs.samples, hsent.trans hs.sent, ?_⟩
    rw [houtput]
    exact hs.output
  measured h _ _ _ := { h with }
  sendData h := by
    rw [History.samples, List.map_append]
    exact h.trans (sendData _)
  reset h := by
    rw [← List.append_nil (List.map _ _)]
    exact h.trans (reset _)

theorem tick {ρ : Type} [Rig ρ] (t : Transport) (c : ControlLoop ρ) (link : LinkState) :
    t.Sends (c.tick link t).2.2 ((History.samples (c.noteTick link t [])).map Prod.fst) :=
  (tickInvariant t).tick c link (of_same ⟨rfl, rfl⟩)

end Sends
end Transport

inductive TransportUse (ρ : Type)
  | init
  | handleFrames
  | run
  | sendData
  | reset
  | tick (loop : ControlLoop ρ) (link : LinkState)
  /-- Others use the queues, which are then these. -/
  | others (input output : FrameQueue)

structure TransportLife where
  transport : Transport
  history : History := []
  queued : List Frame := []

namespace TransportLife

variable {ρ : Type} [Rig ρ]

def start (input output : FrameQueue) : TransportLife := { transport := .new input output }

def step (x : TransportLife) : TransportUse ρ → TransportLife
  | .init =>
    match x.transport.init with
    | .ok transport => { x with transport, history := [] }
    | .error _ => x
  | .handleFrames =>
    { x with
      transport := x.transport.handleFrames.2
      history := x.transport.noteFrames x.history }
  | .run => { x with transport := x.transport.run.2, history := x.transport.noteRun x.history }
  | .sendData =>
    let transport := x.transport.sendData
    { x with transport, queued := x.queued ++ transport.output.frames.getLast?.toList }
  | .reset => { x with transport := x.transport.reset }
  | .tick loop link =>
    { transport := (loop.tick link x.transport).2.2
      history := loop.noteTick link x.transport x.history
      queued := x.queued ++ (History.samples (loop.noteTick link x.transport [])).map Prod.fst }
  | .others input output => { x with transport := { x.transport with input, output } }

def after (x : TransportLife) (acts : List (TransportUse ρ)) : TransportLife := acts.foldl step x

def news (x : TransportLife) (a : TransportUse ρ) : History :=
  (step { x with history := [] } a).history

/-- Acts with which the time of the experiment may change. -/
inductive Moves (x : TransportLife) : TransportUse ρ → Prop
  | tick {loop : ControlLoop ρ} (link : LinkState)
    (hrun : (loop.intake x.transport).isRunning = true) : Moves x (.tick loop link)
  | start {a : TransportUse ρ} (h : .accepted .start ∈ x.news a) : Moves x a
  | reset : Moves x .reset
  | init {t : Transport} (h : x.transport.init = .ok t) : Moves x .init

/-- Neither a reset nor an accepted start is among these acts. -/
def Undisturbed (x : TransportLife) : List (TransportUse ρ) → Prop
  | [] => True
  | a :: acts => a ≠ .reset ∧ .accepted .start ∉ x.news a ∧ (x.step a).Undisturbed acts

theorem after_append_singleton (x : TransportLife) (acts : List (TransportUse ρ))
    (a : TransportUse ρ) : x.after (acts ++ [a]) = (x.after acts).step a := by
  rw [after, List.foldl_append]
  rfl

theorem coherent_step {x : TransportLife} (h : x.transport.Coherent x.history)
    (a : TransportUse ρ) : (x.step a).transport.Coherent (x.step a).history := by
  cases a with
  | init =>
    unfold step
    dsimp only
    split
    · next hinit => exact .fresh hinit
    · exact h
  | handleFrames => exact Transport.Coherent.tickInvariant.frames h
  | run => exact Transport.Coherent.tickInvariant.service h
  | sendData => exact h.sendData
  | reset => exact h.reset
  | tick loop link => exact Transport.Coherent.tickInvariant.tick loop link h
  | others input output => exact { h with }

theorem sends_step (x : TransportLife) {a : TransportUse ρ}
    (ha : ∀ input output, a ≠ .others input output) :
    ∃ frames, (x.step a).queued = x.queued ++ frames ∧
      x.transport.Sends (x.step a).transport frames := by
  cases a with
  | init =>
    unfold step
    dsimp only
    split
    · next t hinit =>
      obtain ⟨-, lifecycle, rfl⟩ := Transport.of_init hinit
      exact ⟨[], (List.append_nil _).symm, .of_same ⟨rfl, rfl⟩⟩
    · exact ⟨[], (List.append_nil _).symm, .of_same ⟨rfl, rfl⟩⟩
  | handleFrames =>
    exact ⟨[], (List.append_nil _).symm, .of_same x.transport.handleFrames_output⟩
  | run =>
    refine ⟨[], (List.append_nil _).symm, .of_same ?_⟩
    change x.transport.run.2.output = _ ∧ x.transport.run.2.stats.sent = _
    unfold Transport.run
    split
    · exact ⟨rfl, rfl⟩
    · exact x.transport.handleFrames_output
  | sendData =>
    refine ⟨[x.transport.sample.toFrame], ?_, .sendData x.transport⟩
    change x.queued ++ (x.transport.output.push x.transport.sample.toFrame).frames.getLast?.toList = _
    rw [FrameQueue.frames_push, List.getLast?_concat]
    rfl
  | reset => exact ⟨[], (List.append_nil _).symm, .reset x.transport⟩
  | tick loop link => exact ⟨_, rfl, .tick x.transport loop link⟩
  | others input output => exact absurd rfl (ha input output)

structure Counted (x : TransportLife) : Prop where
  samples : ∀ f ∈ x.queued, ∃ sample : BenchSample, f = sample.toFrame
  sent : x.queued.length = x.transport.stats.sent

theorem Counted.step {x : TransportLife} (h : x.Counted) (a : TransportUse ρ) :
    (x.step a).Counted := by
  by_cases ha : ∀ input output, a ≠ .others input output
  · obtain ⟨frames, hqueued, hsends⟩ := x.sends_step ha
    refine ⟨fun f hf => ?_, ?_⟩
    · rw [hqueued] at hf
      exact (List.mem_append.mp hf).elim (h.samples f) (hsends.samples f)
    · rw [hqueued, hsends.sent, List.length_append, h.sent]
  · obtain ⟨input, output, rfl⟩ : ∃ input output, a = .others input output := by
      simpa using ha
    exact ⟨h.samples, h.sent⟩

theorem coherent_after (input output : FrameQueue) (acts : List (TransportUse ρ)) :
    ((start input output).after acts).transport.Coherent ((start input output).after acts).history ∧
      ((start input output).after acts).Counted := by
  induction acts using List.reverseRecOn with
  | nil => exact ⟨⟨UInt64.le_refl 0, rfl, Ramp.wellFormed_zero, nofun⟩, nofun, rfl⟩
  | append_singleton acts a ih =>
    rw [after_append_singleton]
    exact ⟨coherent_step ih.1 a, ih.2.step a⟩

theorem data_of_not_moves {x : TransportLife} {a : TransportUse ρ} (h : ¬x.Moves a) :
    (x.step a).transport.data = x.transport.data := by
  have hnone : .accepted .start ∉ x.news a := fun hstart => h (.start hstart)
  cases a with
  | init =>
    unfold step
    dsimp only
    split
    · next hinit => exact absurd (.init hinit) h
    · rfl
  | handleFrames => exact Transport.data_invariant.frames (fun _ => rfl) hnone
  | run => exact Transport.data_invariant.service (fun _ => rfl) hnone
  | sendData => rfl
  | reset => exact absurd .reset h
  | tick loop link =>
    have hidle : (loop.intake x.transport).isRunning = false :=
      (Bool.not_eq_true _).mp fun hrun => h (.tick link hrun)
    obtain ⟨htransport, hnews⟩ := ControlLoop.tick_of_not_running hidle link
    rw [news, step, hnews] at hnone
    rw [step, htransport]
    exact Transport.data_invariant.intake loop (fun _ => rfl) hnone
  | others input output => rfl

theorem history_step {x : TransportLife} (hidle : x.transport.state = .idle) (a : TransportUse ρ) :
    (x.step a).history = x.news a ++ x.history := by
  cases a with
  | init =>
    unfold news step
    dsimp only
    split
    · next hinit => exact absurd hidle (Transport.of_init hinit).1
    · rfl
  | handleFrames => exact x.transport.noteFrames_append x.history
  | run => exact x.transport.noteRun_append x.history
  | sendData => rfl
  | reset => rfl
  | tick loop link => exact loop.noteTick_append link x.transport x.history
  | others input output => rfl

theorem not_moves_of_stopped {x : TransportLife} (h : x.transport.Coherent x.history)
    (hstopped : x.history.stopped = true) {a : TransportUse ρ} (ha : a ≠ .reset)
    (hnone : .accepted .start ∉ x.news a) : ¬x.Moves a := by
  intro hmoves
  cases hmoves with
  | @tick loop link hrun =>
    have hintake := Transport.Coherent.tickInvariant.intake loop h
    have hearly : .accepted .start ∉ loop.noteIntake x.transport [] := by
      intro hstart
      obtain ⟨later, hlater⟩ := loop.noteIntake_isSuffix link x.transport
      refine hnone ?_
      rw [news, step, ← hlater]
      exact List.mem_append_right _ hstart
    refine hintake.not_stopped hrun ?_
    rw [ControlLoop.noteIntake_append]
    exact History.stopped_append hearly hstopped
  | start hstart => exact hnone hstart
  | reset => exact ha rfl
  | init hinit => exact (Transport.of_init hinit).1 (h.idle hstopped)

theorem data_of_undisturbed {acts : List (TransportUse ρ)} {x : TransportLife}
    (h : x.transport.Coherent x.history) (hstopped : x.history.stopped = true)
    (hacts : x.Undisturbed acts) : (x.after acts).transport.data = x.transport.data := by
  induction acts generalizing x with
  | nil => rfl
  | cons a acts ih =>
    obtain ⟨ha, hnone, hacts⟩ := hacts
    have hstill : (x.step a).history.stopped = true := by
      rw [history_step (h.idle hstopped)]
      exact History.stopped_append hnone hstopped
    exact (ih (coherent_step h a) hstill hacts).trans
      (data_of_not_moves (not_moves_of_stopped h hstopped ha hnone))

end TransportLife

/-- What every transport keeps, from its construction on, whatever is done to it in whatever order:
frames, ticks of any control loop with any rig, and any use of its queues by others. The last frame
is not ahead of the clock. The ramp is well formed, and it has the times and values of the one
accepted last since the transport was made ready, or it is the zero ramp. The clock moves with a
tick of a running experiment, with an accepted start, with a reset and with `init` alone, so that
after a stop it stands still. All that the transport puts into its output queue are frames 10 with
36 bytes, and it counts them. -/
theorem transport_invariant {ρ : Type} [Rig ρ] (input output : FrameQueue)
    (acts : List (TransportUse ρ)) :
    let x := (TransportLife.start input output).after acts
    let t := x.transport
    t.keepaliveTime.millis ≤ t.data.time.millis ∧
    t.trajectory.ramp.WellFormed ∧
    t.trajectory.ramp.IsOf x.history.lastTrajectory ∧
    (∀ a : TransportUse ρ, (x.step a).transport.data ≠ t.data → x.Moves a) ∧
    (x.history.stopped = true → ∀ more : List (TransportUse ρ), x.Undisturbed more →
      (x.after more).transport.data = t.data) ∧
    (∀ f ∈ x.queued, f.id = 10 ∧ f.payload.length = 36) ∧
    x.queued.length = t.stats.sent ∧
    ∀ a : TransportUse ρ, (∀ input output, a ≠ .others input output) →
      ∃ frames, (x.step a).queued = x.queued ++ frames ∧
        (x.step a).transport.output.frames <:+ t.output.frames ++ frames := by
  intro x t
  obtain ⟨hcoherent, hcounted⟩ := TransportLife.coherent_after input output acts
  refine ⟨hcoherent.keepalive, hcoherent.wellFormed, hcoherent.ramp, fun a hmoved => ?_,
    fun hstopped more hmore => TransportLife.data_of_undisturbed hcoherent hstopped hmore,
    fun f hf => ?_, hcounted.sent, fun a ha => ?_⟩
  · by_contra hstill
    exact hmoved (TransportLife.data_of_not_moves hstill)
  · obtain ⟨sample, rfl⟩ := hcounted.samples f hf
    exact ⟨rfl, sample.length_encode⟩
  · obtain ⟨frames, hqueued, hsends⟩ := x.sends_step ha
    exact ⟨frames, hqueued, hsends.output⟩

end RigBench
