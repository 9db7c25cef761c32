import RigBench.Proofs.Tick

/-!
What frames and ticks do not look at. What a frame comes to depends on the state of the experiment
alone, and once its frames are taken in a tick depends neither on the input queue nor on the
counters of frames. So benches that differ in nothing else stay side by side.
-/
namespace RigBench

namespace FrameQueue

theorem ext {q q' : FrameQueue} (hcapacity : q.capacity = q'.capacity)
    (hframes : q.frames = q'.frames) (hdropped : q.dropped = q'.dropped)
    (hpermit : q.permit = q'.permit) : q = q' := by
  cases q
  cases q'
  subst hcapacity hframes hdropped hpermit
  rfl

theorem capacity_push (q : FrameQueue) (f : Frame) : (q.push f).capacity = q.capacity := by
  unfold push wake append
  split <;> rfl

end FrameQueue

inductive Verdict
  | start
  | stop
  | keepalive
  | trajectory (params : TrajectoryParams) (ramp : Ramp Binary64)
  | rejected
  | ignored

namespace Verdict

def event : Verdict → Event
  | start => .accepted .start
  | stop => .accepted .stop
  | keepalive => .accepted .keepalive
  | trajectory params _ => .accepted (.trajectory params)
  | rejected => .refused
  | ignored => .refused

end Verdict

def ExperimentState.judge (s : ExperimentState) (f : Frame) : Verdict :=
  match Command.decode f with
  | .ok (some .start) => if s = .idle then .start else .rejected
  | .ok (some .stop) => if s = .idle then .rejected else .stop
  | .ok (some .keepalive) => .keepalive
  | .ok (some (.trajectory params)) =>
    match params.toRamp with
    | .ok ramp => .trajectory params ramp
    | .error _ => .rejected
  | .ok none => .ignored
  | .error _ => .rejected

theorem ExperimentState.judge_of_refuses {t : Transport} {f : Frame} (hf : t.Refuses f)
    (hn : Command.decode f ≠ .ok none) : t.state.judge f = .rejected := by
  unfold Transport.Refuses at hf
  unfold judge
  generalize Command.decode f = decoded at hf hn ⊢
  match decoded with
  | .error _ => rfl
  | .ok (some .start) => exact if_neg hf
  | .ok (some .stop) => exact if_pos hf
  | .ok (some .keepalive) => exact hf.elim
  | .ok (some (.trajectory params)) =>
    obtain ⟨e, he⟩ := hf
    simp only [he]
  | .ok none => exact absurd rfl hn

namespace Transport

def obey (t : Transport) : Verdict → Transport
  | .start =>
    { t with
      lifecycle := ⟨.running, some t.state, t.lifecycle.transitions + 1⟩
      data := {}
      keepaliveTime := .zero
      trajectory.output := t.trajectory.ramp.evaluate 0 }.countHandled
  | .stop =>
    { t.hear with
      lifecycle := ⟨.idle, some t.state, t.lifecycle.transitions + 1⟩ }.countHandled
  | .keepalive => t.hear.countHandled
  | .trajectory _ ramp => { t.hear with trajectory.ramp := ramp }.countHandled
  | .rejected => t.hear.countRejected
  | .ignored => t.hear.countIgnored

theorem receive_eq_obey (t : Transport) (f : Frame) :
    t.receive f = t.obey (t.state.judge f) ∧ t.eventOf f = (t.state.judge f).event := by
  have hr := t.reception_receive f
  generalize t.receive f = t' at hr ⊢
  generalize t.eventOf f = e at hr ⊢
  cases hr with
  | start hf hs =>
    have hjudge : t.state.judge f = .start := by simp [ExperimentState.judge, hf, hs]
    rw [hjudge, obey, hs]
    exact ⟨rfl, rfl⟩
  | stop hf hs =>
    have hjudge : t.state.judge f = .stop := by simp [ExperimentState.judge, hf, hs]
    rw [hjudge]
    exact ⟨rfl, rfl⟩
  | keepalive hf =>
    have hjudge : t.state.judge f = .keepalive := by simp [ExperimentState.judge, hf]
    rw [hjudge]
    exact ⟨rfl, rfl⟩
  | @trajectory params ramp hf hr =>
    have hjudge : t.state.judge f = .trajectory params ramp := by
      simp [ExperimentState.judge, hf, hr]
    rw [hjudge]
    exact ⟨rfl, rfl⟩
  | rejected hf hn =>
    rw [ExperimentState.judge_of_refuses hf hn]
    exact ⟨rfl, rfl⟩
  | ignored hf =>
    have hjudge : t.state.judge f = .ignored := by simp [ExperimentState.judge, hf]
    rw [hjudge]
    exact ⟨rfl, rfl⟩

def rewired (t : Transport) (input output : FrameQueue) : Transport := { t with input, output }

@[simp] theorem rewired_rewired (t : Transport) (input output input' output' : FrameQueue) :
    (t.rewired input output).rewired input' output' = t.rewired input' output' := rfl

theorem receive_rewired (t : Transport) (input output : FrameQueue) (f : Frame) :
    (t.rewired input output).receive f = (t.receive f).rewired input output := by
  rw [(receive_eq_obey _ f).1, (receive_eq_obey t f).1]
  change Transport.obey _ (t.state.judge f) = _
  cases t.state.judge f <;> rfl

theorem foldl_receive_rewired (fs : List Frame) (t : Transport) (input output : FrameQueue) :
    fs.foldl receive (t.rewired input output) = (fs.foldl receive t).rewired input output := by
  induction fs generalizing t with
  | nil => rfl
  | cons f fs ih => rw [List.foldl_cons, List.foldl_cons, receive_rewired, ih]

theorem handleFrames_eq (t : Transport) :
    t.handleFrames.2 = (t.input.frames.foldl receive t).rewired t.input.clear t.output := by
  rw [← foldl_receive_rewired]
  rfl

/-- The transport with another input queue and other counters of frames. -/
def recounted (t : Transport) (input : FrameQueue) (handled rejected ignored : Nat) : Transport :=
  { t with input, stats := { t.stats with handled, rejected, ignored } }

end Transport

namespace ControlLoop

variable {ρ : Type}

def framed (c : ControlLoop ρ) (framesInTick : Bool) : ControlLoop ρ :=
  { c with settings.framesInTick := framesInTick }

variable [Rig ρ]

/-- A tick when its frames are taken in. -/
def proceed (c : ControlLoop ρ) (link : LinkState) (t : Transport) : Call ρ TickOutcome :=
  if c.lostLink link t then c.abandon t .linkLost
  else if t.isRunning then c.drive t
  else (.ok .idle, c, t)

theorem tick_eq_proceed (c : ControlLoop ρ) (link : LinkState) (t : Transport) :
    c.tick link t = { c with ticks := c.ticks + 1 }.proceed link (c.intake t) := rfl

/-- The sample that a tick queues when its frames are taken in. -/
def queued? (c : ControlLoop ρ) (link : LinkState) (t : Transport) : Option Frame :=
  if c.lostLink link t then none
  else if t.isRunning then
    match c.sample t with
    | (.ok _, _, t) => t.output.frames.getLast?
    | (.error _, _, _) => none
  else none

section

variable (c : ControlLoop ρ) (link : LinkState) (t : Transport) (framesInTick : Bool)
  (input : FrameQueue) (handled rejected ignored : Nat)

/-- The result of a call with this change to its loop and to its transport. -/
def Call.beside {α : Type} (call : Call ρ α) : Call ρ α :=
  (call.1, call.2.1.framed framesInTick, call.2.2.recounted input handled rejected ignored)

theorem sample_beside :
    (c.framed framesInTick).sample (t.recounted input handled rejected ignored) =
      (c.sample t).beside framesInTick input handled rejected ignored := by
  have happly : Rig.apply (c.framed framesInTick).rig
      ((c.framed framesInTick).advance
        (t.recounted input handled rejected ignored)).trajectory.output
      (c.framed framesInTick).settings.step =
        Rig.apply c.rig (c.advance t).trajectory.output c.settings.step := rfl
  unfold sample
  dsimp only
  rw [happly]
  rcases Rig.apply c.rig (c.advance t).trajectory.output c.settings.step with ⟨_ | _, rig⟩
  · rfl
  · dsimp only
    rcases Rig.measure rig with ⟨_ | _, rig'⟩ <;> rfl

theorem watch_beside :
    (c.framed framesInTick).watch (t.recounted input handled rejected ignored) =
      (c.watch t).beside framesInTick input handled rejected ignored := by
  unfold watch
  rw [abandon_eq, abandon_eq]
  change (if t.keepaliveExpired c.settings.keepalive then _ else _) = _
  split <;> rfl

theorem drive_beside :
    (c.framed framesInTick).drive (t.recounted input handled rejected ignored) =
      (c.drive t).beside framesInTick input handled rejected ignored := by
  unfold drive
  rw [sample_beside]
  rcases c.sample t with ⟨_ | _, c', t'⟩
  · rfl
  · exact c'.watch_beside t' framesInTick input handled rejected ignored

theorem proceed_beside :
    (c.framed framesInTick).proceed link (t.recounted input handled rejected ignored) =
      (c.proceed link t).beside framesInTick input handled rejected ignored := by
  unfold proceed
  rw [abandon_eq, abandon_eq, drive_beside]
  change (if c.lostLink link t then _ else if t.isRunning then _ else _) = _
  split
  · rfl
  · split <;> rfl

theorem queued?_beside :
    (c.framed framesInTick).queued? link (t.recounted input handled rejected ignored) =
      c.queued? link t := by
  unfold queued?
  rw [sample_beside]
  change (if c.lostLink link t then _ else if t.isRunning then _ else _) = _
  split
  · rfl
  · split
    · rcases c.sample t with ⟨_ | _, c', t'⟩ <;> rfl
    · rfl

/-- A tick that has its frames leaves the input queue and the counters of frames as they are, and
the loop where it takes in frames. -/
theorem proceed_keeps :
    (c.proceed link t).2.1 = (c.proceed link t).2.1.framed c.settings.framesInTick ∧
      (c.proceed link t).2.2 = (c.proceed link t).2.2.recounted t.input t.stats.handled
        t.stats.rejected t.stats.ignored := by
  have hself := c.proceed_beside link t c.settings.framesInTick t.input t.stats.handled
    t.stats.rejected t.stats.ignored
  exact ⟨congrArg (·.2.1) hself, congrArg (·.2.2) hself⟩

theorem proceed_framed :
    (c.framed framesInTick).proceed link t =
      ((c.proceed link t).1, (c.proceed link t).2.1.framed framesInTick, (c.proceed link t).2.2) :=
  (c.proceed_beside link t framesInTick t.input t.stats.handled t.stats.rejected
    t.stats.ignored).trans (Prod.ext rfl (Prod.ext rfl (c.proceed_keeps link t).2.symm))

theorem proceed_recounted :
    c.proceed link (t.recounted input handled rejected ignored) =
      ((c.proceed link t).1, (c.proceed link t).2.1,
        (c.proceed link t).2.2.recounted input handled rejected ignored) :=
  (c.proceed_beside link t c.settings.framesInTick input handled rejected ignored).trans
    (Prod.ext rfl (Prod.ext (c.proceed_keeps link t).1.symm rfl))

theorem queued?_framed : (c.framed framesInTick).queued? link t = c.queued? link t :=
  c.queued?_beside link t framesInTick t.input t.stats.handled t.stats.rejected t.stats.ignored

end
end ControlLoop

namespace History

def sampled (h : History) : List Frame := h.samples.map Prod.fst

end History

theorem Transport.sampled_note (fs : List Frame) :
    ∀ (t : Transport) (h : History), (t.note fs h).sampled = h.sampled := by
  induction fs with
  | nil => exact fun _ _ => rfl
  | cons f fs ih =>
    intro t h
    rw [note, ih, History.sampled, samples_eventOf, History.sampled]

theorem Transport.sampled_noteRun (t : Transport) (h : History) :
    (t.noteRun h).sampled = h.sampled := by
  unfold noteRun
  split
  · rfl
  · exact sampled_note _ _ h

namespace ControlLoop

variable {ρ : Type}

theorem sampled_noteIntake (c : ControlLoop ρ) (t : Transport) (h : History) :
    (c.noteIntake t h).sampled = h.sampled := by
  unfold noteIntake
  split
  · exact Transport.sampled_note _ _ h
  · rfl

variable [Rig ρ]

theorem sampled_noteTick (c : ControlLoop ρ) (link : LinkState) (t : Transport) (h : History) :
    (c.noteTick link t h).sampled = h.sampled ++ (c.queued? link (c.intake t)).toList := by
  rw [← c.sampled_noteIntake t h]
  unfold noteTick queued?
  dsimp only
  split
  · exact (List.append_nil _).symm
  · split
    · unfold noteSample
      rcases c.sample (c.intake t) with ⟨_ | _, c', t'⟩
      · exact (List.append_nil _).symm
      · dsimp only
        cases t'.output.frames.getLast? with
        | none => exact (List.append_nil _).symm
        | some f => exact List.map_append
    · exact (List.append_nil _).symm

end ControlLoop
end RigBench
