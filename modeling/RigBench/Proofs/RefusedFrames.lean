import RigBench.Proofs.FrameDelivery
import RigBench.Proofs.Lockstep

/-!
Frames that are turned away. Every frame has its place in the order in which frames come. A run in
which empty keepalive frames stand at the places of those that are rejected or ignored goes the same
way, and counts them as handled.
-/
namespace RigBench

namespace Transport

/-- Frames that have left the input queue, taken in or discarded; the place of the next to leave. -/
def passed (t : Transport) : Nat := t.counted + t.input.dropped

def arrived (t : Transport) : Nat := t.passed + t.input.length

def refused (t : Transport) : Nat := t.stats.rejected + t.stats.ignored

def turnsAway (t : Transport) (f : Frame) : Bool := (t.receive f).refused != t.refused

/-- The places of those frames that are turned away when these are taken in. -/
def turnedAway (t : Transport) : List Frame → List Nat
  | [] => []
  | f :: fs => (if t.turnsAway f then [t.passed] else []) ++ (t.receive f).turnedAway fs

theorem passed_receive (t : Transport) (f : Frame) : (t.receive f).passed = t.passed + 1 := by
  obtain ⟨hcounted, hinput⟩ := (t.reception_receive f).counted
  rw [passed, passed, hcounted, hinput]
  omega

theorem Takes.passed {t t' : Transport} {taken : List Frame} {count : Nat}
    (h : t.Takes taken count t') :
    t'.passed = t.passed + taken.length ∧ t'.arrived = t.arrived := by
  have hlength := congrArg List.length h.frames
  rw [List.length_append] at hlength
  unfold arrived Transport.passed FrameQueue.length
  rw [h.counted, h.dropped]
  omega

theorem passed_push (t : Transport) (f : Frame) :
    { t with input := t.input.push f }.passed = t.passed + (if t.input.isFull then 1 else 0) ∧
      { t with input := t.input.push f }.arrived = t.arrived + 1 := by
  have hpush := t.input.dropped_add_length_push f
  constructor
  · change t.counted + (t.input.push f).dropped = t.counted + t.input.dropped + _
    rw [FrameQueue.dropped_push]
    split <;> omega
  · change t.counted + (t.input.push f).dropped + (t.input.push f).frames.length =
      t.counted + t.input.dropped + t.input.frames.length + 1
    omega

theorem mem_turnedAway {t : Transport} {fs : List Frame} {place : Nat}
    (h : place ∈ t.turnedAway fs) : t.passed ≤ place ∧ place < t.passed + fs.length := by
  induction fs generalizing t with
  | nil => cases h
  | cons f fs ih =>
    rw [turnedAway, List.mem_append] at h
    rw [List.length_cons]
    rcases h with h | h
    · have hplace : place = t.passed := by
        split at h
        · exact List.mem_singleton.mp h
        · cases h
      omega
    · have hrest := ih h
      rw [passed_receive] at hrest
      omega

theorem refused_receive (t : Transport) (f : Frame) :
    (t.receive f).refused = t.refused + (if t.turnsAway f then 1 else 0) := by
  unfold turnsAway
  rw [(receive_eq_obey t f).1]
  cases t.state.judge f <;>
    simp [refused, obey, hear, countHandled, countRejected, countIgnored] <;> omega

theorem refused_foldl_receive (fs : List Frame) (t : Transport) :
    (fs.foldl receive t).refused = t.refused + (t.turnedAway fs).length := by
  induction fs generalizing t with
  | nil => rfl
  | cons f fs ih =>
    rw [List.foldl_cons, ih, refused_receive, turnedAway, List.length_append]
    split <;> simp
    omega

theorem refused_handleFrames (t : Transport) :
    t.handleFrames.2.refused = t.refused + (t.turnedAway t.input.frames).length := by
  rw [handleFrames_eq]
  exact refused_foldl_receive _ t

theorem refused_run (t : Transport) :
    t.run.2.refused = t.refused + (t.turnedAway t.runFrames).length := by
  unfold run runFrames
  split
  · rfl
  · exact t.refused_handleFrames

end Transport

theorem ControlLoop.refused_tick {ρ : Type} [Rig ρ] (c : ControlLoop ρ) (link : LinkState)
    (t : Transport) :
    (c.tick link t).2.2.refused = t.refused + (t.turnedAway (c.intakeFrames t)).length := by
  have hintake : (c.intake t).refused = t.refused + (t.turnedAway (c.intakeFrames t)).length := by
    unfold intake intakeFrames
    split
    · exact t.refused_handleFrames
    · rfl
  rw [tick_eq_proceed, (proceed_keeps _ link (c.intake t)).2, ← hintake]
  rfl

/-- The frame at a place, or an empty keepalive frame if it is one of these places. -/
def Frame.replaced (places : List Nat) (place : Nat) (f : Frame) : Frame :=
  if place ∈ places then Command.keepalive.toFrame else f

namespace FrameQueue

def replaced (places : List Nat) (place : Nat) (q : FrameQueue) : FrameQueue :=
  { q with
    frames := (q.frames.zipIdx place).map fun (f, n) => f.replaced places n
    length_le := by
      rw [List.length_map, List.length_zipIdx]
      exact q.length_le }

theorem length_replaced (places : List Nat) (place : Nat) (q : FrameQueue) :
    (q.replaced places place).frames.length = q.frames.length := by
  simp [replaced]

theorem replaced_push (places : List Nat) (place : Nat) (q : FrameQueue) (f : Frame) :
    (q.replaced places place).push (f.replaced places (place + q.length)) =
      (q.push f).replaced places (place + if q.isFull then 1 else 0) := by
  have hfull : (q.replaced places place).isFull = q.isFull := by
    rw [isFull, length_replaced]
    rfl
  refine ext ?_ ?_ ?_ rfl
  · change _ = (q.push f).capacity
    rw [capacity_push, capacity_push]
    rfl
  · change _ = ((q.push f).frames.zipIdx _).map _
    rw [frames_push, frames_push, hfull, List.zipIdx_append, List.map_append]
    split
    · next hq =>
      have hfront : 0 < q.frames.length := by
        have hpos := q.capacity_pos
        rwa [← beq_iff_eq.mp hq] at hpos
      obtain ⟨g, gs, hframes⟩ := List.exists_cons_of_length_pos hfront
      simp [replaced, length, hframes, Nat.add_comm, Nat.add_left_comm]
    · rfl
  · change _ = (q.push f).dropped
    rw [dropped_push, dropped_push, hfull]
    rfl

end FrameQueue

def Bench.replaced (places : List Nat) (b : Bench) : Bench :=
  { b with transport.input := b.transport.input.replaced places b.transport.passed }

def Act.replaced (places : List Nat) (place : Nat) : Act → Act
  | .client (.submit f) => .client (.submit (f.replaced places place))
  | a => a

def Act.brings : Act → Nat
  | .client (.submit _) => 1
  | _ => 0

def replacedFrom (places : List Nat) (place : Nat) : List Act → List Act
  | [] => []
  | a :: acts => a.replaced places place :: replacedFrom places (place + a.brings) acts

namespace Transport

/-- A frame that is turned away does to a transport what an empty keepalive frame does, apart from
the counters. -/
theorem receive_replaced (t : Transport) (f : Frame) {places : List Nat} {place : Nat}
    (hplace : place ∈ places ↔ t.turnsAway f = true) (input : FrameQueue)
    (handled rejected ignored : Nat) :
    (t.recounted input handled rejected ignored).receive (f.replaced places place) =
      (t.receive f).recounted input (handled + 1) rejected ignored := by
  unfold turnsAway refused at hplace
  unfold Frame.replaced
  rw [(receive_eq_obey t f).1] at hplace ⊢
  rw [(receive_eq_obey _ _).1]
  change obey _ (t.state.judge _) = _
  by_cases hmem : place ∈ places
  · -- A frame turned away in its state, and a keepalive, which is handled in every state.
    rw [if_pos hmem]
    have haway := hplace.mp hmem
    have hkeepalive : t.state.judge Command.keepalive.toFrame = .keepalive := rfl
    rw [hkeepalive]
    revert haway
    cases t.state.judge f with
    | rejected => exact fun _ => rfl
    | ignored => exact fun _ => rfl
    | _ => simp [obey, hear, countHandled]
  · rw [if_neg hmem]
    have hkept := fun haway => hmem (hplace.mpr haway)
    revert hkept
    cases t.state.judge f with
    | rejected => simp [obey, hear, countRejected]
    | ignored => simp [obey, hear, countIgnored]
    | _ => exact fun _ => rfl

def Foretold (places : List Nat) (t : Transport) (fs : List Frame) : Prop :=
  ∀ place, t.passed ≤ place → place < t.passed + fs.length →
    (place ∈ places ↔ place ∈ t.turnedAway fs)

theorem Foretold.first {places : List Nat} {t : Transport} {f : Frame} {fs : List Frame}
    (h : t.Foretold places (f :: fs)) : t.passed ∈ places ↔ t.turnsAway f = true := by
  rw [h t.passed (Nat.le_refl _) (by simp), turnedAway, List.mem_append]
  constructor
  · rintro (hmem | hmem)
    · by_contra haway
      rw [if_neg haway] at hmem
      cases hmem
    · have hrest := (mem_turnedAway hmem).1
      rw [passed_receive] at hrest
      omega
  · intro haway
    rw [if_pos haway]
    exact .inl (List.mem_singleton_self _)

theorem Foretold.rest {places : List Nat} {t : Transport} {f : Frame} {fs : List Frame}
    (h : t.Foretold places (f :: fs)) : (t.receive f).Foretold places fs := by
  intro place hge hlt
  rw [passed_receive] at hge hlt
  rw [h place (by omega) (by rw [List.length_cons]; omega), turnedAway, List.mem_append,
    or_iff_right]
  intro hmem
  split at hmem
  · have := List.mem_singleton.mp hmem
    omega
  · cases hmem

theorem foldl_receive_replaced {places : List Nat} (fs : List Frame) {t : Transport}
    (hplaces : t.Foretold places fs) (input : FrameQueue) (handled rejected ignored : Nat) :
    ((fs.zipIdx t.passed).map fun (f, n) => f.replaced places n).foldl receive
        (t.recounted input handled rejected ignored) =
      (fs.foldl receive t).recounted input (handled + fs.length) rejected ignored := by
  -- The numbers of the places go on where `passed` is after each frame.
  induction fs generalizing t handled with
  | nil => rfl
  | cons f fs ih =>
    rw [List.zipIdx_cons, List.map_cons, List.foldl_cons, List.foldl_cons,
      receive_replaced t f hplaces.first, ← passed_receive t f, ih hplaces.rest, List.length_cons,
      Nat.add_right_comm, Nat.add_assoc]

end Transport

namespace Run

variable {ρ : Type}

def takenBy (r : Run ρ) : Act → List Frame
  | .tick => r.loop.intakeFrames r.bench.transport
  | .service => r.bench.transport.runFrames
  | .client _ => []

variable [Rig ρ]

/-- The places of those frames that are turned away when a run goes on like this. -/
def turnedAway (r : Run ρ) : List Act → List Nat
  | [] => []
  | a :: acts => r.bench.transport.turnedAway (r.takenBy a) ++ (r.step a).turnedAway acts

theorem passed_step (r : Run ρ) (a : Act) :
    r.bench.transport.passed + (r.takenBy a).length ≤ (r.step a).bench.transport.passed ∧
      (r.step a).bench.transport.arrived = r.bench.transport.arrived + a.brings := by
  cases a with
  | tick =>
    obtain ⟨hpassed, harrived⟩ := (r.loop.takes_tick r.bench.link r.bench.transport).passed
    exact ⟨Nat.le_of_eq hpassed.symm, harrived⟩
  | service =>
    obtain ⟨hpassed, harrived⟩ := r.bench.transport.takes_run.passed
    exact ⟨Nat.le_of_eq hpassed.symm, harrived⟩
  | client act =>
    cases act with
    | submit f =>
      obtain ⟨hpassed, harrived⟩ := r.bench.transport.passed_push f
      exact ⟨Nat.le_trans (Nat.le_add_right _ _) (Nat.le_of_eq hpassed.symm), harrived⟩
    | connect => exact ⟨Nat.le_refl _, rfl⟩
    | disconnect => exact ⟨Nat.le_refl _, rfl⟩
    | collect => exact ⟨Nat.le_refl _, rfl⟩

theorem le_of_mem_turnedAway {r : Run ρ} {acts : List Act} {place : Nat}
    (h : place ∈ r.turnedAway acts) : r.bench.transport.passed ≤ place := by
  induction acts generalizing r with
  | nil => cases h
  | cons a acts ih =>
    rw [turnedAway, List.mem_append] at h
    rcases h with h | h
    · exact (Transport.mem_turnedAway h).1
    · have hstep := (r.passed_step a).1
      have hrest := ih h
      omega

theorem refused_after (r : Run ρ) (acts : List Act) :
    (r.after acts).bench.transport.refused =
      r.bench.transport.refused + (r.turnedAway acts).length := by
  induction acts generalizing r with
  | nil => rfl
  | cons a acts ih =>
    have hstep : (r.step a).bench.transport.refused =
        r.bench.transport.refused + (r.bench.transport.turnedAway (r.takenBy a)).length := by
      cases a with
      | tick => exact r.loop.refused_tick r.bench.link r.bench.transport
      | service => exact r.bench.transport.refused_run
      | client act => cases act <;> rfl
    rw [after, List.foldl_cons, ← after, ih, hstep, turnedAway, List.length_append, Nat.add_assoc]

def Foretold (places : List Nat) (r : Run ρ) (acts : List Act) : Prop :=
  ∀ place, r.bench.transport.passed ≤ place → (place ∈ places ↔ place ∈ r.turnedAway acts)

theorem Foretold.taken {places : List Nat} {r : Run ρ} {a : Act} {acts : List Act}
    (h : r.Foretold places (a :: acts)) :
    r.bench.transport.Foretold places (r.takenBy a) := by
  intro place hge hlt
  rw [h place hge, turnedAway, List.mem_append, or_iff_left]
  intro hlater
  have hrest := le_of_mem_turnedAway hlater
  have hstep := (r.passed_step a).1
  omega

theorem Foretold.step {places : List Nat} {r : Run ρ} {a : Act} {acts : List Act}
    (h : r.Foretold places (a :: acts)) : (r.step a).Foretold places acts := by
  intro place hge
  have hstep := (r.passed_step a).1
  rw [h place (by omega), turnedAway, List.mem_append, or_iff_right]
  intro htaken
  have hrange := Transport.mem_turnedAway htaken
  omega

end Run

namespace Transport

/-- The transport `t'` is like `t`, with frames replaced. -/
structure Replaced (places : List Nat) (rejected ignored : Nat) (t t' : Transport) : Prop where
  eq : t' = t.recounted (t.input.replaced places t.passed) t'.stats.handled rejected ignored
  counted : t'.counted = t.counted

variable {places : List Nat} {rejected ignored : Nat} {t t' : Transport}

theorem Replaced.eq_of_refused (h : t.Replaced places rejected ignored t') {away : Nat}
    (haway : t.refused = rejected + ignored + away) :
    t' = t.recounted (t.input.replaced places t.passed) (t.stats.handled + away) rejected
      ignored := by
  have hcounted := h.counted
  rw [h.eq] at hcounted
  change t'.stats.handled + rejected + ignored = t.stats.handled + t.stats.rejected +
    t.stats.ignored at hcounted
  have hhandled : t'.stats.handled = t.stats.handled + away := by
    unfold refused at haway
    omega
  rw [← hhandled]
  exact h.eq

theorem Replaced.handleFrames (h : t.Replaced places rejected ignored t')
    (hplaces : t.Foretold places t.input.frames) :
    t.handleFrames.2.Replaced places rejected ignored t'.handleFrames.2 := by
  have hfold := foldl_receive_replaced t.input.frames hplaces
    (t.input.replaced places t.passed) t'.stats.handled rejected ignored
  rw [← h.eq] at hfold
  have hframes : t'.input.frames =
      (t.input.frames.zipIdx t.passed).map fun (f, n) => f.replaced places n := by
    rw [h.eq]
    rfl
  have heq : t'.handleFrames.2 =
      t.handleFrames.2.recounted (t.handleFrames.2.input.replaced places t.handleFrames.2.passed)
        (t'.stats.handled + t.input.frames.length) rejected ignored := by
    rw [handleFrames_eq t', hframes, hfold, h.eq, handleFrames_eq t]
    rfl
  constructor
  · rw [heq]
    rfl
  · rw [t'.takes_handleFrames.counted, t.takes_handleFrames.counted, h.counted, hframes]
    simp

theorem Replaced.push (h : t.Replaced places rejected ignored t') (f : Frame) :
    { t with input := t.input.push f }.Replaced places rejected ignored
      { t' with input := t'.input.push (f.replaced places t.arrived) } := by
  have hinput : t'.input = t.input.replaced places t.passed := congrArg Transport.input h.eq
  refine ⟨?_, h.counted⟩
  rw [hinput, arrived, FrameQueue.replaced_push, ← (t.passed_push f).1]
  conv_lhs => rw [h.eq]
  rfl

theorem Replaced.clear (h : t.Replaced places rejected ignored t') :
    { t with output := t.output.clear }.Replaced places rejected ignored
      { t' with output := t'.output.clear } := by
  refine ⟨?_, h.counted⟩
  conv_lhs => rw [h.eq]
  rfl

theorem Replaced.run (h : t.Replaced places rejected ignored t')
    (hplaces : t.Foretold places t.runFrames) :
    t.run.2.Replaced places rejected ignored t'.run.2 := by
  have hstate : t'.state = t.state := by
    rw [h.eq]
    rfl
  unfold runFrames at hplaces
  unfold Transport.run
  rw [hstate]
  split
  · exact h
  · next hready =>
    rw [if_neg hready] at hplaces
    exact h.handleFrames hplaces

end Transport

namespace ControlLoop

variable {ρ : Type} {places : List Nat} {rejected ignored : Nat} {t t' : Transport}

theorem replaced_intake (c : ControlLoop ρ) (h : t.Replaced places rejected ignored t')
    (hplaces : t.Foretold places (c.intakeFrames t)) :
    (c.intake t).Replaced places rejected ignored (c.intake t') := by
  unfold intakeFrames at hplaces
  unfold intake
  split
  · next hframes =>
    rw [if_pos hframes] at hplaces
    exact h.handleFrames hplaces
  · exact h

variable [Rig ρ]

theorem replaced_proceed (c : ControlLoop ρ) (link : LinkState)
    (h : t.Replaced places rejected ignored t') :
    (c.proceed link t').1 = (c.proceed link t).1 ∧
      (c.proceed link t').2.1 = (c.proceed link t).2.1 ∧
      (c.proceed link t).2.2.Replaced places rejected ignored (c.proceed link t').2.2 := by
  obtain ⟨heq, hcounted⟩ := h
  generalize t'.stats.handled = handled at heq
  subst heq
  rw [proceed_recounted]
  have hkeeps := (c.proceed_keeps link t).2
  refine ⟨rfl, rfl, ?_, hcounted.trans ?_⟩
  · conv_rhs => rw [hkeeps]
    rfl
  · rw [hkeeps]
    rfl

theorem replaced_tick (c : ControlLoop ρ) (link : LinkState)
    (h : t.Replaced places rejected ignored t')
    (hplaces : t.Foretold places (c.intakeFrames t)) :
    (c.tick link t').1 = (c.tick link t).1 ∧ (c.tick link t').2.1 = (c.tick link t).2.1 ∧
      (c.tick link t).2.2.Replaced places rejected ignored (c.tick link t').2.2 ∧
      c.queued? link (c.intake t') = c.queued? link (c.intake t) := by
  have hintake := c.replaced_intake h hplaces
  obtain ⟨houtcome, hloop, htransport⟩ :=
    { c with ticks := c.ticks + 1 }.replaced_proceed link hintake
  refine ⟨houtcome, hloop, htransport, ?_⟩
  rw [hintake.eq]
  exact c.queued?_beside link _ c.settings.framesInTick _ _ _ _

end ControlLoop

structure Run.Replaced {ρ : Type} (places : List Nat) (rejected ignored : Nat) (x y : Run ρ) :
    Prop where
  loop : y.loop = x.loop
  link : y.bench.link = x.bench.link
  decoder : y.bench.decoder = x.bench.decoder
  transport : x.bench.transport.Replaced places rejected ignored y.bench.transport
  sampled : y.history.sampled = x.history.sampled

namespace Run.Replaced

variable {ρ : Type} [Rig ρ] {places : List Nat} {rejected ignored : Nat} {x y : Run ρ}

theorem tick (h : Replaced places rejected ignored x y) {acts : List Act}
    (hplaces : x.Foretold places (.tick :: acts)) :
    (y.bench.tick y.loop).1 = (x.bench.tick x.loop).1 ∧
      Replaced places rejected ignored (x.step .tick) (y.step .tick) := by
  obtain ⟨houtcome, hloop, htransport, hqueued⟩ :=
    x.loop.replaced_tick x.bench.link h.transport hplaces.taken
  have hy : y.loop.tick y.bench.link y.bench.transport =
      x.loop.tick x.bench.link y.bench.transport := by rw [h.loop, h.link]
  refine ⟨(congrArg (·.1) hy).trans houtcome, (congrArg (·.2.1) hy).trans hloop, h.link,
    h.decoder, ?_, ?_⟩
  · rw [← hy] at htransport
    exact htransport
  · change (y.loop.noteTick y.bench.link y.bench.transport y.history).sampled =
      (x.loop.noteTick x.bench.link x.bench.transport x.history).sampled
    rw [ControlLoop.sampled_noteTick, ControlLoop.sampled_noteTick, h.loop, h.link, h.sampled,
      hqueued]

theorem step (h : Replaced places rejected ignored x y) {a : Act} {acts : List Act}
    (hplaces : x.Foretold places (a :: acts)) :
    Replaced places rejected ignored (x.step a)
      (y.step (a.replaced places x.bench.transport.arrived)) := by
  cases a with
  | tick => exact (h.tick hplaces).2
  | service =>
    exact
      { h with
        transport := h.transport.run hplaces.taken
        sampled := by
          refine (y.bench.transport.sampled_noteRun y.history).trans (h.sampled.trans ?_)
          exact (x.bench.transport.sampled_noteRun x.history).symm }
  | client act =>
    cases act with
    | submit f => exact { h with transport := h.transport.push f }
    | connect => exact { h with link := congrArg LinkState.connect h.link }
    | disconnect => exact { h with link := congrArg LinkState.disconnect h.link }
    | collect => exact { h with transport := h.transport.clear }

theorem after (h : Replaced places rejected ignored x y) {acts : List Act}
    (hplaces : x.Foretold places acts) (n : Nat) :
    Replaced places rejected ignored (x.after (acts.take n))
        (y.after ((replacedFrom places x.bench.transport.arrived acts).take n)) ∧
      (x.after (acts.take n)).Foretold places (acts.drop n) := by
  -- What is foretold goes along with the acts: the frames of the next act are judged by it.
  induction acts generalizing x y n with
  | nil => simpa [Run.after, replacedFrom] using ⟨h, hplaces⟩
  | cons a acts ih =>
    cases n with
    | zero => exact ⟨h, hplaces⟩
    | succ n =>
      have hstep := ih (h.step hplaces) hplaces.step n
      rw [(x.passed_step a).2] at hstep
      exact hstep

end Run.Replaced

/-- A frame that is turned away is no more than a keepalive, for every rig, every loop and bench and
every sequence of acts. In the other run an empty keepalive frame stands at the place of each frame
that is rejected or ignored, be it one that waits at the start or one that comes later. After any
number of acts the next tick has the same outcome in both, and there are the same samples, loop,
link, experiment, output queue, and length and losses of the input queue; only, what the first run
counts as rejected or ignored from the start on, the other counts as handled. -/
theorem refused_frames_like_keepalives {ρ : Type} [Rig ρ] (c : ControlLoop ρ) (b : Bench)
    (acts : List Act) (n : Nat) :
    let places := (Run.start c b).turnedAway acts
    let x := (Run.start c b).after (acts.take n)
    let y := (Run.start c (b.replaced places)).after
      ((replacedFrom places b.transport.arrived acts).take n)
    let t := x.bench.transport
    let t' := y.bench.transport
    let away := ((Run.start c b).turnedAway (acts.take n)).length
    (acts[n]? = some .tick → (y.bench.tick y.loop).1 = (x.bench.tick x.loop).1) ∧
      y.history.sampled = x.history.sampled ∧ y.loop = x.loop ∧ y.bench.link = x.bench.link ∧
      t'.lifecycle = t.lifecycle ∧ t'.data = t.data ∧ t'.trajectory = t.trajectory ∧
      t'.keepaliveTime = t.keepaliveTime ∧ t'.output = t.output ∧
      t'.input.length = t.input.length ∧ t'.input.dropped = t.input.dropped ∧
      t.stats.rejected + t.stats.ignored =
        b.transport.stats.rejected + b.transport.stats.ignored + away ∧
      t'.stats =
        { t.stats with
          handled := t.stats.handled + away
          rejected := b.transport.stats.rejected
          ignored := b.transport.stats.ignored } := by
  intro places x y t t' away
  have hstart : Run.Replaced places b.transport.stats.rejected b.transport.stats.ignored
      (.start c b) (.start c (b.replaced places)) := ⟨rfl, rfl, rfl, ⟨rfl, rfl⟩, rfl⟩
  obtain ⟨hbeside, hforetold⟩ := hstart.after (fun _ _ => Iff.rfl) n
  have haway : t.refused = b.transport.refused + away :=
    (Run.start c b).refused_after (acts.take n)
  have heq : t' = t.recounted (t.input.replaced places t.passed) (t.stats.handled + away)
      b.transport.stats.rejected b.transport.stats.ignored :=
    hbeside.transport.eq_of_refused haway
  refine ⟨?_, hbeside.sampled, hbeside.loop, hbeside.link, ?_⟩
  · intro htick
    obtain ⟨hn, hact⟩ := List.getElem?_eq_some_iff.mp htick
    rw [List.drop_eq_getElem_cons hn, hact] at hforetold
    exact (hbeside.tick hforetold).1
  · rw [heq]
    refine ⟨rfl, rfl, rfl, rfl, rfl, ?_, rfl, haway, rfl⟩
    rw [FrameQueue.length, FrameQueue.length, ← t.input.length_replaced places t.passed]
    rfl

/-- A second start and a frame of an unknown kind, both taken in by the second tick. -/
theorem refused_frames_like_keepalives_second_start :
    let c : ControlLoop NullRig := { rig := {}, settings := ⟨.ofMillis 100, .zero, true, true⟩ }
    let b := (Bench.new 4 4).init.2
    let unknown : Frame := { id := 63, payload := [1] }
    let acts : List Act :=
      [.client (.submit Command.start.toFrame), .tick,
        .client (.submit Command.start.toFrame), .client (.submit unknown), .tick]
    let acts' : List Act :=
      [.client (.submit Command.start.toFrame), .tick,
        .client (.submit Command.keepalive.toFrame), .client (.submit Command.keepalive.toFrame),
        .tick]
    (Run.start c b).turnedAway acts = [1, 2] ∧
      replacedFrom [1, 2] b.transport.arrived acts = acts' ∧
      ((Run.start c b).after acts).bench.transport.stats = ⟨1, 1, 1, 2, 0⟩ ∧
      ((Run.start c b).after acts').bench.transport.stats = ⟨3, 0, 0, 2, 0⟩ := by
  intro c b unknown acts acts'
  have hplaces : (Run.start c b).turnedAway acts = [1, 2] := by decide +kernel
  have hacts : replacedFrom [1, 2] b.transport.arrived acts = acts' := by decide +kernel
  have hstats : ((Run.start c b).after acts).bench.transport.stats = ⟨1, 1, 1, 2, 0⟩ := by
    decide +kernel
  have hbench : b.replaced [1, 2] = b := rfl
  have htake : acts'.take acts.length = acts' := rfl
  obtain ⟨-, -, -, -, -, -, -, -, -, -, -, -, h⟩ :=
    refused_frames_like_keepalives c b acts acts.length
  rw [List.take_length, hplaces, hacts, hbench, htake, hstats] at h
  exact ⟨hplaces, hacts, hstats, h⟩

end RigBench
