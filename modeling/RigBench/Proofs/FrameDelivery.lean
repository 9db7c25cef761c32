import RigBench.Proofs.FrameStream
import RigBench.Proofs.Run

/-!
From the wire to the dispatcher. Clients come one after the other, each with a stream of its own
and a new decoder; their frames pass the input queue and are taken in between ticks and by ticks,
in any interleaving. What is taken in is what the streams say, stream by stream, and every frame is
counted once.
-/
namespace RigBench

namespace FrameQueue

theorem dropped_push (q : FrameQueue) (f : Frame) :
    (q.push f).dropped = if q.isFull then q.dropped + 1 else q.dropped := by
  unfold push wake append isFull
  by_cases h : q.frames.length = q.capacity
  · simp [h]
  · simp [h]

theorem dropped_add_length_push (q : FrameQueue) (f : Frame) :
    (q.push f).dropped + (q.push f).frames.length = q.dropped + q.frames.length + 1 := by
  rw [dropped_push, frames_push, List.length_append, List.length_singleton]
  split
  · next hfull =>
    have hlength : q.frames.length = q.capacity := beq_iff_eq.mp hfull
    have hpos := q.capacity_pos
    rw [List.length_drop]
    omega
  · omega

theorem frames_push_sublist (q : FrameQueue) (f : Frame) :
    (q.push f).frames.Sublist (q.frames ++ [f]) := by
  rw [frames_push]
  split
  · exact (List.drop_sublist 1 q.frames).append_right [f]
  · exact List.Sublist.refl _

end FrameQueue

namespace Transport

def counted (t : Transport) : Nat := t.stats.handled + t.stats.rejected + t.stats.ignored

theorem Reception.counted {t t' : Transport} {f : Frame} {e : Event} (h : t.Reception f t' e) :
    t'.counted = t.counted + 1 ∧ t'.input = t.input := by
  cases h <;> refine ⟨?_, rfl⟩ <;>
    simp [Transport.counted, countHandled, countRejected, countIgnored, hear] <;> omega

/-- The frames are dispatched one after the other, each to what the one before has left. -/
inductive Dispatches : Transport → List Frame → Transport → Prop
  | nothing (t : Transport) : Dispatches t [] t
  | frame {t t' t'' : Transport} {f : Frame} {fs : List Frame} {e : Event}
      (hf : t.Reception f t' e) (hfs : Dispatches t' fs t'') : Dispatches t (f :: fs) t''

theorem dispatches_foldl (fs : List Frame) (t : Transport) :
    t.Dispatches fs (fs.foldl receive t) := by
  induction fs generalizing t with
  | nil => exact .nothing t
  | cons f fs ih => exact .frame (t.reception_receive f) (ih (t.receive f))

theorem dispatches_handleFrames (t : Transport) :
    { t with input := t.input.clear }.Dispatches t.input.frames t.handleFrames.2 :=
  dispatches_foldl t.input.frames { t with input := t.input.clear }

theorem Dispatches.counted {t t' : Transport} {fs : List Frame} (h : t.Dispatches fs t') :
    t'.counted = t.counted + fs.length ∧ t'.input = t.input := by
  induction h with
  | nothing t => exact ⟨rfl, rfl⟩
  | frame hf hfs ih =>
    obtain ⟨hcount, hinput⟩ := hf.counted
    obtain ⟨hcounts, hinputs⟩ := ih
    refine ⟨?_, hinputs.trans hinput⟩
    rw [hcounts, hcount, List.length_cons]
    omega

/-- What is done to a transport besides: others use its output queue, it is made ready, or a tick
goes on with the experiment. -/
inductive Apart (t : Transport) : Transport → Prop
  | same : Apart t t
  | output (q : FrameQueue) : Apart t { t with output := q }
  | init {t' : Transport} (hinit : t.init = .ok t') : Apart t t'
  | reset : Apart t t.reset
  | measured (hrun : t.isRunning = true) (step : Duration) (value : Binary64) :
    Apart t (t.measured step value)
  | sampled (hrun : t.isRunning = true) (step : Duration) (value : Binary64) :
    Apart t (t.measured step value).sendData
  | expired (hrun : t.isRunning = true) (step : Duration) (value : Binary64) :
    Apart t (t.measured step value).sendData.reset

theorem Apart.counted {t t' : Transport} (h : t.Apart t') :
    t'.counted = t.counted ∧ t'.input = t.input := by
  cases h with
  | init hinit =>
    unfold Transport.init at hinit
    rcases htransition : t.lifecycle.transition .idle with e | lifecycle
    · rw [htransition] at hinit
      cases hinit
    · rw [htransition] at hinit
      cases hinit
      exact ⟨rfl, rfl⟩
  | _ => exact ⟨rfl, rfl⟩

/-- From one transport to the next these frames are dispatched, with the queue as it is then, and
all else is apart from that. -/
def Absorbs (t : Transport) (fs : List Frame) (t' : Transport) : Prop :=
  ∃ t₁, { t with input := t'.input }.Dispatches fs t₁ ∧ t₁.Apart t'

/-- A run has dispatched these frames, in this order. -/
inductive Dispatched (t : Transport) : List Frame → Transport → Prop
  | start : Dispatched t [] t
  | next {t' t'' : Transport} {fs news : List Frame} (hrun : Dispatched t fs t')
      (hnext : t'.Absorbs news t'') : Dispatched t (fs ++ news) t''

/-- A step of a transport that takes in some of the waiting frames, dispatches each of them once and
answers how many there were. -/
structure Takes (t : Transport) (taken : List Frame) (count : Nat) (t' : Transport) : Prop where
  frames : taken ++ t'.input.frames = t.input.frames
  dropped : t'.input.dropped = t.input.dropped
  count_eq : count = taken.length
  counted : t'.counted = t.counted + taken.length
  absorbs : t.Absorbs taken t'

theorem Dispatches.takes {t t₁ t' : Transport} {q : FrameQueue} {taken : List Frame}
    (h : { t with input := q }.Dispatches taken t₁) (hapart : t₁.Apart t')
    (hframes : taken ++ q.frames = t.input.frames) (hdropped : q.dropped = t.input.dropped) :
    t.Takes taken taken.length t' := by
  obtain ⟨hcounted, hinput⟩ := h.counted
  obtain ⟨hcounted', hinput'⟩ := hapart.counted
  obtain rfl : t'.input = q := hinput'.trans hinput
  exact ⟨hframes, hdropped, rfl, hcounted'.trans hcounted, t₁, h, hapart⟩

theorem Takes.none {t t' : Transport} (hapart : t.Apart t') : t.Takes [] 0 t' :=
  (Dispatches.nothing t).takes hapart rfl rfl

theorem takes_handleFrames (t : Transport) :
    t.Takes t.input.frames t.handleFrames.1 t.handleFrames.2 :=
  t.dispatches_handleFrames.takes .same (List.append_nil _) rfl

/-- The frames that the link task takes in; before `init` there are none. -/
def runFrames (t : Transport) : List Frame :=
  if t.state = .uninitialized then [] else t.input.frames

theorem takes_run (t : Transport) : t.Takes t.runFrames t.run.1 t.run.2 := by
  unfold runFrames run
  split
  · exact .none .same
  · exact t.takes_handleFrames

end Transport

namespace ControlLoop

variable {ρ : Type}

def intakeFrames (c : ControlLoop ρ) (t : Transport) : List Frame :=
  if c.settings.framesInTick then t.input.frames else []

def intakeCount (c : ControlLoop ρ) (t : Transport) : Nat :=
  if c.settings.framesInTick then t.handleFrames.1 else 0

variable [Rig ρ]

theorem TickWay.apart {c loop : ControlLoop ρ} {link : LinkState} {t t' : Transport} {h h' : History}
    {outcome : Except BenchError TickOutcome} (hway : c.TickWay link t h outcome loop t' h') :
    t.Apart t' := by
  cases hway with
  | linkLost hlost => exact .reset
  | idle hidle => exact .same
  | failed hlink hrun hsample => exact .measured hrun _ t.data.measurement
  | sampled hs hwindow => exact .sampled hs.running _ _
  | expired hs hwindow => exact .expired hs.running _ _

theorem takes_tick (c : ControlLoop ρ) (link : LinkState) (t : Transport) :
    t.Takes (c.intakeFrames t) (c.intakeCount t) (c.tick link t).2.2 := by
  have hapart := (c.tickWay_tick link t []).apart
  unfold intake at hapart
  unfold intakeFrames intakeCount
  split at hapart
  · next hframes =>
    rw [if_pos hframes, if_pos hframes]
    exact t.dispatches_handleFrames.takes hapart (List.append_nil _) rfl
  · next hframes =>
    rw [if_neg hframes, if_neg hframes]
    exact .none hapart

theorem takes_init (c : ControlLoop ρ) (t : Transport) : t.Takes [] 0 (c.init t).2.2 := by
  unfold init
  split
  · exact .none .same
  · split
    · split
      · next hinit => exact .none (.init hinit)
      · exact .none .same
    · exact .none .same

end ControlLoop

inductive TrafficStage
  | absent
  | reading
  /-- Bytes have come and may hold frames. -/
  | decoding
  /-- The stream has lost its place. -/
  | failed
  deriving DecidableEq

/-- What happens on the way of frames: a session reads a piece of its stream and takes frames from
it one by one, or the bench does something meanwhile. -/
inductive TrafficAct
  | openSession
  | read (bytes : Bytes)
  | decode
  | closeSession
  | init
  | handle
  | service
  | tick
  | collect
  deriving DecidableEq

/-- A bench with its loop and the session of a client, and what has passed so far. -/
structure Traffic (ρ : Type) where
  loop : ControlLoop ρ
  bench : Bench
  stage : TrafficStage := .absent
  ended : List Bytes := []
  current : Bytes := []
  decoded : List Frame := []
  taken : List Frame := []
  /-- The sum of the numbers that were answered when frames were taken in. -/
  answered : Nat := 0

namespace Traffic

variable {ρ : Type}

def start (c : ControlLoop ρ) (b : Bench) : Traffic ρ := { loop := c, bench := b }

def decode (x : Traffic ρ) : Traffic ρ :=
  match x.bench.decoder.next with
  | (.ok (some f), decoder) =>
    { x with bench := { x.bench.submit f with decoder }, decoded := x.decoded ++ [f] }
  | (.ok none, decoder) => { x with bench := { x.bench with decoder }, stage := .reading }
  | (.error _, decoder) => { x with bench := { x.bench with decoder }, stage := .failed }

variable [Rig ρ]

/-- One act; what is not possible at a stage does not happen. A session ends while it waits for
bytes or because it failed, never between two frames of a piece. -/
def step (x : Traffic ρ) : TrafficAct → Traffic ρ
  | .openSession =>
    if x.stage = .absent then { x with bench := x.bench.openSession, stage := .reading } else x
  | .read bytes =>
    if x.stage = .reading then
      { x with
        bench := { x.bench with decoder := x.bench.decoder.feed bytes }
        stage := .decoding
        current := x.current ++ bytes }
    else x
  | .decode => if x.stage = .decoding then x.decode else x
  | .closeSession =>
    if x.stage = .reading ∨ x.stage = .failed then
      { x with
        bench := x.bench.closeSession
        stage := .absent
        ended := x.ended ++ [x.current]
        current := [] }
    else x
  | .init =>
    let (_, loop, transport) := x.loop.init x.bench.transport
    { x with loop, bench := { x.bench with transport } }
  | .handle =>
    let (count, bench) := x.bench.onTransport Transport.handleFrames
    { x with
      bench
      taken := x.taken ++ x.bench.transport.input.frames
      answered := x.answered + count }
  | .service =>
    let (count, bench) := x.bench.onTransport Transport.run
    { x with
      bench
      taken := x.taken ++ x.bench.transport.runFrames
      answered := x.answered + count }
  | .tick =>
    let (_, loop, bench) := x.bench.tick x.loop
    { x with
      loop
      bench
      taken := x.taken ++ x.loop.intakeFrames x.bench.transport
      answered := x.answered + x.loop.intakeCount x.bench.transport }
  | .collect => { x with bench := x.bench.collect.2 }

def after (x : Traffic ρ) (acts : List TrafficAct) : Traffic ρ := acts.foldl step x

omit [Rig ρ]

def inbox (x : Traffic ρ) : FrameQueue := x.bench.transport.input

def streams (x : Traffic ρ) : List Bytes := x.ended ++ [x.current]

/-- The frames that streams hold before they end or lose their place. -/
def framesOf (streams : List Bytes) : List Frame := streams.flatMap fun s => (parseStream s).1

def pending (x : Traffic ρ) : List Frame :=
  if x.stage = .decoding then (parseStream x.bench.decoder.buffer).1 else []

theorem parseStream_nil : parseStream [] = ([], .incomplete []) := by
  simp [parseStream]

structure Decodes (x : Traffic ρ) (given : List Frame) : Prop where
  absent : x.stage = .absent → x.current = [] ∧ given = []
  buffer : x.stage ≠ .absent → x.current = Frame.encodeAll given ++ x.bench.decoder.buffer
  clean : x.stage = .reading ∨ x.stage = .decoding → x.bench.decoder.poisoned = false
  empty : x.stage = .reading ∨ x.stage = .failed → (parseStream x.bench.decoder.buffer).1 = []

theorem Decodes.frames_current {x : Traffic ρ} {given : List Frame} (hx : x.Decodes given) :
    (parseStream x.current).1 = given ++ x.pending := by
  unfold pending
  cases hs : x.stage with
  | absent =>
    obtain ⟨hcurrent, rfl⟩ := hx.absent hs
    rw [hcurrent, parseStream_nil]
    rfl
  | reading =>
    rw [hx.buffer (by simp [hs]), parseStream_encodeAll_append, hx.empty (.inl hs)]
    rfl
  | decoding =>
    rw [hx.buffer (by simp [hs]), parseStream_encodeAll_append]
    rfl
  | failed =>
    rw [hx.buffer (by simp [hs]), parseStream_encodeAll_append, hx.empty (.inr hs)]
    rfl

/-- The decoded frames are those of the ended streams and some of the current one. -/
def Follows (x : Traffic ρ) : Prop :=
  ∃ given, x.decoded = framesOf x.ended ++ given ∧ x.Decodes given

theorem Follows.decoded_append_pending {x : Traffic ρ} (hx : x.Follows) :
    x.decoded ++ x.pending = framesOf x.streams := by
  obtain ⟨given, hdecoded, hx⟩ := hx
  rw [hdecoded, List.append_assoc, ← hx.frames_current, streams, framesOf, framesOf,
    List.flatMap_append, List.flatMap_singleton]

theorem Follows.decode {x : Traffic ρ} (hx : x.Follows) (hs : x.stage = .decoding) :
    x.decode.Follows := by
  obtain ⟨given, hdecoded, hx⟩ := hx
  have hclean := hx.clean (.inr hs)
  have hbuffer := hx.buffer (by simp [hs])
  unfold Traffic.decode
  split
  · next f d hnext =>
    obtain ⟨-, hclean', hfront⟩ := FrameDecoder.next_frame hnext
    refine ⟨given ++ [f], by rw [hdecoded, List.append_assoc], ?_⟩
    refine ⟨fun h => by simp [hs] at h, fun _ => ?_, fun _ => hclean', fun h => by simp [hs] at h⟩
    simp [hbuffer, hfront]
  · next d hnext =>
    obtain ⟨rfl, -, hparse, -⟩ := FrameDecoder.next_none hnext
    refine ⟨given, hdecoded, nofun, fun _ => hbuffer, fun _ => hclean, fun _ => ?_⟩
    rw [hparse]
  · next e d hnext =>
    obtain ⟨rfl, hcause⟩ := FrameDecoder.next_error hnext
    refine ⟨given, hdecoded, nofun, fun _ => hbuffer, nofun, fun _ => ?_⟩
    rcases hcause with hpoisoned | ⟨id, length, rest, hfront, hid⟩
    · rw [hclean] at hpoisoned
      cases hpoisoned
    · change (parseStream x.bench.decoder.buffer).1 = []
      rw [hfront, parseStream_of_invalid _ _ hid]

theorem Follows.step [Rig ρ] {x : Traffic ρ} (hx : x.Follows) (a : TrafficAct) :
    (x.step a).Follows := by
  -- acts of the bench touch neither the decoder nor the streams
  have hsame : ∀ {y : Traffic ρ}, y.stage = x.stage → y.bench.decoder = x.bench.decoder →
      y.ended = x.ended → y.current = x.current → y.decoded = x.decoded → y.Follows := by
    intro y hstage hdecoder hended hcurrent hdecoded
    obtain ⟨given, hgiven, hd⟩ := hx
    refine ⟨given, by rw [hdecoded, hended, hgiven], ?_⟩
    constructor <;> rw [hstage] <;> simp only [hcurrent, hdecoder]
    exacts [hd.absent, hd.buffer, hd.clean, hd.empty]
  cases a with
  | openSession =>
    unfold Traffic.step
    dsimp only
    split
    · next hs =>
      obtain ⟨given, hgiven, hd⟩ := hx
      obtain ⟨hcurrent, rfl⟩ := hd.absent hs
      refine ⟨[], hgiven, nofun, fun _ => hcurrent, fun _ => rfl, fun _ => ?_⟩
      exact congrArg Prod.fst parseStream_nil
    · exact hx
  | read bytes =>
    unfold Traffic.step
    dsimp only
    split
    · next hs =>
      obtain ⟨given, hgiven, hd⟩ := hx
      refine ⟨given, hgiven, nofun, fun _ => ?_, fun _ => hd.clean (.inl hs), nofun⟩
      rw [hd.buffer (by simp [hs]), List.append_assoc]
      rfl
    · exact hx
  | decode =>
    unfold Traffic.step
    dsimp only
    split
    · next hs => exact hx.decode hs
    · exact hx
  | closeSession =>
    unfold Traffic.step
    dsimp only
    split
    · next hs =>
      obtain ⟨given, hgiven, hd⟩ := hx
      refine ⟨[], ?_, fun _ => ⟨rfl, rfl⟩, fun h => absurd rfl h, nofun, nofun⟩
      have hdrained : x.pending = [] := if_neg (by rcases hs with hs | hs <;> simp [hs])
      have hframes := hd.frames_current
      rw [hdrained, List.append_nil] at hframes
      change x.decoded = framesOf (x.ended ++ [x.current]) ++ []
      rw [hgiven, ← hframes, List.append_nil, framesOf, framesOf, List.flatMap_append,
        List.flatMap_singleton]
    · exact hx
  | init => exact hsame rfl rfl rfl rfl rfl
  | handle => exact hsame rfl rfl rfl rfl rfl
  | service => exact hsame rfl rfl rfl rfl rfl
  | tick => exact hsame rfl rfl rfl rfl rfl
  | collect => exact hsame rfl rfl rfl rfl rfl

/-- What was taken in and what waits are some of the decoded frames, in order, and every decoded
frame was counted, discarded or waits. -/
structure Accounted (x : Traffic ρ) : Prop where
  order : (x.taken ++ x.inbox.frames).Sublist x.decoded
  decoded_length :
    x.decoded.length = x.bench.transport.counted + x.inbox.dropped + x.inbox.frames.length
  taken_length : x.taken.length = x.bench.transport.counted
  answered_eq : x.answered = x.bench.transport.counted

theorem Accounted.eq_decoded {x : Traffic ρ} (hx : x.Accounted) (hlost : x.inbox.dropped = 0) :
    x.taken ++ x.inbox.frames = x.decoded := by
  apply hx.order.eq_of_length
  rw [List.length_append, hx.taken_length, hx.decoded_length, hlost]
  rfl

/-- On the way of frames an act does one of two things: a decoder gives a frame, which is put into
the queue, or the transport takes some in. -/
inductive Passage (x y : Traffic ρ) : Prop
  | given (f : Frame) (decoded : y.decoded = x.decoded ++ [f])
      (pushed : y.bench.transport = { x.bench.transport with input := x.inbox.push f })
      (taken : y.taken = x.taken) (answered : y.answered = x.answered)
  | took {news : List Frame} {count : Nat}
      (takes : x.bench.transport.Takes news count y.bench.transport)
      (decoded : y.decoded = x.decoded) (taken : y.taken = x.taken ++ news)
      (answered : y.answered = x.answered + count)

theorem Passage.quiet {x y : Traffic ρ} (hapart : x.bench.transport.Apart y.bench.transport)
    (hdecoded : y.decoded = x.decoded) (htaken : y.taken = x.taken)
    (hanswered : y.answered = x.answered) : x.Passage y :=
  .took (.none hapart) hdecoded (htaken.trans (List.append_nil _).symm) hanswered

theorem passage_decode (x : Traffic ρ) : x.Passage x.decode := by
  unfold decode
  split
  · next f d hnext => exact .given f rfl rfl rfl rfl
  · exact .quiet .same rfl rfl rfl
  · exact .quiet .same rfl rfl rfl

theorem passage_step [Rig ρ] (x : Traffic ρ) (a : TrafficAct) : x.Passage (x.step a) := by
  have hsame : x.Passage x := .quiet .same rfl rfl rfl
  cases a with
  | openSession =>
    unfold step
    dsimp only
    split
    · exact .quiet (.output _) rfl rfl rfl
    · exact hsame
  | read bytes =>
    unfold step
    dsimp only
    split
    · exact .quiet .same rfl rfl rfl
    · exact hsame
  | decode =>
    unfold step
    dsimp only
    split
    · exact x.passage_decode
    · exact hsame
  | closeSession =>
    unfold step
    dsimp only
    split
    · exact .quiet (.output _) rfl rfl rfl
    · exact hsame
  | init =>
    exact .took (x.loop.takes_init x.bench.transport) rfl (List.append_nil _).symm rfl
  | handle => exact .took x.bench.transport.takes_handleFrames rfl rfl rfl
  | service => exact .took x.bench.transport.takes_run rfl rfl rfl
  | tick => exact .took (x.loop.takes_tick x.bench.link x.bench.transport) rfl rfl rfl
  | collect => exact .quiet (.output _) rfl rfl rfl

theorem Passage.absorbs {x y : Traffic ρ} (h : x.Passage y) :
    ∃ news, y.taken = x.taken ++ news ∧ x.bench.transport.Absorbs news y.bench.transport := by
  cases h with
  | given f decoded pushed taken answered =>
    refine ⟨[], taken.trans (List.append_nil _).symm, _, .nothing _, ?_⟩
    rw [pushed]
    exact .same
  | took takes decoded taken answered => exact ⟨_, taken, takes.absorbs⟩

theorem Accounted.passage {x y : Traffic ρ} (hx : x.Accounted) (h : x.Passage y) :
    y.Accounted := by
  cases h with
  | given f decoded pushed taken answered =>
    have hinbox : y.inbox = x.inbox.push f := congrArg Transport.input pushed
    have hcounted : y.bench.transport.counted = x.bench.transport.counted := by
      rw [pushed]
      rfl
    refine ⟨?_, ?_, ?_, ?_⟩
    · have hpush : (x.taken ++ (x.inbox.push f).frames).Sublist
          (x.taken ++ x.inbox.frames ++ [f]) := by
        rw [List.append_assoc]
        exact (x.inbox.frames_push_sublist f).append_left x.taken
      rw [taken, hinbox, decoded]
      exact hpush.trans (hx.order.append_right [f])
    · have hpush := x.inbox.dropped_add_length_push f
      have hbefore := hx.decoded_length
      rw [decoded, hinbox, hcounted, List.length_append, List.length_singleton]
      omega
    · rw [taken, hcounted, hx.taken_length]
    · rw [answered, hcounted, hx.answered_eq]
  | @took news count takes decoded taken answered =>
    have hframes : news ++ y.inbox.frames = x.inbox.frames := takes.frames
    have hlength := congrArg List.length hframes
    rw [List.length_append] at hlength
    have hdropped : y.inbox.dropped = x.inbox.dropped := takes.dropped
    refine ⟨?_, ?_, ?_, ?_⟩
    · rw [taken, decoded, List.append_assoc, hframes]
      exact hx.order
    · rw [decoded, hx.decoded_length, takes.counted, hdropped, ← hlength]
      omega
    · rw [taken, List.length_append, hx.taken_length, takes.counted]
    · rw [answered, hx.answered_eq, takes.count_eq, takes.counted]

theorem dispatched_after [Rig ρ] (acts : List TrafficAct) {t : Transport} {x : Traffic ρ}
    (hx : t.Dispatched x.taken x.bench.transport) :
    t.Dispatched (x.after acts).taken (x.after acts).bench.transport := by
  induction acts generalizing x with
  | nil => exact hx
  | cons a acts ih =>
    obtain ⟨news, htaken, habsorbs⟩ := (x.passage_step a).absorbs
    exact ih (htaken ▸ hx.next habsorbs)

theorem step_service [Rig ρ] (x : Traffic ρ) :
    x.step .service =
      if x.bench.transport.state = .uninitialized then x else x.step .handle := by
  by_cases hs : x.bench.transport.state = .uninitialized
  · have hrun : x.bench.transport.run = (0, x.bench.transport) := if_pos hs
    have hframes : x.bench.transport.runFrames = [] := if_pos hs
    rw [if_pos hs]
    simp [step, Bench.onTransport, hrun, hframes]
  · have hrun : x.bench.transport.run = x.bench.transport.handleFrames := if_neg hs
    have hframes : x.bench.transport.runFrames = x.bench.transport.input.frames := if_neg hs
    rw [if_neg hs]
    simp only [step, Bench.onTransport, hrun, hframes]

theorem Accounted.start (c : ControlLoop ρ) (inputCapacity outputCapacity : Nat) :
    (start c (.new inputCapacity outputCapacity)).Accounted :=
  ⟨List.Sublist.refl _, rfl, rfl, rfl⟩

theorem Follows.start (c : ControlLoop ρ) (b : Bench) : (start c b).Follows :=
  ⟨[], rfl, fun _ => ⟨rfl, rfl⟩, fun h => absurd rfl h, nofun, nofun⟩

/-- Decoding until there is nothing to decode is draining the decoder into the input queue. -/
theorem exists_decodes_eq_drain [Rig ρ] (d : FrameDecoder) (x : Traffic ρ)
    (hs : x.stage = .decoding) (hd : x.bench.decoder = d) :
    ∃ n, x.after (.replicate n .decode) =
      { x with
        bench := { x.bench with
          decoder := d.drain.2.2
          transport := { x.bench.transport with input := x.inbox.pushAll d.drain.1 } }
        stage := if d.drain.2.1.isSome then .failed else .reading
        decoded := x.decoded ++ d.drain.1 } := by
  have hstep : x.step .decode = x.decode := if_pos hs
  fun_induction FrameDecoder.drain d generalizing x with
  | case1 d f d' hnext fs e d'' hdrain ih =>
    have hdecode : x.decode =
        { x with bench := { x.bench.submit f with decoder := d' }, decoded := x.decoded ++ [f] } := by
      unfold Traffic.decode
      rw [hd, hnext]
    obtain ⟨n, hrun⟩ := ih x.decode (by rw [hdecode]; exact hs) (by rw [hdecode])
      (if_pos (by rw [hdecode]; exact hs))
    refine ⟨n + 1, ?_⟩
    rw [List.replicate_succ, after, List.foldl_cons, hstep, ← after, hrun, hdrain, hdecode]
    simp [inbox, Bench.submit, FrameQueue.pushAll]
  | case2 d d' hnext =>
    refine ⟨1, ?_⟩
    change x.step .decode = _
    rw [hstep, Traffic.decode, hd, hnext]
    simp [FrameQueue.pushAll, inbox]
  | case3 d e d' hnext =>
    refine ⟨1, ?_⟩
    change x.step .decode = _
    rw [hstep, Traffic.decode, hd, hnext]
    simp [FrameQueue.pushAll, inbox]

/-- Taking in a piece of the stream as a whole is to read it and to decode all that is in it. -/
theorem exists_acts_eq_receive [Rig ρ] {x : Traffic ρ} (hs : x.stage = .reading) (bytes : Bytes) :
    ∃ n, let y := x.after (.read bytes :: .replicate n .decode)
      y.bench = (x.bench.receive bytes).2 ∧
      y.stage = if (x.bench.receive bytes).1.isSome then .failed else .reading := by
  have hread : x.step (.read bytes) =
      { x with
        bench := { x.bench with decoder := x.bench.decoder.feed bytes }
        stage := .decoding
        current := x.current ++ bytes } := if_pos hs
  obtain ⟨n, hrun⟩ := exists_decodes_eq_drain (x.bench.decoder.feed bytes) (x.step (.read bytes))
    (by rw [hread]) (by rw [hread])
  refine ⟨n, ?_⟩
  rw [after, List.foldl_cons, ← after, hrun, hread]
  exact ⟨rfl, rfl⟩

theorem after_induction [Rig ρ] {P : Traffic ρ → Prop} (hstep : ∀ {x} a, P x → P (x.step a))
    (acts : List TrafficAct) {x : Traffic ρ} (hx : P x) : P (x.after acts) := by
  induction acts generalizing x with
  | nil => exact hx
  | cons a acts ih => exact ih (hstep a hx)

end Traffic

/-- Every frame a client gets onto the wire is dispatched once and in order, for every sequence of
sessions, every cut of their streams and every interleaving with `init`, ticks and the link task.
The decoded frames, with those that have come and are not decoded yet, are the frames of all
streams, session by session; none are left once a piece is decoded. While nothing was dropped, the
frames taken in and those that wait are the decoded ones; whatever was dropped, they are some of
them, in order, and the decoded frames are as many as were handled, rejected, ignored or dropped, or
wait. The answers add up to what was taken in. The transport is what dispatching the frames taken in
makes of it, one after the other, in every act and from the start; taking in frames by
`handle_frames` dispatches all that wait and does nothing else, and so does the link task after
`init`. A bench that takes in a piece as a whole does nothing else than read and decode it. -/
theorem frames_dispatched_once {ρ : Type} [Rig ρ] (c : ControlLoop ρ)
    (inputCapacity outputCapacity : Nat) (acts : List TrafficAct) :
    let start := Traffic.start c (.new inputCapacity outputCapacity)
    let x := start.after acts
    let stats := x.bench.transport.stats
    let counted := stats.handled + stats.rejected + stats.ignored
    x.decoded ++ x.pending = x.streams.flatMap (fun stream => (parseStream stream).1) ∧
    (x.stage ≠ .decoding → x.pending = []) ∧
    (x.inbox.dropped = 0 → x.taken ++ x.inbox.frames = x.decoded) ∧
    (x.taken ++ x.inbox.frames).Sublist x.decoded ∧
    x.decoded.length = counted + x.inbox.dropped + x.inbox.length ∧
    x.taken.length = counted ∧ x.answered = counted ∧
    start.bench.transport.Dispatched x.taken x.bench.transport ∧
    (∀ a, ∃ news, (x.step a).taken = x.taken ++ news ∧
      x.bench.transport.Absorbs news (x.step a).bench.transport) ∧
    { x.bench.transport with input := x.inbox.clear }.Dispatches x.inbox.frames
      (x.step .handle).bench.transport ∧
    x.step .service =
      (if x.bench.transport.state = .uninitialized then x else x.step .handle) ∧
    (x.stage = .reading → ∀ bytes, ∃ n,
      let y := x.after (.read bytes :: .replicate n .decode)
      y.bench = (x.bench.receive bytes).2 ∧
      y.stage = if (x.bench.receive bytes).1.isSome then .failed else .reading) := by
  intro start x stats counted
  have hfollows : x.Follows :=
    Traffic.after_induction (fun a hx => hx.step a) acts (Traffic.Follows.start c _)
  have haccounted : x.Accounted :=
    Traffic.after_induction (fun {x} a hx => hx.passage (x.passage_step a)) acts
      (Traffic.Accounted.start c inputCapacity outputCapacity)
  exact ⟨hfollows.decoded_append_pending, fun hs => if_neg hs, haccounted.eq_decoded,
    haccounted.order, haccounted.decoded_length, haccounted.taken_length, haccounted.answered_eq,
    Traffic.dispatched_after acts .start, fun a => (x.passage_step a).absorbs,
    x.bench.transport.dispatches_handleFrames, x.step_service,
    fun hs bytes => Traffic.exists_acts_eq_receive hs bytes⟩

end RigBench
