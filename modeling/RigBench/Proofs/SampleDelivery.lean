import RigBench.Proofs.Feed

/-!
What clients are sent. Beside a run of the server it is noted which samples were queued, which of
them were lost and which ones each session took out. The bytes a client was sent are those of the
samples its session took out, as far as they got written, and these samples are from the window of
that session alone.
-/
namespace RigBench

theorem parseStream_of_cut {f : Frame} {part : Bytes} (hpart : part <+: f.encode)
    (hcut : part ≠ f.encode) : parseStream part = ([], .incomplete part) := by
  match part with
  | [] => simp [parseStream]
  | [b] => simp [parseStream]
  | id :: length :: rest =>
    obtain ⟨missing, hwhole⟩ := hpart
    have hhead := hwhole
    rw [Frame.encode, List.cons_append, List.cons_append, List.cons.injEq, List.cons.injEq] at hhead
    obtain ⟨rfl, rfl, hpayload⟩ := hhead
    have hshort : rest.length < f.payload.length := by
      have hlength := congrArg List.length hpayload
      rw [List.length_append] at hlength
      have hmissing : missing ≠ [] := by
        rintro rfl
        rw [List.append_nil] at hwhole
        exact hcut hwhole
      have hpos := List.length_pos_iff.mpr hmissing
      omega
    rw [parseStream]
    simp only [f.id_le, f.toNat_lengthByte, hshort, ↓reduceDIte, ↓reduceIte]

/-- Wherever the bytes of frames are cut, there are whole frames and a part of the next one. -/
theorem parseStream_of_isPrefix {fs : List Frame} {bytes : Bytes}
    (h : bytes <+: Frame.encodeAll fs) :
    ∃ sent rest part, fs = sent ++ rest ∧ bytes = Frame.encodeAll sent ++ part ∧
      parseStream bytes = (sent, .incomplete part) := by
  induction fs generalizing bytes with
  | nil =>
    obtain rfl := List.prefix_nil.mp h
    exact ⟨[], [], [], rfl, rfl, by simp [parseStream]⟩
  | cons f fs ih =>
    rw [Frame.encodeAll_cons] at h
    by_cases hfirst : f.encode <+: bytes
    · obtain ⟨more, rfl⟩ := hfirst
      obtain ⟨sent, rest, part, rfl, rfl, hparse⟩ :=
        ih ((List.prefix_append_right_inj f.encode).mp h)
      refine ⟨f :: sent, rest, part, rfl, ?_, ?_⟩
      · rw [Frame.encodeAll_cons, List.append_assoc]
      · rw [parseStream_encode_append, hparse]
    · have hcut : bytes <+: f.encode :=
        (List.prefix_or_prefix_of_prefix h (List.prefix_append _ _)).resolve_right hfirst
      refine ⟨[], f :: fs, bytes, rfl, rfl, parseStream_of_cut hcut ?_⟩
      rintro rfl
      exact hfirst (List.prefix_refl _)

def ServerEvent.sample? : ServerEvent → Option Frame
  | .push f => some f
  | _ => none

structure Delivery where
  server : Server
  feed : Feed
  logs : List SessionLog := []

namespace Delivery

def start (s : Server) : Delivery where
  server := s
  feed := { pushed := s.output.frames, waiting := s.output.frames.zipIdx }

def stopWriter (d : Delivery) (k : Nat) : Delivery :=
  if (d.server.sessions[k]?.map (·.phase)) = some .ending then
    { d with logs := d.logs.modify k fun log => { log with closed := some d.feed.pushed.length } }
  else d

def note (d : Delivery) (s : Server) : ServerEvent → Delivery
  | .welcome => { d with server := s, logs := d.logs ++ [{ opened := d.feed.pushed.length }] }
  | .push f => { d with server := s, feed := d.feed.push d.server.output.isFull f }
  | .discard => { d with server := s, feed := d.feed.lose d.feed.waiting.length }
  | .start _ => { d with server := s, feed := d.feed.lose d.feed.waiting.length }
  | .clear _ => { d with server := s, feed := d.feed.takeAll }
  | .drain k =>
    { server := s
      feed := d.feed.takeAll
      logs := d.logs.modify k fun log => { log with drained := log.drained ++ d.feed.waiting } }
  | .receive k _ => { d with server := s }.stopWriter k
  | .hangUp k => { d with server := s }.stopWriter k
  | .notice k => { d with server := s }.stopWriter k
  | _ => { d with server := s }

def step (d : Delivery) (e : ServerEvent) : Option Delivery :=
  (d.server.step e).map fun s => d.note s e

def run (d : Delivery) (events : List ServerEvent) : Option Delivery := events.foldlM step d

theorem server_stopWriter (d : Delivery) (k : Nat) : (d.stopWriter k).server = d.server := by
  unfold stopWriter
  split <;> rfl

theorem server_note (d : Delivery) (s : Server) (e : ServerEvent) : (d.note s e).server = s := by
  cases e with
  | receive k bytes => exact server_stopWriter _ k
  | hangUp k => exact server_stopWriter _ k
  | notice k => exact server_stopWriter _ k
  | _ => rfl

/-- Noting does not disturb the server. -/
theorem exists_run {d : Delivery} {s : Server} {events : List ServerEvent}
    (hrun : d.server.run events = some s) : ∃ d', d.run events = some d' ∧ d'.server = s := by
  induction events generalizing d with
  | nil => exact ⟨d, rfl, Option.some.inj hrun⟩
  | cons e events ih =>
    obtain ⟨t, ht, hrun⟩ := Option.bind_eq_some_iff.mp hrun
    obtain ⟨d', hd', hs⟩ := ih (d := d.note t e) (by rw [server_note]; exact hrun)
    refine ⟨d', ?_, hs⟩
    rw [run, List.foldlM_cons, step, ht]
    exact hd'

theorem feed_stopWriter (d : Delivery) (k : Nat) : (d.stopWriter k).feed = d.feed := by
  unfold stopWriter
  split <;> rfl

theorem pushed_note (d : Delivery) (s : Server) (e : ServerEvent) :
    (d.note s e).feed.pushed = d.feed.pushed ++ e.sample?.toList := by
  cases e with
  | push f => exact Feed.pushed_push d.feed d.server.output.isFull f
  | receive k bytes =>
    rw [note, feed_stopWriter]
    exact (List.append_nil _).symm
  | hangUp k =>
    rw [note, feed_stopWriter]
    exact (List.append_nil _).symm
  | notice k =>
    rw [note, feed_stopWriter]
    exact (List.append_nil _).symm
  | _ => exact (List.append_nil _).symm

theorem pushed_run {d d' : Delivery} {events : List ServerEvent} (hrun : d.run events = some d') :
    d'.feed.pushed = d.feed.pushed ++ events.filterMap ServerEvent.sample? := by
  induction events generalizing d with
  | nil =>
    obtain rfl := Option.some.inj hrun
    exact (List.append_nil _).symm
  | cons e events ih =>
    obtain ⟨t, ht, hrun⟩ := Option.bind_eq_some_iff.mp hrun
    obtain ⟨s, -, rfl⟩ := Option.map_eq_some_iff.mp ht
    rw [ih hrun, pushed_note, List.append_assoc]
    cases he : e.sample? with
    | none => rw [List.filterMap_cons_none he, Option.toList_none, List.nil_append]
    | some f => rw [List.filterMap_cons_some he, Option.toList_some, List.singleton_append]

structure Sound (d : Delivery) : Prop where
  exclusive : d.server.Exclusive
  frames : d.feed.waiting.map Prod.fst = d.server.output.frames
  length : d.logs.length = d.server.sessions.length
  serves : ∀ (k : Nat) x log, d.server.sessions[k]? = some x → d.logs[k]? = some log →
    d.feed.Serves x log
  apart : ∀ (j k : Nat) log log', j < k → d.logs[j]? = some log → d.logs[k]? = some log' →
    ∃ n, log.closed = some n ∧ n ≤ log'.opened

namespace Sound

variable {d : Delivery} {s : Server}

theorem start (input output : FrameQueue) (shutdown : Watch) :
    (start (.new input output shutdown)).Sound where
  exclusive := .start input output shutdown
  frames := List.zipIdx_map_fst _ _
  length := rfl
  serves _ _ _ hk := by cases hk
  apart _ _ _ _ _ hj := by cases hj

theorem of_same (h : d.Sound) (hs : s.Exclusive) (hsessions : s.sessions = d.server.sessions)
    {feed : Feed} (hframes : feed.waiting.map Prod.fst = s.output.frames)
    (hserves : ∀ x log, d.feed.Serves x log → feed.Serves x log) :
    Sound { server := s, feed, logs := d.logs } where
  exclusive := hs
  frames := hframes
  length := by rw [hsessions]; exact h.length
  serves k x log hk hlog := by
    rw [hsessions] at hk
    exact hserves x log (h.serves k x log hk hlog)
  apart := h.apart

theorem frames_push (h : d.Sound) (f : Frame) :
    (d.feed.push d.server.output.isFull f).waiting.map Prod.fst =
      (d.server.output.push f).frames := by
  rw [FrameQueue.frames_push, ← h.frames]
  unfold Feed.push
  split
  · simp [Feed.append, Feed.lose]
  · simp [Feed.append]

theorem closed_of_not_active (h : d.Sound) {k : Nat} {log : SessionLog}
    (hover : ¬d.server.Active k) (hlog : d.logs[k]? = some log) :
    ∃ n, log.closed = some n ∧ n ≤ d.feed.pushed.length := by
  have hlt : k < d.server.sessions.length := by
    rw [← h.length]
    exact (List.getElem?_eq_some_iff.mp hlog).1
  have hk : d.server.sessions[k]? = some d.server.sessions[k] := List.getElem?_eq_getElem hlt
  have hstopped : ¬d.server.sessions[k].Serves := fun hserves => hover ⟨_, hk, hserves.not_over⟩
  obtain ⟨n, hn, -, hle⟩ := ((h.serves k _ log hk hlog).closes hstopped).closed
  exact ⟨n, hn, hle⟩

theorem exists_log (h : d.Sound) {k : Nat} {x : Session} (hk : d.server.sessions[k]? = some x) :
    ∃ log, d.logs[k]? = some log := by
  have hlt := (List.getElem?_eq_some_iff.mp hk).1
  rw [← h.length] at hlt
  exact ⟨d.logs[k], List.getElem?_eq_getElem hlt⟩

theorem welcome (h : d.Sound) (hphase : d.server.acceptor = .welcoming)
    (hs : s.Exclusive) (hsessions : s.sessions = d.server.sessions ++ [{ seen := d.server.seen }])
    (houtput : s.output = d.server.output) :
    Sound { d with server := s, logs := d.logs ++ [{ opened := d.feed.pushed.length }] } := by
  refine ⟨hs, ?_, ?_, fun k x log hk hlog => ?_, fun j k log log' hjk hj hk => ?_⟩
  · rw [houtput]
    exact h.frames
  · rw [hsessions, List.length_append, List.length_append, h.length]
    rfl
  · rw [hsessions, List.getElem?_append] at hk
    dsimp only at hlog
    rw [List.getElem?_append, h.length] at hlog
    split at hk
    · next hold =>
      rw [if_pos hold] at hlog
      exact h.serves k x log hk hlog
    · next hnew =>
      rw [if_neg hnew, List.getElem?_singleton] at hlog
      rw [List.getElem?_singleton] at hk
      split at hk
      · next hfirst =>
        rw [if_pos hfirst] at hlog
        obtain rfl := Option.some.inj hk
        obtain rfl := Option.some.inj hlog
        exact .fresh d.feed d.server.seen
      · cases hk
  · dsimp only at hj hk
    have hjlt : j < d.logs.length := by
      have hklt := (List.getElem?_eq_some_iff.mp hk).1
      rw [List.length_append, List.length_singleton] at hklt
      omega
    rw [List.getElem?_append_left hjlt] at hj
    rw [List.getElem?_append, List.getElem?_singleton] at hk
    split at hk
    · exact h.apart j k log log' hjk hj hk
    split at hk
    · obtain rfl := Option.some.inj hk
      exact h.closed_of_not_active (h.exclusive.not_active (h.exclusive.welcoming hphase) j) hj
    · cases hk

theorem session (h : d.Sound) (hs : s.Exclusive) {k : Nat} {x y : Session} {log log' : SessionLog}
    (hk : d.server.sessions[k]? = some x) (hlog : d.logs[k]? = some log)
    (hactive : d.server.Active k)
    (hsessions : s.sessions = d.server.sessions.set k y) {feed : Feed} {logs : List SessionLog}
    (hlogs : ∀ j, logs[j]? = if k = j then some log' else d.logs[j]?)
    (hlength : logs.length = d.logs.length) (hlater : d.feed.Later feed)
    (hframes : feed.waiting.map Prod.fst = s.output.frames)
    (hserves : feed.Serves y log') (hopened : log'.opened = log.opened) :
    Sound { server := s, feed, logs } := by
  have hlast := h.exclusive.last k hactive
  refine ⟨hs, hframes, ?_, fun j z log'' hj hlog'' => ?_, fun i j log₁ log₂ hij hi hj => ?_⟩
  · rw [hsessions, List.length_set, ← h.length]
    exact hlength
  · dsimp only at hlog''
    rw [hlogs] at hlog''
    rw [hsessions, List.getElem?_set] at hj
    split at hlog''
    · next heq =>
      subst heq
      rw [if_pos rfl, if_pos (List.getElem?_eq_some_iff.mp hk).1] at hj
      obtain rfl := Option.some.inj hj
      obtain rfl := Option.some.inj hlog''
      exact hserves
    · next hne =>
      rw [if_neg hne] at hj
      refine (h.serves j z log'' hj hlog'').later ?_ hlater
      -- the session that moves is the only one that is active
      intro hz
      have hother := h.exclusive.last j ⟨z, hj, hz.not_over⟩
      omega
  · dsimp only at hi hj
    have hjlt : j < s.sessions.length := by
      rw [hsessions, List.length_set, ← h.length, ← hlength]
      exact (List.getElem?_eq_some_iff.mp hj).1
    rw [hsessions, List.length_set] at hjlt
    rw [hlogs] at hi hj
    rw [if_neg (by omega)] at hi
    split at hj
    · next heq =>
      subst heq
      obtain rfl := Option.some.inj hj
      rw [hopened]
      exact h.apart i k log₁ log hij hi hlog
    · exact h.apart i j log₁ log₂ hij hi hj

theorem session_of_log (h : d.Sound) (hs : s.Exclusive) {k : Nat} {x y : Session}
    {log : SessionLog} (hk : d.server.sessions[k]? = some x) (hlog : d.logs[k]? = some log)
    (hactive : d.server.Active k) (hsessions : s.sessions = d.server.sessions.set k y)
    {feed : Feed} (hlater : d.feed.Later feed)
    (hframes : feed.waiting.map Prod.fst = s.output.frames) (hserves : feed.Serves y log) :
    Sound { d with server := s, feed } := by
  refine h.session hs hk hlog hactive hsessions (fun j => ?_) rfl hlater hframes hserves rfl
  split
  · next heq => rw [← heq, hlog]
  · rfl

theorem getElem?_modify {logs : List SessionLog} {k : Nat} {log : SessionLog}
    (hlog : logs[k]? = some log) (f : SessionLog → SessionLog) (j : Nat) :
    (logs.modify k f)[j]? = if k = j then some (f log) else logs[j]? := by
  rw [List.getElem?_modify]
  split
  · next heq =>
    rw [← heq, hlog]
    rfl
  · cases logs[j]? <;> rfl

theorem stopWriter (h : d.Sound) (hs : s.Exclusive) {k : Nat} {x y : Session}
    (hk : d.server.sessions[k]? = some x) (hx : x.phase = .serving)
    (hsessions : s.sessions = d.server.sessions.set k y) (houtput : s.output = d.server.output)
    (hphase : y.phase = .serving ∨ y.phase = .ending)
    (hbytes : y.written ++ y.unsent = x.written ++ x.unsent) :
    ({ d with server := s }.stopWriter k).Sound := by
  obtain ⟨log, hlog⟩ := h.exists_log hk
  have hserves := h.serves k x log hk hlog
  have hactive : d.server.Active k := ⟨x, hk, by rw [hx]; nofun⟩
  have hframes : d.feed.waiting.map Prod.fst = s.output.frames := by
    rw [houtput]
    exact h.frames
  have hy : s.sessions[k]? = some y := by
    rw [hsessions]
    exact Server.getElem?_set hk
  unfold Delivery.stopWriter
  rw [hy]
  rcases hphase with hphase | hphase
  · rw [if_neg (by simp [hphase])]
    exact h.session_of_log hs hk hlog hactive hsessions (.refl _) hframes
      (hserves.congr (hphase.trans hx.symm) hbytes)
  · rw [if_pos (by simp [hphase])]
    exact h.session hs hk hlog hactive hsessions (getElem?_modify hlog _) (List.length_modify ..)
      (.refl _) hframes (hserves.stop (.inr hx) hphase hbytes) rfl

theorem step {d' : Delivery} (h : d.Sound) {e : ServerEvent} (hstep : d.step e = some d') :
    d'.Sound := by
  obtain ⟨s, hs, rfl⟩ := Option.map_eq_some_iff.mp hstep
  have hs' : s.Exclusive := h.exclusive.step hs
  cases Server.way_of_step hs with
  | look hphase => exact h.of_same hs' rfl h.frames fun _ _ hx => hx
  | refuse hphase hup => exact h.of_same hs' rfl h.frames fun _ _ hx => hx
  | accept hphase hdown => exact h.of_same hs' rfl h.frames fun _ _ hx => hx
  | acceptFails hphase => exact h.of_same hs' rfl h.frames fun _ _ hx => hx
  | welcome hphase => exact h.welcome hphase hs' rfl rfl
  | heed hphase hnew => exact h.of_same hs' rfl h.frames fun _ _ hx => hx
  | abandon hphase hclosed hsame => exact h.of_same hs' rfl h.frames fun _ _ hx => hx
  | finish hphase hquiet => exact h.of_same hs' rfl h.frames fun _ _ hx => hx
  | push f => exact h.of_same hs' rfl (h.frames_push f) fun _ _ hx => hx.push _ f
  | discard => exact h.of_same hs' rfl (by simp [Feed.lose, FrameQueue.clear]) fun _ _ hx => hx.lose _
  | take => exact h.of_same hs' rfl h.frames fun _ _ hx => hx
  | setShutdown value hopen => exact h.of_same hs' rfl h.frames fun _ _ hx => hx
  | closeShutdown => exact h.of_same hs' rfl h.frames fun _ _ hx => hx
  | session hk hway =>
    obtain ⟨log, hlog⟩ := h.exists_log hk
    have hserves := h.serves _ _ log hk hlog
    have hactive : d.server.Active _ := ⟨_, hk, hway.not_over⟩
    cases hway with
    | start hx =>
      exact h.session_of_log hs' hk hlog hactive rfl (d.feed.later_lose _)
        (by simp [Feed.lose, FrameQueue.clear]) (hserves.start hx)
    | receive bytes hx =>
      exact h.stopWriter hs' hk hx rfl rfl (Session.phase_receive hx bytes) rfl
    | hangUp hx => exact h.stopWriter hs' hk hx rfl rfl (.inr rfl) rfl
    | drain hx hidle =>
      exact h.session hs' hk hlog hactive rfl (getElem?_modify hlog _) (List.length_modify ..)
        d.feed.later_takeAll rfl (hserves.drain hx hidle h.frames) rfl
    | write count hx =>
      refine h.session_of_log hs' hk hlog hactive rfl (.refl _) h.frames (hserves.congr rfl ?_)
      simp [Session.write]
    | notice hx hnew => exact h.stopWriter hs' hk hx rfl rfl (.inr rfl) rfl
    | clear hx =>
      refine h.session_of_log hs' hk hlog hactive rfl d.feed.later_takeAll rfl ?_
      refine hserves.finish ?_ ?_ d.feed.later_takeAll
      · simp [Session.Serves, hx]
      · simp [Session.Serves]
    | unmark hx =>
      refine h.session_of_log hs' hk hlog hactive rfl (.refl _) h.frames ?_
      refine hserves.finish ?_ ?_ (.refl _)
      · simp [Session.Serves, hx]
      · simp [Session.Serves]

theorem run {d' : Delivery} (h : d.Sound) {events : List ServerEvent}
    (hrun : d.run events = some d') : d'.Sound :=
  foldlM_keeps (fun _ _ {_ _} h hstep => h.step hstep) h hrun

end Sound
end Delivery

/-- What a client was sent are the samples its session took out, as whole frames up to where a write
was cut off, if one was. -/
structure Feed.Received (d : Feed) (x : Session) (log : SessionLog) : Prop extends
    d.Told log where
  unbroken : (∀ p ∈ d.window log, p.2 ∉ d.lost) → log.drained <+: d.window log
  whole : x.unsent = [] → x.written = Frame.encodeAll (log.drained.map Prod.fst)
  cut : ∃ sent rest part, log.drained.map Prod.fst = sent ++ rest ∧
    x.written = Frame.encodeAll sent ++ part ∧ parseStream x.written = (sent, .incomplete part)

theorem Feed.Serves.received {d : Feed} {x : Session} {log : SessionLog} (h : d.Serves x log) :
    d.Received x log := by
  refine { h.told with unbroken := h.told.isPrefix, whole := fun hidle => ?_, cut := ?_ }
  · rw [← h.bytes, hidle, List.append_nil]
  · refine parseStream_of_isPrefix ?_
    rw [← h.bytes]
    exact List.prefix_append _ _

/-- Each client receives samples of its own session alone, in order and once, for every sequence of
steps of the server and of the bench. What was sent are the encoded samples its session took out, up
to where a write failed or was given up; whoever reads finds these samples and then, at most, a part
of the next one. The session took them from those queued after it was marked as connected and before
its writer stopped, without a gap but for samples that were lost to a full queue, to a reset or to
the start of the session. The windows of two sessions are apart, so no sample goes to both. -/
theorem client_receives_own_samples (input output : FrameQueue) (shutdown : Watch)
    {events : List ServerEvent} {s : Server}
    (hrun : (Server.new input output shutdown).run events = some s) :
    ∃ d, (Delivery.start (.new input output shutdown)).run events = some d ∧ d.server = s ∧
      d.feed.pushed = output.frames ++ events.filterMap ServerEvent.sample? ∧
      d.logs.length = s.sessions.length ∧
      (∀ (k : Nat) x log, s.sessions[k]? = some x → d.logs[k]? = some log →
        d.feed.Received x log) ∧
      ∀ (j k : Nat) log log', j < k → d.logs[j]? = some log → d.logs[k]? = some log' →
        ∃ n, log.closed = some n ∧ n ≤ log'.opened := by
  obtain ⟨d, hd, rfl⟩ := Delivery.exists_run (d := .start _) hrun
  have h := (Delivery.Sound.start input output shutdown).run hd
  exact ⟨d, hd, rfl, Delivery.pushed_run hd, h.length,
    fun k x log hk hlog => (h.serves k x log hk hlog).received, h.apart⟩

/-- The first client leaves in the middle of a sample; the second one is sent what was queued after
its session started. -/
theorem client_receives_own_samples_second :
    let f (value : UInt8) : Frame :=
      { id := 10, payload := [value], length_le := Nat.le_of_ble_eq_true rfl }
    let start := Server.new (.new 4) (.new 4) {}
    let events : List ServerEvent :=
      [.push (f 0), .look, .connect, .welcome, .push (f 1), .start 0, .push (f 2), .push (f 3),
        .drain 0, .write 0 4, .push (f 4), .hangUp 0, .clear 0, .unmark 0, .push (f 5),
        .look, .connect, .welcome, .start 1, .push (f 6), .drain 1, .write 1 3]
    ∃ s, start.run events = some s ∧ ∃ x y, s.sessions = [x, y] ∧
      (∃ sent rest part, [f 2, f 3] = sent ++ rest ∧
        parseStream x.written = (sent, .incomplete part)) ∧
      y.written = (f 6).encode := by
  intro f start events
  have hshape : ((Delivery.start start).run events).map (fun d =>
      (d.server.sessions.map (·.unsent), d.logs.map (·.drained))) =
      some ([[1, 3], []], [[(f 2, 2), (f 3, 3)], [(f 6, 6)]]) := by decide
  obtain ⟨d, hd, hshape⟩ := Option.map_eq_some_iff.mp hshape
  obtain ⟨s, hs⟩ := Option.isSome_iff_exists.mp (show (start.run events).isSome by decide)
  obtain ⟨d', hd', rfl, -, -, hreceived, -⟩ := client_receives_own_samples _ _ _ hs
  obtain rfl := Option.some.inj (hd.symm.trans hd')
  obtain ⟨hsessions, hlogs⟩ := Prod.mk.inj hshape
  obtain ⟨x, sessions, hsessions', hx, hrest⟩ := List.map_eq_cons_iff.mp hsessions
  obtain ⟨y, sessions', rfl, hy, hnil⟩ := List.map_eq_cons_iff.mp hrest
  obtain rfl := List.map_eq_nil_iff.mp hnil
  obtain ⟨log, logs, hlogs', hlog, hrest⟩ := List.map_eq_cons_iff.mp hlogs
  obtain ⟨log', logs', rfl, hlog', -⟩ := List.map_eq_cons_iff.mp hrest
  have hfirst := hreceived 0 x log (by rw [hsessions']; rfl) (by rw [hlogs']; rfl)
  have hsecond := hreceived 1 y log' (by rw [hsessions']; rfl) (by rw [hlogs']; rfl)
  refine ⟨d.server, hs, x, y, hsessions', ?_, ?_⟩
  · obtain ⟨sent, rest, part, hdrained, -, hparse⟩ := hfirst.cut
    rw [hlog] at hdrained
    exact ⟨sent, rest, part, hdrained, hparse⟩
  · rw [hsecond.whole hy, hlog']
    rfl

end RigBench
