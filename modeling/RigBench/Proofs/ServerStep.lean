import RigBench.Proofs.Steps
import RigBench.Server

/-!
The steps of the server, each with the guard under which it is possible and all that it changes.
The theory of the server looks at its runs through these ways.
-/
namespace RigBench

/-- How session `k` moves: what becomes of it, of the two queues and of the link. -/
inductive Session.Way (x : Session) (s : Server) (k : Nat) :
    ServerEvent → Session → FrameQueue → FrameQueue → LinkState → Prop
  | start (hx : x.phase = .starting) :
    Way x s k (.start k) { x with phase := .serving } s.input s.output.clear s.link
  | receive (bytes : Bytes) (hx : x.phase = .serving) :
    Way x s k (.receive k bytes) (x.receive bytes).2 (s.input.pushAll (x.receive bytes).1)
      s.output s.link
  | hangUp (hx : x.phase = .serving) :
    Way x s k (.hangUp k) { x with phase := .ending } s.input s.output s.link
  | drain (hx : x.phase = .serving) (hidle : x.unsent = []) :
    Way x s k (.drain k) (x.load s.output.frames) s.input s.output.clear s.link
  | write (count : Nat) (hx : x.phase = .serving) :
    Way x s k (.write k count) (x.write count) s.input s.output s.link
  | notice (hx : x.phase = .serving) (hnew : s.shutdown.isNewTo x.seen = true) :
    Way x s k (.notice k) { x with seen := s.shutdown.changes, phase := .ending } s.input s.output
      s.link
  | clear (hx : x.phase = .ending) :
    Way x s k (.clear k) { x with phase := .cleared } s.input s.output.clear s.link
  | unmark (hx : x.phase = .cleared) :
    Way x s k (.unmark k) { x with phase := .over } s.input s.output s.link.disconnect

inductive Server.Way (s : Server) : ServerEvent → Server → Prop
  | look (h : s.acceptor = .looking) :
    Way s .look { s with acceptor := if s.shutdown.value then .closing else .waiting }
  | refuse (h : s.acceptor = .waiting) (hup : s.link.connected = true) :
    Way s .connect
      { s with arrivals := s.arrivals + 1, refused := s.refused + 1, acceptor := .looking }
  | accept (h : s.acceptor = .waiting) (hdown : s.link.connected = false) :
    Way s .connect { s with arrivals := s.arrivals + 1, acceptor := .welcoming }
  | acceptFails (h : s.acceptor = .waiting) : Way s .acceptFails { s with acceptor := .looking }
  | welcome (h : s.acceptor = .welcoming) :
    Way s .welcome { s with
      link := s.link.connect
      sessions := s.sessions ++ [{ seen := s.seen }]
      acceptor := .looking }
  | heed (h : s.acceptor = .waiting) (hnew : s.shutdown.changes ≠ s.seen) :
    Way s .heed { s with seen := s.shutdown.changes, acceptor := .looking }
  | abandon (h : s.acceptor = .waiting) (hclosed : s.shutdown.closed = true)
      (hseen : s.shutdown.changes = s.seen) : Way s .abandon { s with acceptor := .closing }
  | finish (h : s.acceptor = .closing) (hquiet : s.isQuiet = true) :
    Way s .finish { s with acceptor := .returned }
  | session {e : ServerEvent} {k : Nat} {x y : Session} {input output : FrameQueue}
      {link : LinkState} (hk : s.sessions[k]? = some x) (hway : x.Way s k e y input output link) :
    Way s e { s with sessions := s.sessions.set k y, input, output, link }
  | push (f : Frame) : Way s (.push f) { s with output := s.output.push f }
  | discard : Way s .discard { s with output := s.output.clear }
  | take : Way s .take { s with input := s.input.clear }
  | setShutdown (value : Bool) (hopen : s.shutdown.closed = false) :
    Way s (.setShutdown value) { s with shutdown := s.shutdown.set value }
  | closeShutdown : Way s .closeShutdown { s with shutdown := s.shutdown.close }

namespace Session

theorem advance_eq_some {x y : Session} {source target : SessionPhase}
    (h : x.advance source target = some y) :
    x.phase = source ∧ y = { x with phase := target } := by
  unfold advance at h
  split at h
  · next hx => exact ⟨hx, (Option.some.inj h).symm⟩
  · cases h

theorem phase_receive {x : Session} (hx : x.phase = .serving) (bytes : Bytes) :
    (x.receive bytes).2.phase = .serving ∨ (x.receive bytes).2.phase = .ending := by
  change (if _ then _ else _) = _ ∨ (if _ then _ else _) = _
  split
  · exact .inr rfl
  · exact .inl hx

end Session

namespace Server

theorem during_eq_some {s next t : Server} {phase : AcceptorPhase}
    (h : s.during phase next = some t) : s.acceptor = phase ∧ t = next := by
  unfold during at h
  split at h
  · next hphase => exact ⟨hphase, (Option.some.inj h).symm⟩
  · cases h

theorem update_eq_some {s t : Server} {k : Nat} {f : Session → Option Session}
    (h : s.update k f = some t) :
    ∃ x y, s.sessions[k]? = some x ∧ f x = some y ∧
      t = { s with sessions := s.sessions.set k y } := by
  obtain ⟨x, hk, h⟩ := Option.bind_eq_some_iff.mp h
  obtain ⟨y, hy, h⟩ := Option.bind_eq_some_iff.mp h
  exact ⟨x, y, hk, hy, (Option.some.inj h).symm⟩

theorem exists_of_advance {s t : Server} {k : Nat} {source target : SessionPhase}
    {output : FrameQueue} {link : LinkState}
    (h : update { s with output, link } k (·.advance source target) = some t) :
    ∃ x, s.sessions[k]? = some x ∧ x.phase = source ∧
      t = { s with sessions := s.sessions.set k { x with phase := target }, output, link } := by
  obtain ⟨x, y, hk, hy, rfl⟩ := update_eq_some h
  obtain ⟨hx, rfl⟩ := Session.advance_eq_some hy
  exact ⟨x, hk, hx, rfl⟩

theorem way_of_step {s t : Server} {e : ServerEvent} (h : s.step e = some t) : s.Way e t := by
  cases e with
  | look =>
    obtain ⟨hphase, rfl⟩ := during_eq_some h
    exact .look hphase
  | connect =>
    obtain ⟨hphase, rfl⟩ := during_eq_some h
    split
    · next hup => exact .refuse hphase hup
    · next hdown => exact .accept hphase ((Bool.not_eq_true _).mp hdown)
  | acceptFails =>
    obtain ⟨hphase, rfl⟩ := during_eq_some h
    exact .acceptFails hphase
  | welcome =>
    obtain ⟨hphase, rfl⟩ := during_eq_some h
    exact .welcome hphase
  | heed =>
    unfold step at h
    dsimp only at h
    split at h
    · cases h
    · next hnew =>
      obtain ⟨hphase, rfl⟩ := during_eq_some h
      exact .heed hphase hnew
  | abandon =>
    unfold step at h
    dsimp only at h
    split at h
    · next hend =>
      obtain ⟨hphase, rfl⟩ := during_eq_some h
      rw [Bool.and_eq_true, beq_iff_eq] at hend
      exact .abandon hphase hend.1 hend.2
    · cases h
  | finish =>
    unfold step at h
    dsimp only at h
    split at h
    · next hquiet =>
      obtain ⟨hphase, rfl⟩ := during_eq_some h
      exact .finish hphase hquiet
    · cases h
  | start k =>
    obtain ⟨x, hk, hx, rfl⟩ := exists_of_advance h
    exact .session hk (.start hx)
  | receive k bytes =>
    obtain ⟨x, hk, h⟩ := Option.bind_eq_some_iff.mp h
    dsimp only at h
    split at h
    · next hx =>
      obtain rfl := Option.some.inj h
      exact .session hk (.receive bytes hx)
    · cases h
  | hangUp k =>
    obtain ⟨x, hk, hx, rfl⟩ := exists_of_advance h
    exact .session hk (.hangUp hx)
  | drain k =>
    obtain ⟨x, y, hk, hy, rfl⟩ := update_eq_some h
    split at hy
    · next hx =>
      rw [Bool.and_eq_true, decide_eq_true_eq, List.isEmpty_iff] at hx
      obtain rfl := Option.some.inj hy
      exact .session hk (.drain hx.1 hx.2)
    · cases hy
  | write k count =>
    obtain ⟨x, y, hk, hy, rfl⟩ := update_eq_some h
    split at hy
    · next hx =>
      obtain rfl := Option.some.inj hy
      exact .session hk (.write count hx)
    · cases hy
  | notice k =>
    obtain ⟨x, y, hk, hy, rfl⟩ := update_eq_some h
    split at hy
    · next hnew =>
      obtain ⟨hx, rfl⟩ := Session.advance_eq_some hy
      exact .session hk (.notice hx hnew)
    · cases hy
  | clear k =>
    obtain ⟨x, hk, hx, rfl⟩ := exists_of_advance h
    exact .session hk (.clear hx)
  | unmark k =>
    obtain ⟨x, hk, hx, rfl⟩ := exists_of_advance h
    exact .session hk (.unmark hx)
  | push f =>
    obtain rfl := Option.some.inj h
    exact .push f
  | discard =>
    obtain rfl := Option.some.inj h
    exact .discard
  | take =>
    obtain rfl := Option.some.inj h
    exact .take
  | setShutdown value =>
    unfold step at h
    dsimp only at h
    split at h
    · cases h
    · next hopen =>
      obtain rfl := Option.some.inj h
      exact .setShutdown value ((Bool.not_eq_true _).mp hopen)
  | closeShutdown =>
    obtain rfl := Option.some.inj h
    exact .closeShutdown

theorem run_induction {P : Server → Prop} (hstep : ∀ {s t e}, P s → s.step e = some t → P t)
    {s t : Server} {events : List ServerEvent} (hs : P s) (hrun : s.run events = some t) : P t :=
  foldlM_keeps (fun _ _ {_ _} => hstep) hs hrun

end Server
end RigBench
