import RigBench.Proofs.SessionLink

/-!
One client at a time, and the end of the server. A session notices every shutdown that came after
the last one the acceptor knew of when it began, so that the acceptor never waits for it in vain.
-/
namespace RigBench

/-- Steps of the acceptor and of sessions that wait for no client. -/
def ServerEvent.isOwn : ServerEvent → Bool
  | .look | .welcome | .heed | .abandon | .finish => true
  | .start _ | .notice _ | .clear _ | .unmark _ => true
  | _ => false

namespace Session.Way

variable {x y : Session} {s : Server} {k : Nat} {e : ServerEvent} {input output : FrameQueue}
  {link : LinkState}

theorem serves (h : x.Way s k e y input output link) (hy : y.Serves) :
    x.Serves ∧ y.seen = x.seen := by
  cases h with
  | start hx => exact ⟨.inl hx, rfl⟩
  | receive bytes hx => exact ⟨.inr hx, rfl⟩
  | hangUp hx => simp [Session.Serves] at hy
  | drain hx hidle => exact ⟨.inr hx, rfl⟩
  | write count hx => exact ⟨.inr hx, rfl⟩
  | notice hx hnew => simp [Session.Serves] at hy
  | clear hx => simp [Session.Serves] at hy
  | unmark hx => simp [Session.Serves] at hy

theorem seen_le (h : x.Way s k e y input output link) (hx : x.seen ≤ s.shutdown.changes) :
    y.seen ≤ s.shutdown.changes := by
  cases h with
  | notice _ _ => exact Nat.le_refl _
  | _ => exact hx

end Session.Way

namespace Server

/-- Nobody has missed a shutdown: who has seen all changes has seen that the value is not true, and
while the acceptor waits for its last session there is something new to that session. -/
structure Attentive (s : Server) : Prop where
  seen_le : s.seen ≤ s.shutdown.changes
  sessions_le : ∀ x ∈ s.sessions, x.seen ≤ s.shutdown.changes
  acceptor : s.acceptor = .waiting ∨ s.acceptor = .welcoming → s.shutdown.changes = s.seen →
    s.shutdown.value = false
  sessions : ∀ x ∈ s.sessions, x.Serves → s.shutdown.changes = x.seen → s.shutdown.value = false
  closing : s.acceptor = .closing → ∀ x ∈ s.sessions, x.Serves → s.shutdown.isNewTo x.seen = true

namespace Attentive

variable {s t : Server}

theorem start (input output : FrameQueue) (shutdown : Watch) :
    (new input output shutdown).Attentive where
  seen_le := Nat.le_refl _
  sessions_le := nofun
  acceptor := nofun
  sessions := nofun
  closing := nofun

theorem isNewTo_of_ne {w : Watch} {seen : Nat} (h : w.changes ≠ seen) : w.isNewTo seen = true := by
  simp [Watch.isNewTo, h]

theorem look (h : s.Attentive) :
    Attentive { s with acceptor := if s.shutdown.value then .closing else .waiting } := by
  cases hvalue : s.shutdown.value with
  | true =>
    refine ⟨h.seen_le, h.sessions_le, by simp, h.sessions, fun _ x hx hserves => ?_⟩
    refine isNewTo_of_ne fun hsame => ?_
    rw [h.sessions x hx hserves hsame] at hvalue
    cases hvalue
  | false => exact ⟨h.seen_le, h.sessions_le, fun _ _ => hvalue, h.sessions, by simp⟩

theorem welcome (h : s.Attentive) (hphase : s.acceptor = .welcoming) :
    Attentive { s with
      link := s.link.connect
      sessions := s.sessions ++ [{ seen := s.seen }]
      acceptor := .looking } := by
  refine ⟨h.seen_le, ?_, by simp, ?_, by simp⟩
  · intro x hx
    rcases List.mem_append.mp hx with hx | hx
    · exact h.sessions_le x hx
    · obtain rfl := List.mem_singleton.mp hx
      exact h.seen_le
  · intro x hx hserves hsame
    rcases List.mem_append.mp hx with hx | hx
    · exact h.sessions x hx hserves hsame
    · obtain rfl := List.mem_singleton.mp hx
      exact h.acceptor (.inr hphase) hsame

theorem session (h : s.Attentive) {e : ServerEvent} {k : Nat} {x y : Session}
    {input output : FrameQueue} {link : LinkState} (hk : s.sessions[k]? = some x)
    (hway : x.Way s k e y input output link) :
    Attentive { s with sessions := s.sessions.set k y, input, output, link } := by
  have hx : x ∈ s.sessions := List.mem_of_getElem? hk
  refine ⟨h.seen_le, ?_, h.acceptor, ?_, ?_⟩
  · intro z hz
    rcases List.mem_or_eq_of_mem_set hz with hz | rfl
    · exact h.sessions_le z hz
    · exact hway.seen_le (h.sessions_le x hx)
  · intro z hz hserves
    rcases List.mem_or_eq_of_mem_set hz with hz | rfl
    · exact h.sessions z hz hserves
    · obtain ⟨hbefore, hseen⟩ := hway.serves hserves
      rw [hseen]
      exact h.sessions x hx hbefore
  · intro hphase z hz hserves
    rcases List.mem_or_eq_of_mem_set hz with hz | rfl
    · exact h.closing hphase z hz hserves
    · obtain ⟨hbefore, hseen⟩ := hway.serves hserves
      rw [hseen]
      exact h.closing hphase x hx hbefore

theorem setShutdown (h : s.Attentive) (value : Bool) :
    Attentive { s with shutdown := s.shutdown.set value } := by
  have hseen := h.seen_le
  refine ⟨Nat.le_succ_of_le hseen, fun x hx => Nat.le_succ_of_le (h.sessions_le x hx), ?_, ?_, ?_⟩
  · intro _ hsame
    simp only [Watch.set] at hsame
    omega
  · intro x hx _ hsame
    have hle := h.sessions_le x hx
    simp only [Watch.set] at hsame
    omega
  · intro _ x hx _
    have hle := h.sessions_le x hx
    refine isNewTo_of_ne fun hsame => ?_
    simp only [Watch.set] at hsame
    omega

theorem step (h : s.Attentive) {e : ServerEvent} (hstep : s.step e = some t) : t.Attentive := by
  obtain ⟨hseen, hsessions, hacceptor, hserves, hclosing⟩ := h
  cases way_of_step hstep with
  | look hphase => exact look ⟨hseen, hsessions, hacceptor, hserves, hclosing⟩
  | refuse hphase hup => exact ⟨hseen, hsessions, by simp, hserves, by simp⟩
  | accept hphase hdown =>
    exact ⟨hseen, hsessions, fun _ => hacceptor (.inl hphase), hserves, by simp⟩
  | acceptFails hphase => exact ⟨hseen, hsessions, by simp, hserves, by simp⟩
  | welcome hphase => exact welcome ⟨hseen, hsessions, hacceptor, hserves, hclosing⟩ hphase
  | heed hphase hnew => exact ⟨Nat.le_refl _, hsessions, by simp, hserves, by simp⟩
  | abandon hphase hclosed hsame =>
    refine ⟨hseen, hsessions, by simp, hserves, fun _ _ _ _ => ?_⟩
    simp [Watch.isNewTo, hclosed]
  | finish hphase hquiet => exact ⟨hseen, hsessions, by simp, hserves, by simp⟩
  | session hk hway => exact session ⟨hseen, hsessions, hacceptor, hserves, hclosing⟩ hk hway
  | push f => exact ⟨hseen, hsessions, hacceptor, hserves, hclosing⟩
  | discard => exact ⟨hseen, hsessions, hacceptor, hserves, hclosing⟩
  | take => exact ⟨hseen, hsessions, hacceptor, hserves, hclosing⟩
  | setShutdown value hopen =>
    exact setShutdown ⟨hseen, hsessions, hacceptor, hserves, hclosing⟩ value
  | closeShutdown =>
    refine ⟨hseen, hsessions, hacceptor, hserves, fun _ _ _ _ => ?_⟩
    simp [Watch.close, Watch.isNewTo]

end Attentive

/-- The acceptor can return by steps of the server's own alone. -/
def CanReturn (s : Server) : Prop :=
  ∃ steps t, (∀ e ∈ steps, e.isOwn = true) ∧ s.run steps = some t ∧
    t.acceptor = .returned

theorem CanReturn.of_step {s t : Server} {e : ServerEvent} (hstep : s.step e = some t)
    (hown : e.isOwn = true) (ht : t.CanReturn) : s.CanReturn := by
  obtain ⟨steps, u, howns, hrun, hu⟩ := ht
  refine ⟨e :: steps, u, List.forall_mem_cons.mpr ⟨hown, howns⟩, ?_, hu⟩
  rw [run, List.foldlM_cons, hstep]
  exact hrun

theorem canReturn_of_isQuiet {s : Server} (hphase : s.acceptor = .closing)
    (hquiet : s.isQuiet = true) : s.CanReturn := by
  refine .of_step (e := .finish) (t := { s with acceptor := .returned }) ?_ rfl
    ⟨[], _, nofun, rfl, rfl⟩
  simp [step, hquiet, during, hphase]

theorem canReturn_of_cleared {s : Server} (h : s.Exclusive) (hphase : s.acceptor = .closing)
    {k : Nat} {x : Session} (hk : s.sessions[k]? = some x) (hx : x.phase = .cleared) :
    s.CanReturn := by
  have hstep : s.step (.unmark k) = some { s with
      link := s.link.disconnect
      sessions := s.sessions.set k { x with phase := .over } } := by
    simp [step, update, hk, Session.advance, hx]
  exact .of_step hstep rfl
    (canReturn_of_isQuiet hphase ((h.step hstep).isQuiet_of_connected rfl))

theorem canReturn_of_ending {s : Server} (h : s.Exclusive) (hphase : s.acceptor = .closing)
    {k : Nat} {x : Session} (hk : s.sessions[k]? = some x) (hx : x.phase = .ending) :
    s.CanReturn := by
  have hstep : s.step (.clear k) = some { s with
      output := s.output.clear
      sessions := s.sessions.set k { x with phase := .cleared } } := by
    simp [step, update, hk, Session.advance, hx]
  exact .of_step hstep rfl (canReturn_of_cleared (h.step hstep) hphase (getElem?_set hk) rfl)

theorem canReturn_of_serving {s : Server} (h : s.Exclusive) (ha : s.Attentive)
    (hphase : s.acceptor = .closing) {k : Nat} {x : Session} (hk : s.sessions[k]? = some x)
    (hx : x.phase = .serving) : s.CanReturn := by
  have hnew := ha.closing hphase x (List.mem_of_getElem? hk) (.inr hx)
  have hstep : s.step (.notice k) = some { s with
      sessions := s.sessions.set k { x with seen := s.shutdown.changes, phase := .ending } } := by
    simp [step, update, hk, hnew, Session.advance, hx]
  exact .of_step hstep rfl (canReturn_of_ending (h.step hstep) hphase (getElem?_set hk) rfl)

theorem canReturn_of_starting {s : Server} (h : s.Exclusive) (ha : s.Attentive)
    (hphase : s.acceptor = .closing) {k : Nat} {x : Session} (hk : s.sessions[k]? = some x)
    (hx : x.phase = .starting) : s.CanReturn := by
  have hstep : s.step (.start k) = some { s with
      output := s.output.clear
      sessions := s.sessions.set k { x with phase := .serving } } := by
    simp [step, update, hk, Session.advance, hx]
  exact .of_step hstep rfl
    (canReturn_of_serving (h.step hstep) (ha.step hstep) hphase (getElem?_set hk) rfl)

/-- The session for which the acceptor waits comes to its end, wherever it stands. -/
theorem canReturn_of_closing {s : Server} (h : s.Exclusive) (ha : s.Attentive)
    (hphase : s.acceptor = .closing) : s.CanReturn := by
  by_cases hup : s.link.connected = true
  · obtain ⟨k, x, hk, hx⟩ := h.connected.mp hup
    cases hstand : x.phase with
    | starting => exact canReturn_of_starting h ha hphase hk hstand
    | serving => exact canReturn_of_serving h ha hphase hk hstand
    | ending => exact canReturn_of_ending h hphase hk hstand
    | cleared => exact canReturn_of_cleared h hphase hk hstand
    | _ => exact absurd hstand hx
  · exact canReturn_of_isQuiet hphase (h.isQuiet_of_connected ((Bool.not_eq_true _).mp hup))

/-- The acceptor is to shut down. -/
def Told (s : Server) : Prop := s.shutdown.value = true ∨ s.shutdown.closed = true

theorem told_of_closing {s t : Server} {e : ServerEvent} (hstep : s.step e = some t)
    (hclosing : t.acceptor = .closing) : s.acceptor = .closing ∨ s.Told := by
  cases way_of_step hstep with
  | look hphase =>
    refine .inr (.inl ?_)
    dsimp only at hclosing
    split at hclosing
    · assumption
    · cases hclosing
  | abandon hphase hclosed hsame => exact .inr (.inr hclosed)
  | session hk hway => exact .inl hclosing
  | push f => exact .inl hclosing
  | discard => exact .inl hclosing
  | take => exact .inl hclosing
  | setShutdown value hopen => exact .inl hclosing
  | closeShutdown => exact .inl hclosing
  | _ => cases hclosing

theorem canReturn_of_waiting {s : Server} (h : s.Exclusive) (ha : s.Attentive) (htold : s.Told)
    (hphase : s.acceptor = .waiting) (hsame : s.shutdown.changes = s.seen) : s.CanReturn := by
  have hclosed : s.shutdown.closed = true := by
    rcases htold with hvalue | hclosed
    · rw [ha.acceptor (.inl hphase) hsame] at hvalue
      cases hvalue
    · exact hclosed
  have hstep : s.step .abandon = some { s with acceptor := .closing } := by
    simp [step, hclosed, hsame, during, hphase]
  exact .of_step hstep rfl (canReturn_of_closing (h.step hstep) (ha.step hstep) rfl)

theorem canReturn_of_looking {s : Server} (h : s.Exclusive) (ha : s.Attentive)
    (hphase : s.acceptor = .looking)
    (hwait : ∀ t : Server, t.Exclusive → t.Attentive → t.acceptor = .waiting →
      t.shutdown = s.shutdown → t.seen = s.seen → t.CanReturn) : s.CanReturn := by
  have hstep : s.step .look =
      some { s with acceptor := if s.shutdown.value then .closing else .waiting } := by
    simp [step, during, hphase]
  refine .of_step hstep rfl ?_
  cases hvalue : s.shutdown.value with
  | true =>
    rw [hvalue] at hstep
    exact canReturn_of_closing (h.step hstep) (ha.step hstep) rfl
  | false =>
    rw [hvalue] at hstep
    exact hwait _ (h.step hstep) (ha.step hstep) rfl rfl rfl

theorem canReturn_of_told {s : Server} (h : s.Exclusive) (ha : s.Attentive) (htold : s.Told) :
    s.CanReturn := by
  have hup_to_date : ∀ t : Server, t.Exclusive → t.Attentive → t.Told → t.acceptor = .looking →
      t.shutdown.changes = t.seen → t.CanReturn := by
    intro t ht hat htold hphase hsame
    refine canReturn_of_looking ht hat hphase fun u hu hau hwaits hshutdown hseen => ?_
    refine canReturn_of_waiting hu hau ?_ hwaits (by rw [hshutdown, hseen, hsame])
    unfold Told
    rw [hshutdown]
    exact htold
  have hwaiting : ∀ t : Server, t.Exclusive → t.Attentive → t.Told → t.acceptor = .waiting →
      t.CanReturn := by
    intro t ht hat htold hphase
    by_cases hsame : t.shutdown.changes = t.seen
    · exact canReturn_of_waiting ht hat htold hphase hsame
    · have hstep : t.step .heed =
          some { t with seen := t.shutdown.changes, acceptor := .looking } := by
        simp [step, hsame, during, hphase]
      exact .of_step hstep rfl (hup_to_date _ (ht.step hstep) (hat.step hstep) htold rfl rfl)
  have hlooking : ∀ t : Server, t.Exclusive → t.Attentive → t.Told → t.acceptor = .looking →
      t.CanReturn := by
    intro t ht hat htold hphase
    refine canReturn_of_looking ht hat hphase fun u hu hau hwaits hshutdown _ => ?_
    refine hwaiting u hu hau ?_ hwaits
    unfold Told
    rw [hshutdown]
    exact htold
  cases hphase : s.acceptor with
  | looking => exact hlooking s h ha htold hphase
  | waiting => exact hwaiting s h ha htold hphase
  | welcoming =>
    have hstep : s.step .welcome = some { s with
        link := s.link.connect
        sessions := s.sessions ++ [{ seen := s.seen }]
        acceptor := .looking } := by
      simp [step, during, hphase]
    exact .of_step hstep rfl (hlooking _ (h.step hstep) (ha.step hstep) htold rfl)
  | closing => exact canReturn_of_closing h ha hphase
  | returned => exact ⟨[], s, nofun, rfl, hphase⟩

end Server

/-- One client at a time, for every sequence of steps of the acceptor, of the sessions and of those
outside. At most one session is between its two marks of the link, and the link is up exactly while
there is one. Every connection that was not refused has become a session, but for one that may be
under way; refused is who comes while a session is active, and that changes nothing but the counts.
The session that takes the link down is the one that was active. The acceptor goes to its end only
if it is told to; it can then return whatever the client does, and when it has returned no session
is active and the link is down. -/
theorem one_client_at_a_time (input output : FrameQueue) (shutdown : Watch)
    {events : List ServerEvent} {s : Server}
    (hrun : (Server.new input output shutdown).run events = some s) :
    (∀ j k, s.Active j → s.Active k → j = k) ∧
    (s.link.connected = true ↔ ∃ k, s.Active k) ∧
    s.link.sessions = s.sessions.length ∧
    s.arrivals = s.link.sessions + s.refused + s.underway ∧
    (∀ t, s.step .connect = some t →
      (t.refused = s.refused + 1 ↔ ∃ k, s.Active k) ∧
      (t.refused = s.refused + 1 → t = { s with
        arrivals := s.arrivals + 1, refused := s.refused + 1, acceptor := .looking })) ∧
    (∀ k t, s.step (.unmark k) = some t → s.Active k ∧ ∀ j, ¬t.Active j) ∧
    (∀ e t, s.step e = some t → t.acceptor = .closing → s.acceptor = .closing ∨ s.Told) ∧
    (s.Told → s.CanReturn) ∧
    (s.acceptor = .returned → s.link.connected = false ∧ ∀ k, ¬s.Active k) := by
  have h : s.Exclusive :=
    Server.run_induction (fun h hstep => h.step hstep) (.start input output shutdown) hrun
  have ha : s.Attentive :=
    Server.run_induction (fun ha hstep => ha.step hstep) (.start input output shutdown) hrun
  refine ⟨fun j k hj hk => ?_, h.connected, h.counted, h.arrivals, fun t => h.refused_iff,
    fun k t => h.unmark, fun e t => Server.told_of_closing, Server.canReturn_of_told h ha,
    fun hreturned => ⟨h.returned hreturned, h.not_active (h.returned hreturned)⟩⟩
  have hlast := h.last j hj
  have hlast' := h.last k hk
  omega

/-- A second client is refused, a third one is served after the first has left. A shutdown ends its
session, and the server can return. -/
theorem one_client_at_a_time_third :
    let start := Server.new (.new 4) (.new 4) {}
    let events : List ServerEvent :=
      [.look, .connect, .welcome, .look, .start 0, .connect, .look, .hangUp 0, .clear 0, .unmark 0,
        .connect, .welcome, .setShutdown true, .look, .start 1, .notice 1]
    ∃ s, start.run events = some s ∧ s.refused = 1 ∧ s.sessions.length = 2 ∧
      s.link.connected = true ∧ ¬s.Active 0 ∧ s.CanReturn ∧
      ∃ t, start.run (events ++ [.clear 1, .unmark 1, .finish]) = some t ∧
        t.acceptor = .returned ∧ t.link.connected = false ∧ ∀ k, ¬t.Active k := by
  intro start events
  have hmiddle : (start.run events).map
      (fun s => (s.refused, s.sessions.map (·.phase), s.shutdown.value)) =
        some (1, [.over, .ending], true) := by decide
  have hend : (start.run (events ++ [.clear 1, .unmark 1, .finish])).map (·.acceptor) =
      some .returned := by decide
  obtain ⟨s, hs, hshape⟩ := Option.map_eq_some_iff.mp hmiddle
  obtain ⟨t, ht, hreturned⟩ := Option.map_eq_some_iff.mp hend
  simp only [Prod.mk.injEq] at hshape
  obtain ⟨hrefused, hphases, hvalue⟩ := hshape
  obtain ⟨honly, hup, -, -, -, -, -, hcan, -⟩ := one_client_at_a_time _ _ _ hs
  obtain ⟨-, -, -, -, -, -, -, -, hdown⟩ := one_client_at_a_time _ _ _ ht
  have hsecond : s.Active 1 := by
    have hget := congrArg (·[1]?) hphases
    simp only [List.getElem?_map, List.getElem?_cons_succ, List.getElem?_cons_zero] at hget
    obtain ⟨x, hx, hphase⟩ := Option.map_eq_some_iff.mp hget
    exact ⟨x, hx, by rw [hphase]; nofun⟩
  refine ⟨s, hs, hrefused, ?_, hup.mpr ⟨1, hsecond⟩, fun hfirst => ?_, hcan (.inl hvalue), t, ht,
    hreturned, hdown hreturned⟩
  · simpa using congrArg List.length hphases
  · cases honly 0 1 hfirst hsecond

end RigBench
