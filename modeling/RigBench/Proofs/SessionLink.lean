import RigBench.Proofs.ServerStep

/-!
Sessions and the link. The acceptor begins a session only while the link is down, and a session
takes the link down as its last act; so there is never a second session between its two marks of the
link, however the steps of the acceptor, of the sessions and of those outside interleave.
-/
namespace RigBench

def Session.Serves (x : Session) : Prop := x.phase = .starting ∨ x.phase = .serving

theorem Session.Serves.not_over {x : Session} (h : x.Serves) : x.phase ≠ .over := by
  rcases h with h | h <;> simp [h]

namespace Session.Way

variable {x y : Session} {s : Server} {k : Nat} {e : ServerEvent} {input output : FrameQueue}
  {link : LinkState}

theorem not_over (h : x.Way s k e y input output link) : x.phase ≠ .over := by
  cases h with
  | start hx => simp [hx]
  | receive bytes hx => simp [hx]
  | hangUp hx => simp [hx]
  | drain hx hidle => simp [hx]
  | write count hx => simp [hx]
  | notice hx hnew => simp [hx]
  | clear hx => simp [hx]
  | unmark hx => simp [hx]

theorem link_cases (h : x.Way s k e y input output link) :
    y.phase ≠ .over ∧ link = s.link ∨ y.phase = .over ∧ link = s.link.disconnect := by
  cases h with
  | start hx => exact .inl ⟨nofun, rfl⟩
  | receive bytes hx =>
    refine .inl ⟨?_, rfl⟩
    rcases Session.phase_receive hx bytes with hy | hy <;> simp [hy]
  | hangUp hx => exact .inl ⟨nofun, rfl⟩
  | drain hx hidle => exact .inl ⟨fun hover => (by cases hx.symm.trans hover), rfl⟩
  | write count hx => exact .inl ⟨fun hover => (by cases hx.symm.trans hover), rfl⟩
  | notice hx hnew => exact .inl ⟨nofun, rfl⟩
  | clear hx => exact .inl ⟨nofun, rfl⟩
  | unmark hx => exact .inr ⟨rfl, rfl⟩

end Session.Way

namespace Server

theorem getElem?_set {s : Server} {k : Nat} {x : Session} (hk : s.sessions[k]? = some x)
    {y : Session} : (s.sessions.set k y)[k]? = some y :=
  List.getElem?_set_self (List.getElem?_eq_some_iff.mp hk).1

/-- Session `k` has marked the link as connected and not yet as disconnected. -/
def Active (s : Server) (k : Nat) : Prop := ∃ x, s.sessions[k]? = some x ∧ x.phase ≠ .over

/-- Connections that are accepted and neither refused nor welcomed yet. -/
def underway (s : Server) : Nat := if s.acceptor = .welcoming then 1 else 0

/-- The link tells whether the last session is active, and the others are over. -/
structure Exclusive (s : Server) : Prop where
  last : ∀ k, s.Active k → k + 1 = s.sessions.length
  connected : s.link.connected = true ↔ ∃ k, s.Active k
  counted : s.link.sessions = s.sessions.length
  arrivals : s.arrivals = s.link.sessions + s.refused + s.underway
  /-- Once it has found the link down, nobody but the acceptor itself takes it up. -/
  welcoming : s.acceptor = .welcoming → s.link.connected = false
  returned : s.acceptor = .returned → s.link.connected = false

namespace Exclusive

variable {s t : Server}

theorem start (input output : FrameQueue) (shutdown : Watch) :
    (new input output shutdown).Exclusive where
  last k h := by obtain ⟨x, hk, -⟩ := h; cases hk
  connected := ⟨nofun, fun ⟨k, x, hk, _⟩ => by cases hk⟩
  counted := rfl
  arrivals := rfl
  welcoming := nofun
  returned := nofun

theorem not_active (h : s.Exclusive) (hdown : s.link.connected = false) (k : Nat) : ¬s.Active k := by
  intro hk
  rw [h.connected.mpr ⟨k, hk⟩] at hdown
  cases hdown

theorem of_same (h : s.Exclusive) (hsessions : t.sessions = s.sessions) (hlink : t.link = s.link)
    (harrivals : t.arrivals = s.link.sessions + t.refused + t.underway)
    (hdown : t.acceptor = .welcoming ∨ t.acceptor = .returned → s.link.connected = false) :
    t.Exclusive := by
  have hactive : ∀ k, t.Active k ↔ s.Active k := by
    intro k
    unfold Active
    rw [hsessions]
  constructor
  · intro k hk
    rw [hsessions]
    exact h.last k ((hactive k).mp hk)
  · rw [hlink, h.connected]
    exact exists_congr fun k => (hactive k).symm
  · rw [hlink, hsessions]
    exact h.counted
  · rw [hlink]
    exact harrivals
  · intro hw
    rw [hlink]
    exact hdown (.inl hw)
  · intro hr
    rw [hlink]
    exact hdown (.inr hr)

theorem connected_of_isQuiet (h : s.Exclusive) (hquiet : s.isQuiet = true) :
    s.link.connected = false := by
  rw [← Bool.not_eq_true]
  intro hup
  obtain ⟨k, x, hk, hx⟩ := h.connected.mp hup
  have hlast := h.last k ⟨x, hk, hx⟩
  have hget : s.sessions.getLast? = some x := by
    rw [List.getLast?_eq_getElem?, ← hlast, Nat.add_sub_cancel]
    exact hk
  unfold isQuiet at hquiet
  rw [hget] at hquiet
  exact hx (beq_iff_eq.mp hquiet)

theorem isQuiet_of_connected (h : s.Exclusive) (hdown : s.link.connected = false) :
    s.isQuiet = true := by
  unfold isQuiet
  split
  · next x hx =>
    rw [List.getLast?_eq_getElem?] at hx
    have hover : x.phase = .over :=
      Decidable.byContradiction fun hne => h.not_active hdown _ ⟨x, hx, hne⟩
    rw [hover]
    rfl
  · rfl

theorem welcome (h : s.Exclusive) (hw : s.acceptor = .welcoming) :
    Exclusive { s with
      link := s.link.connect
      sessions := s.sessions ++ [{ seen := s.seen }]
      acceptor := .looking } := by
  have hover := h.not_active (h.welcoming hw)
  have hlength : (s.sessions ++ [({ seen := s.seen } : Session)]).length = s.sessions.length + 1 :=
    List.length_append
  have hnew : ∀ k, (∃ x, (s.sessions ++ [{ seen := s.seen }])[k]? = some x ∧ x.phase ≠ .over) ↔
      k = s.sessions.length := by
    intro k
    constructor
    · rintro ⟨x, hk, hx⟩
      have hlt := (List.getElem?_eq_some_iff.mp hk).1
      rw [hlength] at hlt
      refine Nat.le_antisymm (Nat.le_of_lt_succ hlt) (Nat.le_of_not_lt fun hold => ?_)
      rw [List.getElem?_append_left hold] at hk
      exact hover k ⟨x, hk, hx⟩
    · rintro rfl
      exact ⟨{ seen := s.seen }, List.getElem?_concat_length, fun hdone => by cases hdone⟩
  constructor
  · intro k hk
    rw [(hnew k).mp hk]
    exact hlength.symm
  · exact ⟨fun _ => ⟨_, (hnew _).mpr rfl⟩, fun _ => rfl⟩
  · rw [hlength, ← h.counted]
    rfl
  · have harrivals := h.arrivals
    rw [underway, if_pos hw] at harrivals
    change s.arrivals = s.link.sessions + 1 + s.refused + 0
    omega
  · intro hlooking
    cases hlooking
  · intro hlooking
    cases hlooking

theorem session (h : s.Exclusive) {e : ServerEvent} {k : Nat} {x y : Session}
    {input output : FrameQueue} {link : LinkState} (hk : s.sessions[k]? = some x)
    (hway : x.Way s k e y input output link) :
    Exclusive { s with sessions := s.sessions.set k y, input, output, link } := by
  have hactive : s.Active k := ⟨x, hk, hway.not_over⟩
  have hlast := h.last k hactive
  have hlt : k < s.sessions.length := by omega
  have hup : s.link.connected = true := h.connected.mpr ⟨k, hactive⟩
  -- the session that moves is the only one that was active
  have hset : ∀ j, Active { s with sessions := s.sessions.set k y, input, output, link } j ↔
      j = k ∧ y.phase ≠ .over := by
    intro j
    constructor
    · rintro ⟨z, hj, hz⟩
      dsimp only at hj
      by_cases heq : k = j
      · subst heq
        rw [List.getElem?_set_self hlt] at hj
        obtain rfl := Option.some.inj hj
        exact ⟨rfl, hz⟩
      · rw [List.getElem?_set_ne heq] at hj
        have hother := h.last j ⟨z, hj, hz⟩
        omega
    · rintro ⟨rfl, hy⟩
      exact ⟨y, List.getElem?_set_self hlt, hy⟩
  constructor
  · intro j hj
    obtain ⟨rfl, -⟩ := (hset j).mp hj
    rw [List.length_set]
    exact hlast
  · rw [exists_congr hset]
    rcases hway.link_cases with ⟨hy, rfl⟩ | ⟨hy, rfl⟩
    · exact ⟨fun _ => ⟨k, rfl, hy⟩, fun _ => hup⟩
    · exact ⟨nofun, fun ⟨_, _, hne⟩ => absurd hy hne⟩
  · rw [List.length_set, ← h.counted]
    rcases hway.link_cases with ⟨-, rfl⟩ | ⟨-, rfl⟩ <;> rfl
  · have harrivals := h.arrivals
    rcases hway.link_cases with ⟨-, rfl⟩ | ⟨-, rfl⟩ <;> exact harrivals
  · intro hw
    rw [h.welcoming hw] at hup
    cases hup
  · intro hr
    rw [h.returned hr] at hup
    cases hup

theorem step (h : s.Exclusive) {e : ServerEvent} (hstep : s.step e = some t) : t.Exclusive := by
  have harrivals := h.arrivals
  cases way_of_step hstep with
  | look hphase =>
    refine h.of_same rfl rfl ?_ ?_
    · simp only [underway, hphase] at harrivals ⊢
      split <;> simpa using harrivals
    · dsimp only
      split <;> simp
  | refuse hphase hup =>
    refine h.of_same rfl rfl ?_ (by simp)
    simp [underway, hphase] at harrivals ⊢
    omega
  | accept hphase hdown =>
    refine h.of_same rfl rfl ?_ fun _ => hdown
    simp [underway, hphase] at harrivals ⊢
    omega
  | acceptFails hphase =>
    refine h.of_same rfl rfl ?_ (by simp)
    simpa [underway, hphase] using harrivals
  | welcome hphase => exact h.welcome hphase
  | heed hphase hnew =>
    refine h.of_same rfl rfl ?_ (by simp)
    simpa [underway, hphase] using harrivals
  | abandon hphase hclosed hseen =>
    refine h.of_same rfl rfl ?_ (by simp)
    simpa [underway, hphase] using harrivals
  | finish hphase hquiet =>
    refine h.of_same rfl rfl ?_ fun _ => h.connected_of_isQuiet hquiet
    simpa [underway, hphase] using harrivals
  | session hk hway => exact h.session hk hway
  | push f => exact h.of_same rfl rfl harrivals fun hd => hd.elim h.welcoming h.returned
  | discard => exact h.of_same rfl rfl harrivals fun hd => hd.elim h.welcoming h.returned
  | take => exact h.of_same rfl rfl harrivals fun hd => hd.elim h.welcoming h.returned
  | setShutdown value hopen =>
    exact h.of_same rfl rfl harrivals fun hd => hd.elim h.welcoming h.returned
  | closeShutdown => exact h.of_same rfl rfl harrivals fun hd => hd.elim h.welcoming h.returned

/-- Refused is exactly who comes while a session is active, and that changes only the counts. -/
theorem refused_iff (h : s.Exclusive) (hstep : s.step .connect = some t) :
    (t.refused = s.refused + 1 ↔ ∃ k, s.Active k) ∧
    (t.refused = s.refused + 1 → t = { s with
      arrivals := s.arrivals + 1, refused := s.refused + 1, acceptor := .looking }) := by
  rw [← h.connected]
  cases way_of_step hstep with
  | refuse hphase hup => exact ⟨⟨fun _ => hup, fun _ => rfl⟩, fun _ => rfl⟩
  | accept hphase hdown => simp [hdown]
  | session hk hway => cases hway

theorem unmark (h : s.Exclusive) {k : Nat} (hstep : s.step (.unmark k) = some t) :
    s.Active k ∧ ∀ j, ¬t.Active j := by
  have hover := (h.step hstep).not_active
  cases way_of_step hstep with
  | session hk hway =>
    cases hway with
    | unmark hx => exact ⟨⟨_, hk, by rw [hx]; nofun⟩, hover rfl⟩

end Exclusive

end Server
end RigBench
