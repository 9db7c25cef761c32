import RigBench.Proofs.FrameStream
import RigBench.Proofs.SessionLink
import RigBench.Proofs.Tick

/-!
The samples on their way to a client. Every sample has a number, in the order in which they were
queued; what a session is told is a run of these numbers from its window, with a gap only where a
sample was lost.
-/
namespace RigBench

abbrev Numbered := List (Frame × Nat)

structure Feed where
  pushed : List Frame
  waiting : Numbered
  /-- Numbers of the samples that were discarded because the queue was full, because the bench gave
  them up or because they were there when a session started. -/
  lost : List Nat := []

structure SessionLog where
  /-- Samples queued before the session marked the link as connected. -/
  opened : Nat
  /-- Samples queued before its writer stopped, if it has stopped. -/
  closed : Option Nat := none
  /-- Samples its writer took out of the queue. -/
  drained : Numbered := []

namespace Feed

def numbered (d : Feed) : Numbered := d.pushed.zipIdx

def lose (d : Feed) (n : Nat) : Feed :=
  { d with waiting := d.waiting.drop n, lost := d.lost ++ (d.waiting.take n).map Prod.snd }

def append (d : Feed) (f : Frame) : Feed :=
  { d with pushed := d.pushed ++ [f], waiting := d.waiting ++ [(f, d.pushed.length)] }

/-- A sample is queued, in place of the oldest one if the queue is full. -/
def push (d : Feed) (full : Bool) (f : Frame) : Feed := (if full then d.lose 1 else d).append f

def takeAll (d : Feed) : Feed := { d with waiting := [] }

/-- The samples queued while the session was connected and its writer had not stopped. -/
def window (d : Feed) (log : SessionLog) : Numbered :=
  (d.numbered.take (log.closed.getD d.pushed.length)).drop log.opened

theorem pushed_push (d : Feed) (full : Bool) (f : Frame) :
    (d.push full f).pushed = d.pushed ++ [f] := by
  unfold push
  split <;> rfl

theorem numbered_append (d : Feed) (f : Frame) :
    (d.append f).numbered = d.numbered ++ [(f, d.pushed.length)] := by
  simp [numbered, append, List.zipIdx_append]

@[simp] theorem length_numbered (d : Feed) : d.numbered.length = d.pushed.length := by
  simp [numbered]

theorem window_of_open {d : Feed} {log : SessionLog} (h : log.closed = none) :
    d.window log = d.numbered.drop log.opened := by
  rw [window, h, Option.getD_none, ← length_numbered, List.take_length]

theorem pairwise_numbered (d : Feed) : d.numbered.Pairwise fun p q => p.2 < q.2 := by
  rw [numbered, ← List.pairwise_map, List.zipIdx_map_snd]
  exact List.pairwise_lt_range'

structure Open (d : Feed) (x : Session) (log : SessionLog) : Prop where
  closed : log.closed = none
  opened : log.opened ≤ d.pushed.length
  fresh : x.phase = .starting → log.drained = []
  order : x.phase = .serving → (log.drained ++ d.waiting).Sublist (d.numbered.drop log.opened)
  /-- Where every sample of the session is. -/
  cover : ∀ p ∈ d.numbered.drop log.opened, p ∈ log.drained ∨ p ∈ d.waiting ∨ p.2 ∈ d.lost

/-- The samples drained by a writer are some of its window, in order; what it was not given before
the last of them was lost. -/
structure Told (d : Feed) (log : SessionLog) : Prop where
  order : log.drained.Sublist (d.window log)
  gap : ∀ p ∈ d.window log, ∀ q ∈ log.drained, p.2 < q.2 → p ∈ log.drained ∨ p.2 ∈ d.lost

theorem isPrefix_of_sublist {told samples : Numbered} (horder : told.Sublist samples)
    (hgrow : samples.Pairwise fun p q => p.2 < q.2)
    (hgap : ∀ p ∈ samples, ∀ q ∈ told, p.2 < q.2 → p ∈ told) : told <+: samples := by
  induction horder with
  | slnil => exact List.prefix_refl _
  | @cons told samples p hsub ih =>
    obtain ⟨hfirst, hgrow⟩ := List.pairwise_cons.mp hgrow
    match told with
    | [] => exact List.nil_prefix
    | q :: told =>
      -- the first sample was left out, but it comes before one that was told
      have hq := hfirst q (hsub.subset List.mem_cons_self)
      have hp := hgap p List.mem_cons_self q List.mem_cons_self hq
      exact absurd (hfirst p (hsub.subset hp)) (Nat.lt_irrefl _)
  | @cons_cons told samples p hsub ih =>
    obtain ⟨hfirst, hgrow⟩ := List.pairwise_cons.mp hgrow
    refine (List.prefix_cons_inj p).mpr (ih hgrow fun r hr q hq hlt => ?_)
    have hmem := hgap r (List.mem_cons_of_mem p hr) q (List.mem_cons_of_mem p hq) hlt
    refine (List.mem_cons.mp hmem).resolve_left ?_
    rintro rfl
    exact absurd (hfirst r hr) (Nat.lt_irrefl _)

theorem pairwise_window (d : Feed) (log : SessionLog) :
    (d.window log).Pairwise fun p q => p.2 < q.2 :=
  d.pairwise_numbered.sublist ((List.drop_sublist _ _).trans (List.take_sublist _ _))

theorem Told.isPrefix {d : Feed} {log : SessionLog} (h : d.Told log)
    (hkept : ∀ p ∈ d.window log, p.2 ∉ d.lost) : log.drained <+: d.window log :=
  isPrefix_of_sublist h.order (d.pairwise_window log) fun p hp q hq hlt =>
    (h.gap p hp q hq hlt).resolve_right (hkept p hp)

structure Closed (d : Feed) (log : SessionLog) : Prop extends Told d log where
  closed : ∃ n, log.closed = some n ∧ log.opened ≤ n ∧ n ≤ d.pushed.length

def Later (d d' : Feed) : Prop := d.pushed <+: d'.pushed ∧ d.lost ⊆ d'.lost

theorem Later.refl (d : Feed) : d.Later d := ⟨List.prefix_refl _, List.Subset.refl _⟩

theorem later_lose (d : Feed) (n : Nat) : d.Later (d.lose n) :=
  ⟨List.prefix_refl _, List.subset_append_left _ _⟩

theorem later_push (d : Feed) (full : Bool) (f : Frame) : d.Later (d.push full f) := by
  refine ⟨?_, ?_⟩
  · rw [pushed_push]
    exact List.prefix_append _ _
  · unfold push
    split
    · exact List.subset_append_left _ _
    · exact List.Subset.refl _

theorem later_takeAll (d : Feed) : d.Later d.takeAll := Later.refl d

namespace Open

variable {d : Feed} {x : Session} {log : SessionLog}

theorem told (h : d.Open x log) (hx : x.Serves) : d.Told log := by
  rcases hx with hx | hx
  · have hnone := h.fresh hx
    refine ⟨?_, ?_⟩
    · rw [hnone]
      exact List.nil_sublist _
    · intro p _ q hq
      rw [hnone] at hq
      cases hq
  · have horder := h.order hx
    refine ⟨?_, fun p hp q hq hlt => ?_⟩
    · rw [window_of_open h.closed]
      exact (List.sublist_append_left _ _).trans horder
    · rw [window_of_open h.closed] at hp
      rcases h.cover p hp with hp | hp | hp
      · exact .inl hp
      · -- what still waits comes after all that was drained
        have hgrow := d.pairwise_numbered.sublist (horder.trans (List.drop_sublist _ _))
        have hbefore := (List.pairwise_append.mp hgrow).2.2 q hq p hp
        omega
      · exact .inr hp

theorem close (h : d.Open x log) (hx : x.Serves) :
    d.Closed { log with closed := some d.pushed.length } := by
  have htold := h.told hx
  have hwindow : d.window { log with closed := some d.pushed.length } = d.window log := by
    rw [window, window, h.closed]
    rfl
  refine ⟨⟨?_, ?_⟩, _, rfl, h.opened, Nat.le_refl _⟩
  · rw [hwindow]
    exact htold.order
  · rw [hwindow]
    exact htold.gap

theorem lose (h : d.Open x log) (n : Nat) : (d.lose n).Open x log where
  closed := h.closed
  opened := h.opened
  fresh := h.fresh
  order hx := ((List.drop_sublist n d.waiting).append_left log.drained).trans (h.order hx)
  cover p hp := by
    rcases h.cover p hp with hp | hp | hp
    · exact .inl hp
    · rw [← List.take_append_drop n d.waiting] at hp
      rcases List.mem_append.mp hp with hp | hp
      · exact .inr (.inr (List.mem_append_right _ (List.mem_map_of_mem hp)))
      · exact .inr (.inl hp)
    · exact .inr (.inr (List.mem_append_left _ hp))

theorem append (h : d.Open x log) (f : Frame) : (d.append f).Open x log := by
  have hdrop : (d.append f).numbered.drop log.opened =
      d.numbered.drop log.opened ++ [(f, d.pushed.length)] := by
    rw [numbered_append, List.drop_append_of_le_length]
    rw [length_numbered]
    exact h.opened
  refine ⟨h.closed, ?_, h.fresh, fun hx => ?_, fun p hp => ?_⟩
  · exact Nat.le_trans h.opened (by simp [Feed.append])
  · rw [hdrop]
    change (log.drained ++ (d.waiting ++ [(f, d.pushed.length)])).Sublist _
    rw [← List.append_assoc]
    exact (h.order hx).append_right _
  · rw [hdrop] at hp
    rcases List.mem_append.mp hp with hp | hp
    · rcases h.cover p hp with hp | hp | hp
      · exact .inl hp
      · exact .inr (.inl (List.mem_append_left _ hp))
      · exact .inr (.inr hp)
    · exact .inr (.inl (List.mem_append_right _ hp))

theorem push (h : d.Open x log) (full : Bool) (f : Frame) : (d.push full f).Open x log := by
  unfold Feed.push
  split
  · exact (h.lose 1).append f
  · exact h.append f

theorem drain (h : d.Open x log) (hx : x.phase = .serving) {y : Session} (hy : y.phase = .serving) :
    d.takeAll.Open y { log with drained := log.drained ++ d.waiting } where
  closed := h.closed
  opened := h.opened
  fresh hstarting := by cases hy.symm.trans hstarting
  order _ := by
    change ((log.drained ++ d.waiting) ++ []).Sublist _
    rw [List.append_nil]
    exact h.order hx
  cover p hp := by
    rcases h.cover p hp with hp | hp | hp
    · exact .inl (List.mem_append_left _ hp)
    · exact .inl (List.mem_append_right _ hp)
    · exact .inr (.inr hp)

theorem start (h : d.Open x log) (hx : x.phase = .starting) {y : Session}
    (hy : y.phase = .serving) : (d.lose d.waiting.length).Open y log := by
  have hlose := h.lose d.waiting.length
  refine ⟨h.closed, h.opened, fun hstarting => (by cases hy.symm.trans hstarting), fun _ => ?_,
    hlose.cover⟩
  rw [h.fresh hx, Feed.lose, List.drop_length]
  exact List.nil_sublist _

theorem congr (h : d.Open x log) {y : Session} (hy : y.phase = x.phase) : d.Open y log where
  closed := h.closed
  opened := h.opened
  fresh hstarting := h.fresh (hy.symm.trans hstarting)
  order hserving := h.order (hy.symm.trans hserving)
  cover := h.cover

end Open

theorem Closed.later {d d' : Feed} {log : SessionLog} (h : d.Closed log) (hlater : d.Later d') :
    d'.Closed log := by
  obtain ⟨⟨more, hpushed⟩, hlost⟩ := hlater
  obtain ⟨n, hclosed, hopened, hn⟩ := h.closed
  have hnumbered : d'.numbered = d.numbered ++ more.zipIdx (0 + d.pushed.length) := by
    rw [numbered, ← hpushed, List.zipIdx_append]
    rfl
  have hwindow : d'.window log = d.window log := by
    have hle : n ≤ d.numbered.length := by
      rw [length_numbered]
      exact hn
    rw [window, window, hclosed, Option.getD_some, Option.getD_some, hnumbered,
      List.take_append_of_le_length hle]
  refine ⟨⟨?_, fun p hp q hq hlt => ?_⟩, n, hclosed, hopened, ?_⟩
  · rw [hwindow]
    exact h.order
  · rw [hwindow] at hp
    exact (h.gap p hp q hq hlt).imp_right fun hp => hlost hp
  · rw [← hpushed, List.length_append]
    omega

/-- What holds of a session and its log: its bytes are those of the samples it took out, and these
are as its window has them. -/
structure Serves (d : Feed) (x : Session) (log : SessionLog) : Prop where
  bytes : x.written ++ x.unsent = Frame.encodeAll (log.drained.map Prod.fst)
  opens : x.Serves → d.Open x log
  closes : ¬x.Serves → d.Closed log

namespace Serves

variable {d : Feed} {x y : Session} {log : SessionLog}

theorem fresh (d : Feed) (seen : Nat) : d.Serves { seen } { opened := d.pushed.length } where
  bytes := rfl
  opens _ :=
    { closed := rfl
      opened := Nat.le_refl _
      fresh _ := rfl
      order := nofun
      cover p hp := by
        rw [List.drop_of_length_le (Nat.le_of_eq d.length_numbered)] at hp
        cases hp }
  closes hx := absurd (.inl rfl) hx

theorem told (h : d.Serves x log) : d.Told log := by
  by_cases hx : x.Serves
  · exact (h.opens hx).told hx
  · exact (h.closes hx).toTold

theorem push (h : d.Serves x log) (full : Bool) (f : Frame) : (d.push full f).Serves x log where
  bytes := h.bytes
  opens hx := (h.opens hx).push full f
  closes hx := (h.closes hx).later (d.later_push full f)

theorem lose (h : d.Serves x log) (n : Nat) : (d.lose n).Serves x log where
  bytes := h.bytes
  opens hx := (h.opens hx).lose n
  closes hx := (h.closes hx).later (d.later_lose n)

theorem later (h : d.Serves x log) (hx : ¬x.Serves) {d' : Feed} (hlater : d.Later d') :
    d'.Serves x log where
  bytes := h.bytes
  opens hserves := absurd hserves hx
  closes _ := (h.closes hx).later hlater

theorem congr (h : d.Serves x log) (hphase : y.phase = x.phase)
    (hbytes : y.written ++ y.unsent = x.written ++ x.unsent) : d.Serves y log where
  bytes := hbytes.trans h.bytes
  opens hy := by
    unfold Session.Serves at hy
    rw [hphase] at hy
    exact (h.opens hy).congr hphase
  closes hy := h.closes (by unfold Session.Serves at hy ⊢; rwa [hphase] at hy)

theorem start (h : d.Serves x log) (hx : x.phase = .starting) :
    (d.lose d.waiting.length).Serves { x with phase := .serving } log where
  bytes := h.bytes
  opens _ := (h.opens (.inl hx)).start hx rfl
  closes hy := absurd (.inr rfl) hy

theorem stop (h : d.Serves x log) (hx : x.Serves) (hphase : y.phase = .ending)
    (hbytes : y.written ++ y.unsent = x.written ++ x.unsent) :
    d.Serves y { log with closed := some d.pushed.length } where
  bytes := hbytes.trans h.bytes
  opens hy := by simp [Session.Serves, hphase] at hy
  closes _ := (h.opens hx).close hx

theorem drain (h : d.Serves x log) (hx : x.phase = .serving) (hidle : x.unsent = [])
    {frames : List Frame} (hframes : d.waiting.map Prod.fst = frames) :
    d.takeAll.Serves (x.load frames) { log with drained := log.drained ++ d.waiting } where
  bytes := by
    have hbytes := h.bytes
    rw [hidle, List.append_nil] at hbytes
    change x.written ++ Frame.encodeAll frames = _
    rw [hbytes, ← hframes, List.map_append, Frame.encodeAll_append]
  opens _ := (h.opens (.inr hx)).drain hx hx
  closes hy := absurd (.inr hx) hy

theorem finish (h : d.Serves x log) (hx : ¬x.Serves) {phase : SessionPhase}
    (hy : ¬Session.Serves { x with phase }) {d' : Feed} (hlater : d.Later d') :
    d'.Serves { x with phase } log where
  bytes := h.bytes
  opens hserves := absurd hserves hy
  closes _ := (h.closes hx).later hlater

end Serves
end Feed
end RigBench
