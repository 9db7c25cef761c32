import RigBench.FrameQueue.Wakeup
import RigBench.Proofs.Steps

/-!
No wake-up is lost. Between the look at an empty queue and the wait a frame may come; but then its
wake-up is kept as the permit, or is still in the hands of the producer. So a writer that sleeps
either has nothing to write or is about to be woken.
-/
namespace RigBench

namespace FrameQueue

@[simp] theorem permit_append (q : FrameQueue) (f : Frame) : (q.append f).permit = q.permit := by
  unfold append
  split <;> rfl

end FrameQueue

namespace Wakeup

theorem during_eq_some {s next t : Wakeup} {phase : WriterPhase}
    (h : s.during phase next = some t) : s.writer = phase ∧ t = next := by
  unfold during at h
  split at h
  · next hphase => exact ⟨hphase, (Option.some.inj h).symm⟩
  · cases h

inductive Way (s : Wakeup) : WakeupEvent → Wakeup → Prop
  | append (f : Frame) :
    Way s (.append f) { s with queue := s.queue.append f, producers := s.producers + 1 }
  | notifyParked (hdue : s.producers ≠ 0) (h : s.writer = .parked) :
    Way s .notify { s with producers := s.producers - 1, writer := .woken }
  | notify (hdue : s.producers ≠ 0) (h : s.writer ≠ .parked) :
    Way s .notify { s with producers := s.producers - 1, queue := s.queue.wake }
  | pop : Way s .pop { s with queue := s.queue.pop.2 }
  | clear : Way s .clear { s with queue := s.queue.clear }
  | create (h : s.writer = .absent) : Way s .create { s with writer := .draining }
  | drainEmpty (h : s.writer = .draining) (hempty : s.queue.frames = []) :
    Way s .drain { s with writer := .found }
  | drain (h : s.writer = .draining) (hframes : s.queue.frames ≠ []) :
    Way s .drain { s with queue := s.queue.clear, writer := .writing }
  | goOn (h : s.writer = .found) (hpermit : s.queue.permit = true) :
    Way s .wait { s with queue := s.queue.takeWake.2, writer := .draining }
  | park (h : s.writer = .found) (hpermit : s.queue.permit = false) :
    Way s .wait { s with queue := s.queue.takeWake.2, writer := .parked }
  | resume (h : s.writer = .woken) : Way s .resume { s with writer := .draining }
  | write (h : s.writer = .writing) : Way s .write { s with writer := .draining }
  | handBack (h : s.writer = .woken) :
    Way s .drop { s with queue := s.queue.wake, writer := .absent }
  | drop (h : s.writer ≠ .woken) (hpresent : s.writer ≠ .absent) :
    Way s .drop { s with writer := .absent }

theorem way_of_step {s t : Wakeup} {e : WakeupEvent} (h : s.step e = some t) : s.Way e t := by
  cases e with
  | append f =>
    obtain rfl := Option.some.inj h
    exact .append f
  | notify =>
    unfold step at h
    dsimp only at h
    split at h
    · cases h
    · next hdue =>
      obtain rfl := Option.some.inj h
      unfold wake
      split
      · next hparked => exact .notifyParked hdue hparked
      · next hother => exact .notify hdue hother
  | pop =>
    obtain rfl := Option.some.inj h
    exact .pop
  | clear =>
    obtain rfl := Option.some.inj h
    exact .clear
  | create =>
    obtain ⟨hphase, rfl⟩ := during_eq_some h
    exact .create hphase
  | drain =>
    obtain ⟨hphase, rfl⟩ := during_eq_some h
    split
    · next hempty => exact .drainEmpty hphase (List.isEmpty_iff.mp hempty)
    · next hframes => exact .drain hphase fun hempty => hframes (List.isEmpty_iff.mpr hempty)
  | wait =>
    obtain ⟨hphase, rfl⟩ := during_eq_some h
    cases hpermit : s.queue.permit with
    | true => exact .goOn hphase hpermit
    | false => exact .park hphase hpermit
  | resume =>
    obtain ⟨hphase, rfl⟩ := during_eq_some h
    exact .resume hphase
  | write =>
    obtain ⟨hphase, rfl⟩ := during_eq_some h
    exact .write hphase
  | drop =>
    unfold step at h
    dsimp only at h
    split at h
    · cases h
    · next hwoken =>
      obtain rfl := Option.some.inj h
      exact .handBack hwoken
    · next habsent hwoken =>
      obtain rfl := Option.some.inj h
      exact .drop hwoken habsent

def Rests (s : Wakeup) : Prop := s.writer = .found ∨ s.writer = .parked

/-- If there are frames while the writer rests, it is going to be woken. A permit and a sleeping
writer are never there together. -/
structure Alert (s : Wakeup) : Prop where
  due : s.Rests → s.queue.frames ≠ [] → s.queue.permit = true ∨ 0 < s.producers
  parked : s.writer = .parked → s.queue.permit = false

theorem Alert.of_not_rests {s : Wakeup} (h : ¬s.Rests) : s.Alert where
  due hrests := absurd hrests h
  parked hparked := absurd (.inr hparked) h

theorem Alert.step {s t : Wakeup} {e : WakeupEvent} (h : s.Alert) (hstep : s.step e = some t) :
    t.Alert := by
  cases way_of_step hstep with
  | append f => exact ⟨fun _ _ => .inr (Nat.succ_pos _), fun hp => by simpa using h.parked hp⟩
  | notifyParked hdue hphase => exact .of_not_rests (by simp [Rests])
  | notify hdue hphase => exact ⟨fun _ _ => .inl rfl, fun hp => absurd hp hphase⟩
  | pop =>
    refine ⟨fun hrests hframes => h.due hrests fun hempty => hframes ?_, h.parked⟩
    simp [FrameQueue.pop, hempty]
  | clear => exact ⟨fun _ hframes => absurd rfl hframes, h.parked⟩
  | create hphase => exact .of_not_rests (by simp [Rests])
  | drainEmpty hphase hempty => exact ⟨fun _ hframes => absurd hempty hframes, nofun⟩
  | drain hphase hframes => exact .of_not_rests (by simp [Rests])
  | goOn hphase hpermit => exact .of_not_rests (by simp [Rests])
  | park hphase hpermit =>
    -- what came after the look at the queue has left no permit, so its producer has not notified yet
    refine ⟨fun _ hframes => .inr ?_, fun _ => rfl⟩
    rcases h.due (.inl hphase) hframes with hkept | hproducer
    · rw [hpermit] at hkept
      cases hkept
    · exact hproducer
  | resume hphase => exact .of_not_rests (by simp [Rests])
  | write hphase => exact .of_not_rests (by simp [Rests])
  | handBack hphase => exact .of_not_rests (by simp [Rests])
  | drop hphase hpresent => exact .of_not_rests (by simp [Rests])

theorem Alert.run {s t : Wakeup} {events : List WakeupEvent} (h : s.Alert)
    (hrun : s.run events = some t) : t.Alert :=
  foldlM_keeps (fun _ _ {_ _} => step) h hrun

theorem step_notify_of_parked {s : Wakeup} (hparked : s.writer = .parked)
    (hproducer : 0 < s.producers) :
    s.step .notify = some { s with producers := s.producers - 1, writer := .woken } := by
  have hdue : s.producers ≠ 0 := Nat.pos_iff_ne_zero.mp hproducer
  simp [step, hdue, wake, hparked]

theorem permit_step {s t : Wakeup} {e : WakeupEvent} (hstep : s.step e = some t)
    (hnotify : e ≠ .notify) (hdrop : e ≠ .drop) :
    t.queue.permit = if e = .wait then false else s.queue.permit := by
  cases way_of_step hstep with
  | append f => exact s.queue.permit_append f
  | notifyParked _ _ => exact absurd rfl hnotify
  | notify _ _ => exact absurd rfl hnotify
  | handBack _ => exact absurd rfl hdrop
  | drop _ _ => exact absurd rfl hdrop
  | _ => rfl

theorem permit_run {s t : Wakeup} {events : List WakeupEvent} (hnone : s.queue.permit = false)
    (hquiet : ∀ e ∈ events, e ≠ .notify ∧ e ≠ .drop) (hrun : s.run events = some t) :
    t.queue.permit = false := by
  refine foldlM_keeps (P := fun u => u.queue.permit = false) (fun e he {_ _} hu hstep => ?_) hnone
    hrun
  obtain ⟨hnotify, hdrop⟩ := hquiet e he
  rw [permit_step hstep hnotify hdrop, hu, ite_self]

end Wakeup

/-- No wake-up of the writer is lost, for every queue, any number of producers, every interleaving
of their two steps with those of others and of the writer, and any sequence of writers. Where a
writer sleeps and no producer is between its steps, the queue is empty; where there are frames, the
notification that is still to come wakes it, and before it sleeps there is a permit for them or such
a notification. One permit is kept at most: when a wait is over there is none until the next
notification, or the next writer that goes away. No other step changes the permit. -/
theorem no_wakeup_lost (queue : FrameQueue) (producers : Nat) {events : List WakeupEvent}
    {s : Wakeup} (hrun : ({ queue, producers } : Wakeup).run events = some s) :
    (s.writer = .parked → s.producers = 0 → s.queue.frames = []) ∧
    (s.writer = .parked → s.queue.permit = false ∧
      (s.queue.frames ≠ [] → ∃ t, s.step .notify = some t ∧ t.writer = .woken)) ∧
    (s.writer = .found → s.queue.frames ≠ [] → s.queue.permit = true ∨ 0 < s.producers) ∧
    (∀ t u more, s.step .wait = some t → (∀ e ∈ more, e ≠ .notify ∧ e ≠ .drop) →
      t.run more = some u → u.queue.permit = false) ∧
    ∀ e t, s.step e = some t → e ≠ .notify → e ≠ .drop → e ≠ .wait →
      t.queue.permit = s.queue.permit := by
  have halert : s.Alert := Wakeup.Alert.run (.of_not_rests (by simp [Wakeup.Rests])) hrun
  have hproducer : s.writer = .parked → s.queue.frames ≠ [] → 0 < s.producers := by
    intro hparked hframes
    refine (halert.due (.inr hparked) hframes).resolve_left ?_
    rw [halert.parked hparked]
    exact Bool.false_ne_true
  refine ⟨fun hparked hnone => ?_, fun hparked => ⟨halert.parked hparked, fun hframes => ?_⟩,
    fun hfound => halert.due (.inl hfound), fun t u more hwait hquiet => ?_,
    fun e t hstep hnotify hdrop hwait => ?_⟩
  · by_cases hempty : s.queue.frames = []
    · exact hempty
    · have hpos := hproducer hparked hempty
      omega
  · exact ⟨_, Wakeup.step_notify_of_parked hparked (hproducer hparked hframes), rfl⟩
  · exact Wakeup.permit_run (Wakeup.permit_step hwait nofun nofun) hquiet
  · rw [Wakeup.permit_step hstep hnotify hdrop, if_neg hwait]

/-- A frame comes between the look of a writer and its wait, and its wake-up only when the writer
sleeps. -/
theorem no_wakeup_lost_late :
    let f : Frame := { id := 2, payload := [] }
    let events : List WakeupEvent :=
      [.append f, .notify, .create, .drain, .write, .drain, .wait, .drain, .append f, .wait]
    ∃ s, ({ queue := .new 4 } : Wakeup).run events = some s ∧ s.writer = .parked ∧
      s.queue.frames ≠ [] ∧ s.queue.permit = false ∧
      ∃ t, s.step .notify = some t ∧ t.writer = .woken := by
  intro f events
  have hshape : (({ queue := .new 4 } : Wakeup).run events).map
      (fun s => (s.writer, s.queue.frames)) = some (.parked, [f]) := by decide
  obtain ⟨s, hs, hshape⟩ := Option.map_eq_some_iff.mp hshape
  obtain ⟨hparked, hframes⟩ := Prod.mk.inj hshape
  have hsome : s.queue.frames ≠ [] := by
    rw [hframes]
    exact List.cons_ne_nil f []
  obtain ⟨-, hsleeps, -⟩ := no_wakeup_lost _ _ hs
  exact ⟨s, hs, hparked, hsome, (hsleeps hparked).1, (hsleeps hparked).2 hsome⟩

end RigBench
