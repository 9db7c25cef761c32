import Mathlib.Data.List.Forall2
import RigBench.Scheduler

/-!
The ways a cycle of the scheduler can go, said once: which tasks run, what each of them keeps of it,
and where the cycle ends.
-/
namespace RigBench

/-- A late deadline moves on by one period after the other, each of them counted, until it lies
after `now`. -/
inductive CatchUp (period now : Nat) : Nat → Nat → Nat → Nat → Prop
  | caughtUp {next missed : Nat} (hlt : now < next) : CatchUp period now next missed next missed
  | skip {next missed next' missed' : Nat} (hle : next ≤ now)
      (rest : CatchUp period now (next + period) (missed + 1) next' missed') :
      CatchUp period now next missed next' missed'

theorem period_succ (start period i : Nat) :
    start + (i + 1) * period = start + period + i * period := by
  rw [Nat.succ_mul]
  omega

theorem CatchUp.of_points {period now : Nat} (k : Nat) :
    ∀ {next missed : Nat}, (∀ i < k, next + i * period ≤ now) → now < next + k * period →
      CatchUp period now next missed (next + k * period) (missed + k) := by
  induction k with
  | zero =>
    intro next missed _ hlt
    rw [Nat.zero_mul, Nat.add_zero] at hlt ⊢
    exact .caughtUp hlt
  | succ k ih =>
    intro next missed hle hlt
    refine .skip (by simpa using hle 0 (Nat.succ_pos k)) ?_
    rw [period_succ] at hlt ⊢
    rw [← Nat.add_assoc, Nat.add_right_comm missed]
    exact ih (fun i hi => period_succ next period i ▸ hle (i + 1) (Nat.succ_lt_succ hi)) hlt

/-- The next deadline is a whole number of periods on: the ones skipped lie up to `now`. -/
theorem nextDeadline_points {period : Nat} (hperiod : 0 < period) (due now : Nat) :
    ∃ missed, nextDeadline due period now = (due + (missed + 1) * period, missed) ∧
      (∀ i < missed, due + (i + 1) * period ≤ now) ∧ now < due + (missed + 1) * period := by
  have hlt : now < (nextDeadline due period now).1 := lt_nextDeadline hperiod
  unfold nextDeadline at hlt ⊢
  dsimp only at hlt ⊢
  split at hlt
  · next hnow =>
    refine ⟨0, ?_, fun i hi => absurd hi (Nat.not_lt_zero i), by simpa using hnow⟩
    rw [if_pos hnow, Nat.zero_add, Nat.one_mul]
  · next hnow =>
    refine ⟨(now - (due + period)) / period + 1, ?_, fun i hi => ?_, ?_⟩
    · rw [if_neg hnow, ← period_succ]
    · have hi : i * period ≤ now - (due + period) :=
        (Nat.le_div_iff_mul_le hperiod).mp (Nat.le_of_lt_succ hi)
      rw [period_succ]
      omega
    · rw [period_succ]
      exact hlt

theorem nextDeadline_le {due period now : Nat} (hperiod : 0 < period) (hle : due ≤ now) :
    (nextDeadline due period now).1 ≤ now + period := by
  obtain ⟨missed, hnext, hskipped, -⟩ := nextDeadline_points hperiod due now
  rw [hnext]
  cases missed with
  | zero => simpa using hle
  | succ missed =>
    have hlast := hskipped missed (Nat.lt_succ_self missed)
    rw [Nat.succ_mul]
    change due + ((missed + 1) * period + period) ≤ now + period
    omega

theorem catchUp_nextDeadline {period : Nat} (hperiod : 0 < period) (due now : Nat) :
    CatchUp period now (due + period) 0 (nextDeadline due period now).1
      (nextDeadline due period now).2 := by
  obtain ⟨missed, hnext, hle, hlt⟩ := nextDeadline_points hperiod due now
  have hloop : CatchUp period now (due + period) 0 (due + period + missed * period) (0 + missed) :=
    .of_points missed (fun i hi => period_succ due period i ▸ hle i hi)
      (period_succ due period missed ▸ hlt)
  rw [hnext, period_succ]
  rwa [Nat.zero_add] at hloop

theorem forall₂_of_mapM {α β : Type} {f : α → Option β} {as : List α} :
    ∀ {bs : List β}, as.mapM f = some bs → List.Forall₂ (fun a b => f a = some b) as bs := by
  induction as with
  | nil =>
    intro bs h
    cases h
    exact .nil
  | cons a as ih =>
    intro bs h
    rw [List.mapM_cons] at h
    cases ha : f a with
    | none => rw [ha] at h; cases h
    | some b =>
      cases has : as.mapM f with
      | none => rw [ha, has] at h; cases h
      | some bs' =>
        rw [ha, has] at h
        cases h
        exact .cons ha (ih has)

theorem exists_none_of_mapM {α β : Type} {f : α → Option β} {as : List α}
    (h : as.mapM f = none) : ∃ a ∈ as, f a = none := by
  induction as with
  | nil => cases h
  | cons a as ih =>
    rw [List.mapM_cons] at h
    cases ha : f a with
    | none => exact ⟨a, List.mem_cons_self, ha⟩
    | some b =>
      cases has : as.mapM f with
      | none =>
        obtain ⟨a', hmem, ha'⟩ := ih has
        exact ⟨a', List.mem_cons_of_mem a hmem, ha'⟩
      | some bs => rw [ha, has] at h; cases h

namespace PeriodicTask

variable {ω : Type}

structure Same (t t' : PeriodicTask ω) : Prop where
  name : t'.name = t.name
  period : t'.period = t.period
  job : t'.job = t.job

theorem schedule_cases {now : Nat} {t t' : PeriodicTask ω} (h : t.schedule now = some t') :
    (t' = t ∧ t.deadline ≠ none) ∨
      (t' = { t with deadline := some (now + t.period.nanos) } ∧ t.deadline = none) := by
  unfold schedule at h
  split at h
  · next due hdue =>
    cases h
    exact .inl ⟨rfl, by rw [hdue]; exact nofun⟩
  · next hnone =>
    dsimp only at h
    split at h
    · cases h
      exact .inr ⟨rfl, hnone⟩
    · cases h

theorem horizon_le_of_schedule {now : Nat} {t : PeriodicTask ω} (h : t.schedule now = none) :
    t.deadline = none ∧ Clock.horizon ≤ now + t.period.nanos := by
  unfold schedule at h
  split at h
  · cases h
  · next hnone =>
    dsimp only at h
    split at h
    · cases h
    · next hbeyond => exact ⟨hnone, Nat.not_lt.mp hbeyond⟩

theorem Same.of_schedule {now : Nat} {t t' : PeriodicTask ω} (h : t.schedule now = some t') :
    Same t t' := by
  rcases schedule_cases h with ⟨rfl, -⟩ | ⟨rfl, -⟩ <;> exact ⟨rfl, rfl, rfl⟩

variable [Clock ω]

def visit (t : PeriodicTask ω) (w : ω) : JobEnd × Nat × ω :=
  let (start, w) := Clock.read w
  let (result, w) := t.job.run w
  let (finish, w) := Clock.read w
  (result, finish - start, w)

def visited (t : PeriodicTask ω) (due now : Nat) (w : ω) : PeriodicTask ω :=
  (t.account due now (t.visit w).2.1).2

/-- A run tears down the thread, or it is accounted for. A crash after that is a deadline beyond the
horizon. -/
theorem serve_cases (policy : OverrunPolicy) (now due : Nat) (t : PeriodicTask ω) (w : ω) :
    ((t.visit w).1 = .crashed ∧ t.serve policy now due w = (.crashed, t, (t.visit w).2.2)) ∨
    ∃ served, t.serve policy now due w = (served, t.visited due now w, (t.visit w).2.2) ∧
      (served = .crashed → Clock.horizon ≤ (nextDeadline due t.period.nanos now).1) := by
  have hserve : t.serve policy now due w =
      ((t.conclude policy now due (t.visit w).2.1 (t.visit w).1).1,
        (t.conclude policy now due (t.visit w).2.1 (t.visit w).1).2, (t.visit w).2.2) := rfl
  have hdeadline : (t.visited due now w).deadline = some (nextDeadline due t.period.nanos now).1 :=
    rfl
  rw [hserve]
  unfold visited at hdeadline ⊢
  generalize t.visit w = visit at hdeadline ⊢
  obtain ⟨result, execution, w'⟩ := visit
  unfold conclude
  split
  · next hcrashed => exact .inl ⟨hcrashed, rfl⟩
  · dsimp only at hdeadline ⊢
    rw [hdeadline, Option.getD_some]
    split
    · next hbeyond => exact .inr ⟨_, rfl, fun _ => hbeyond⟩
    · refine .inr ?_
      split
      · exact ⟨_, rfl, nofun⟩
      · split <;> exact ⟨_, rfl, nofun⟩

end PeriodicTask

namespace Scheduler

variable {ω : Type}

theorem forall₂_of_scheduleNew {s s' : Scheduler ω} {now : Nat}
    (h : s.scheduleNew now = some s') :
    List.Forall₂ (fun t t' => t.schedule now = some t') s.tasks s'.tasks := by
  unfold scheduleNew at h
  cases htasks : s.tasks.mapM (PeriodicTask.schedule now) with
  | none => rw [htasks] at h; cases h
  | some tasks =>
    rw [htasks] at h
    cases h
    exact forall₂_of_mapM htasks

theorem horizon_le_of_scheduleNew {s : Scheduler ω} {now : Nat} (h : s.scheduleNew now = none) :
    ∃ t ∈ s.tasks, t.deadline = none ∧ Clock.horizon ≤ now + t.period.nanos := by
  obtain ⟨t, ht, hnone⟩ := exists_none_of_mapM (Option.map_eq_none_iff.mp h)
  exact ⟨t, ht, t.horizon_le_of_schedule hnone⟩

variable [Clock ω]

/-- The ways the due tasks of a cycle read at `now` can go: end, tasks and world. -/
inductive DueWay (now : Nat) :
    List (PeriodicTask ω) → ω → CycleEnd → List (PeriodicTask ω) → ω → Prop
  | done {w : ω} {report : CycleReport} : DueWay now [] w (.completed report) [] w
  | rests {t : PeriodicTask ω} {ts ts' : List (PeriodicTask ω)} {w w' : ω} {e : CycleEnd}
      (hdue : t.isDue now = false) (rest : DueWay now ts w e ts' w') :
      DueWay now (t :: ts) w e (t :: ts') w'
  | served {t : PeriodicTask ω} {due : Nat} {ts ts' : List (PeriodicTask ω)} {w w' : ω}
      {e : CycleEnd} (hdue : t.deadline = some due) (hle : due ≤ now)
      (rest : DueWay now ts (t.visit w).2.2 e ts' w') :
      DueWay now (t :: ts) w e (t.visited due now w :: ts') w'
  | halted {t : PeriodicTask ω} {due : Nat} {ts : List (PeriodicTask ω)} {w : ω} {e : CycleEnd}
      (hdue : t.deadline = some due) (hle : due ≤ now)
      (hbeyond : e = .crashed → Clock.horizon ≤ (nextDeadline due t.period.nanos now).1) :
      DueWay now (t :: ts) w e (t.visited due now w :: ts) (t.visit w).2.2
  | torn {t : PeriodicTask ω} {due : Nat} {ts : List (PeriodicTask ω)} {w : ω}
      (hdue : t.deadline = some due) (hle : due ≤ now) (hcrashed : (t.visit w).1 = .crashed) :
      DueWay now (t :: ts) w .crashed (t :: ts) (t.visit w).2.2

theorem dueWay_runDue (policy : OverrunPolicy) (now : Nat) (ts : List (PeriodicTask ω)) :
    ∀ (report : CycleReport) (w : ω),
      DueWay now ts w (runDue policy now ts report w).1 (runDue policy now ts report w).2.1
        (runDue policy now ts report w).2.2 := by
  induction ts with
  | nil => exact fun report w => .done
  | cons t ts ih =>
    intro report w
    unfold runDue
    dsimp only
    cases hdue : t.deadline with
    | none => exact .rests (by simp [PeriodicTask.isDue, hdue]) (ih report w)
    | some due =>
      dsimp only
      by_cases hlt : now < due
      · rw [if_pos hlt]
        exact .rests (by simp [PeriodicTask.isDue, hdue, hlt]) (ih report w)
      rw [if_neg hlt]
      have hle : due ≤ now := Nat.not_lt.mp hlt
      rcases t.serve_cases policy now due w with ⟨hcrashed, hserve⟩ | ⟨served, hserve, hbeyond⟩
      · rw [hserve]
        exact .torn hdue hle hcrashed
      · rw [hserve]
        cases served with
        | crashed => exact .halted hdue hle fun _ => hbeyond rfl
        | failed error => exact .halted hdue hle nofun
        | fine overran => exact .served hdue hle (ih _ _)

def ready? (s : Scheduler ω) (w : ω) : Option (Scheduler ω × ω) :=
  match s.scheduleNew (Clock.read w).1 with
  | none => none
  | some s =>
    match s.earliest? with
    | none => none
    | some deadline =>
      match Clock.waitFor deadline (Clock.read w).2 with
      | (false, _) => none
      | (true, w) => some (s, w)

theorem runReady_eq (s : Scheduler ω) (w : ω) :
    (s.runReady w).1 = (runDue s.policy (Clock.read w).1 s.tasks {} (Clock.read w).2).1 ∧
      (s.runReady w).2.1.tasks =
        (runDue s.policy (Clock.read w).1 s.tasks {} (Clock.read w).2).2.1 ∧
      (s.runReady w).2.1.policy = s.policy := by
  unfold runReady
  dsimp only
  generalize runDue s.policy (Clock.read w).1 s.tasks {} (Clock.read w).2 = out
  obtain ⟨_ | _ | _ | _, tasks, w'⟩ := out <;> exact ⟨rfl, rfl, rfl⟩

theorem dueWay_runReady (s : Scheduler ω) (w : ω) :
    DueWay (Clock.read w).1 s.tasks (Clock.read w).2 (s.runReady w).1 (s.runReady w).2.1.tasks
      (s.runReady w).2.2 := by
  have hway := dueWay_runDue s.policy (Clock.read w).1 s.tasks {} (Clock.read w).2
  unfold runReady
  dsimp only
  generalize runDue s.policy (Clock.read w).1 s.tasks {} (Clock.read w).2 = out at hway ⊢
  obtain ⟨_ | _ | _ | _, tasks, w'⟩ := out <;> exact hway

/-- The ways a cycle can go: end, scheduler and world. -/
inductive CycleWay (s : Scheduler ω) (w : ω) : CycleEnd → Scheduler ω → ω → Prop
  | empty (htasks : s.tasks = []) : CycleWay s w (.failed (.config .noTasks)) s w
  | beyond (hbeyond : s.scheduleNew (Clock.read w).1 = none) :
      CycleWay s w .crashed s (Clock.read w).2
  | idle {s' : Scheduler ω} (hschedule : s.scheduleNew (Clock.read w).1 = some s')
      (hready : s.ready? w = none) : CycleWay s w (.completed {}) s' (Clock.read w).2
  | stopped {s' : Scheduler ω} {deadline : Nat} {w' : ω}
      (hschedule : s.scheduleNew (Clock.read w).1 = some s') (hready : s.ready? w = none)
      (hwait : Clock.waitFor deadline (Clock.read w).2 = (false, w')) : CycleWay s w .stopped s' w'
  | ready {s' : Scheduler ω} {deadline : Nat} {w' : ω}
      (hschedule : s.scheduleNew (Clock.read w).1 = some s')
      (hready : s.ready? w = some (s', w'))
      (hwait : Clock.waitFor deadline (Clock.read w).2 = (true, w')) :
      CycleWay s w (s'.runReady w').1 (s'.runReady w').2.1 (s'.runReady w').2.2

theorem cycleWay_runCycle (s : Scheduler ω) (w : ω) :
    CycleWay s w (s.runCycle w).1 (s.runCycle w).2.1 (s.runCycle w).2.2 := by
  unfold runCycle
  by_cases hempty : s.tasks.isEmpty = true
  · rw [if_pos hempty]
    exact .empty (List.isEmpty_iff.mp hempty)
  rw [if_neg hempty]
  dsimp only
  cases hschedule : s.scheduleNew (Clock.read w).1 with
  | none => exact .beyond hschedule
  | some s' =>
    dsimp only
    cases hdeadline : s'.earliest? with
    | none => exact .idle hschedule (by simp only [ready?, hschedule, hdeadline])
    | some deadline =>
      dsimp only
      rcases hwait : Clock.waitFor deadline (Clock.read w).2 with ⟨_ | _, w'⟩
      · exact .stopped hschedule (by simp only [ready?, hschedule, hdeadline, hwait]) hwait
      · exact .ready hschedule (by simp only [ready?, hschedule, hdeadline, hwait]) hwait

end Scheduler
end RigBench
