import RigBench.Proofs.TaskLog

/-!
Schedules whose jobs do not fail. While a fact about the world holds, every run of a job succeeds
and keeps it; a cycle then ends early for a stop, for an overrun where the policy makes that a
fault, or for a deadline that the clock cannot show.
-/
namespace RigBench

variable {ω : Type}

theorem lt_of_sampleOf_lt {m n : Nat} (h : sampleOf m < sampleOf n) : m < n := by
  have hlt := UInt64.lt_iff_toNat_lt.mp h
  rw [toNat_sampleOf, toNat_sampleOf] at hlt
  omega

namespace PeriodicTask

/-- The task is one of the plan, and its statistics know its period. -/
structure Planned (plan : List (String × Duration)) (t : PeriodicTask ω) : Prop where
  mem : (t.name, t.period) ∈ plan
  positive : 0 < t.period.nanos
  measured : t.metrics.period = sampleOf t.period.nanos

variable {plan : List (String × Duration)} {t t' : PeriodicTask ω}

theorem Planned.schedule (h : t.Planned plan) {now : Nat} (hs : t.schedule now = some t') :
    t'.Planned plan := by
  rcases schedule_cases hs with ⟨rfl, -⟩ | ⟨rfl, -⟩
  · exact h
  · exact ⟨h.mem, h.positive, h.measured⟩

theorem Planned.account (h : t.Planned plan) (due now execution : Nat) :
    (t.account due now execution).2.Planned plan := ⟨h.mem, h.positive, h.measured⟩

end PeriodicTask

/-- What may end a run whose jobs do not fail, by the latest reading of the clock. -/
inductive PlannedEnd (policy : OverrunPolicy) (plan : List (String × Duration)) (latest : Nat) :
    RunEnd → Prop
  | finished : PlannedEnd policy plan latest .finished
  | overran {name : String} {period : Duration} {execution : Nat} (hpolicy : policy = .fault)
      (hplan : (name, period) ∈ plan) (hover : period.nanos < execution) :
    PlannedEnd policy plan latest
      (.failed (.taskOverran name (execution / 1000) period.micros))
  | beyond {name : String} {period : Duration} (hplan : (name, period) ∈ plan)
      (hbeyond : Clock.horizon ≤ latest + period.nanos) : PlannedEnd policy plan latest .crashed

theorem PlannedEnd.mono {policy : OverrunPolicy} {plan : List (String × Duration)} {m n : Nat}
    {e : RunEnd} (h : PlannedEnd policy plan m e) (hle : m ≤ n) : PlannedEnd policy plan n e := by
  cases h with
  | finished => exact .finished
  | overran hpolicy hplan hover => exact .overran hpolicy hplan hover
  | beyond hplan hbeyond => exact .beyond hplan (Nat.le_trans hbeyond (Nat.add_le_add_right hle _))

theorem PlannedEnd.anytime {policy : OverrunPolicy} {plan : List (String × Duration)} {m : Nat}
    {e : RunEnd} (h : PlannedEnd policy plan m e) (he : e ≠ .crashed) (n : Nat) :
    PlannedEnd policy plan n e := by
  cases h with
  | finished => exact .finished
  | overran hpolicy hplan hover => exact .overran hpolicy hplan hover
  | beyond hplan hbeyond => exact absurd rfl he

def CycleEnd.ending : CycleEnd → RunEnd
  | stopped | completed _ => .finished
  | failed e => .failed e
  | crashed => .crashed

def PeriodicTask.Served.ending : Served → RunEnd
  | fine _ => .finished
  | failed e => .failed e
  | crashed => .crashed

namespace PeriodicTask.Planned

variable {plan : List (String × Duration)} {t : PeriodicTask ω}

theorem lt_of_overran (h : t.Planned plan) (due now execution : Nat)
    (hover : (t.account due now execution).1 = true) : t.period.nanos < execution := by
  have hlt : t.metrics.period < sampleOf execution := of_decide_eq_true hover
  rw [h.measured] at hlt
  exact lt_of_sampleOf_lt hlt

theorem conclude (h : t.Planned plan) (policy : OverrunPolicy) {now due : Nat} (hle : due ≤ now)
    (execution : Nat) :
    PlannedEnd policy plan now (t.conclude policy now due execution .done).1.ending ∧
      t.Same (t.conclude policy now due execution .done).2 ∧
      (t.conclude policy now due execution .done).2.Planned plan := by
  have haccount := h.account due now execution
  have hover := h.lt_of_overran due now execution
  have hnext : (t.account due now execution).2.deadline.getD 0 ≤ now + t.period.nanos :=
    nextDeadline_le h.positive hle
  unfold PeriodicTask.conclude
  generalize haccounted : t.account due now execution = accounted at haccount hover hnext
  have hsame : t.Same accounted.2 := haccounted ▸ ⟨rfl, rfl, rfl⟩
  obtain ⟨overran, t'⟩ := accounted
  dsimp only at haccount hover hnext hsame ⊢
  split
  · next hbeyond => exact ⟨.beyond h.mem (Nat.le_trans hbeyond hnext), hsame, haccount⟩
  · split
    · next hfault =>
      simp only [Bool.and_eq_true, decide_eq_true_eq] at hfault
      rw [hsame.name, hsame.period]
      exact ⟨.overran hfault.2 h.mem (hover hfault.1), hsame, haccount⟩
    · exact ⟨.finished, hsame, haccount⟩

end PeriodicTask.Planned

/-- Readings and sleeps keep a fact about the world. Readings are no later than the time the world
shows, which never goes back. -/
structure Clock.Monitors [Clock ω] (time : ω → Nat) (P : ω → Prop) : Prop where
  keeps : Clock.Keeps P
  shows : ∀ w, (Clock.read w).1 ≤ time (Clock.read w).2
  onward : ∀ n, Clock.Keeps fun w => n ≤ time w

/-- A planned task whose job keeps a fact about the world and does not fail while it holds. -/
structure PeriodicTask.Steady (plan : List (String × Duration)) (time : ω → Nat) (P : ω → Prop)
    (t : PeriodicTask ω) : Prop where
  planned : t.Planned plan
  run : ∀ w, P w → ∃ w', t.job.run w = (.done, w') ∧ P w'
  onward : ∀ n, t.job.RunKeeps fun w => n ≤ time w

variable {plan : List (String × Duration)} {time : ω → Nat} {P : ω → Prop}

theorem PeriodicTask.Steady.of_same {t t' : PeriodicTask ω} (h : t.Steady plan time P)
    (hsame : t.Same t') (hplanned : t'.Planned plan) : t'.Steady plan time P where
  planned := hplanned
  run := hsame.job ▸ h.run
  onward := hsame.job ▸ h.onward

theorem PeriodicTask.Steady.runKeeps {t : PeriodicTask ω} (h : t.Steady plan time P) :
    t.job.RunKeeps P := by
  intro w hw
  obtain ⟨w', hrun, hw'⟩ := h.run w hw
  rwa [hrun]

variable [Clock ω]

theorem PeriodicTask.Steady.serve (hclock : Clock.Monitors time P) {t : PeriodicTask ω}
    (h : t.Steady plan time P) (policy : OverrunPolicy) {now due : Nat} (hle : due ≤ now) {w : ω}
    (hw : P w) :
    PlannedEnd policy plan now (t.serve policy now due w).1.ending ∧
      (t.serve policy now due w).2.1.Steady plan time P ∧ P (t.serve policy now due w).2.2 := by
  obtain ⟨w', hrun, hw'⟩ := h.run _ (hclock.keeps.read w hw)
  have hserve : t.serve policy now due w =
      ((t.conclude policy now due (t.visit w).2.1 (t.visit w).1).1,
        (t.conclude policy now due (t.visit w).2.1 (t.visit w).1).2, (t.visit w).2.2) := rfl
  have hdone : (t.visit w).1 = .done := congrArg Prod.fst hrun
  have hworld : (t.visit w).2.2 = (Clock.read w').2 :=
    congrArg (fun run => (Clock.read run.2).2) hrun
  obtain ⟨hend, hsame, hplanned⟩ := h.planned.conclude policy hle (t.visit w).2.1
  rw [hserve, hdone, hworld]
  exact ⟨hend, h.of_same hsame hplanned, hclock.keeps.read w' hw'⟩

namespace Scheduler

theorem steady_runDue (hclock : Clock.Monitors time P) (policy : OverrunPolicy) (now : Nat)
    {ts : List (PeriodicTask ω)} (hts : ∀ t ∈ ts, t.Steady plan time P) (report : CycleReport)
    {w : ω} (hw : P w) :
    PlannedEnd policy plan now (runDue policy now ts report w).1.ending ∧
      ∀ t ∈ (runDue policy now ts report w).2.1, t.Steady plan time P := by
  induction ts generalizing report w with
  | nil => exact ⟨.finished, nofun⟩
  | cons t ts ih =>
    obtain ⟨ht, hts⟩ := List.forall_mem_cons.mp hts
    have hskip : ∀ {report : CycleReport} {t' : PeriodicTask ω} {w : ω}, t'.Steady plan time P →
        P w → PlannedEnd policy plan now (runDue policy now ts report w).1.ending ∧
          ∀ t ∈ t' :: (runDue policy now ts report w).2.1, t.Steady plan time P := by
      intro report t' w ht' hw
      obtain ⟨hend, hrest⟩ := ih hts report hw
      exact ⟨hend, List.forall_mem_cons.mpr ⟨ht', hrest⟩⟩
    unfold runDue
    dsimp only
    cases hdue : t.deadline with
    | none => exact hskip ht hw
    | some due =>
      dsimp only
      by_cases hlt : now < due
      · rw [if_pos hlt]
        exact hskip ht hw
      rw [if_neg hlt]
      obtain ⟨hend, ht', hw'⟩ := ht.serve hclock policy (Nat.not_lt.mp hlt) hw
      generalize t.serve policy now due w = served at hend ht' hw' ⊢
      obtain ⟨served, t', w'⟩ := served
      cases served with
      | crashed => exact ⟨hend, List.forall_mem_cons.mpr ⟨ht', hts⟩⟩
      | failed e => exact ⟨hend, List.forall_mem_cons.mpr ⟨ht', hts⟩⟩
      | fine overran => exact hskip ht' hw'

structure Steady (plan : List (String × Duration)) (time : ω → Nat) (P : ω → Prop)
    (s : Scheduler ω) : Prop where
  tasks : ∀ t ∈ s.tasks, t.Steady plan time P
  ne_nil : s.tasks ≠ []

variable {s s' : Scheduler ω} {w w' : ω}

omit [Clock ω] in
theorem Steady.jobs (h : s.Steady plan time P) : ∀ r ∈ s.roster, r.2.RunKeeps P := by
  intro r hr
  obtain ⟨t, ht, rfl⟩ := List.mem_map.mp hr
  exact (h.tasks t ht).runKeeps

omit [Clock ω] in
theorem Steady.onward (h : s.Steady plan time P) (n : Nat) :
    ∀ r ∈ s.roster, r.2.RunKeeps fun w => n ≤ time w := by
  intro r hr
  obtain ⟨t, ht, rfl⟩ := List.mem_map.mp hr
  exact (h.tasks t ht).onward n

omit [Clock ω] in
theorem Steady.of_roster (h : s.Steady plan time P) (hroster : s'.roster = s.roster)
    (htasks : ∀ t ∈ s'.tasks, t.Steady plan time P) : s'.Steady plan time P where
  tasks := htasks
  ne_nil hnil := by
    rw [roster, roster, hnil] at hroster
    exact h.ne_nil (List.map_eq_nil_iff.mp hroster.symm)

omit [Clock ω] in
theorem Steady.scheduleNew (h : s.Steady plan time P) {now : Nat}
    (hs : s.scheduleNew now = some s') : s'.Steady plan time P ∧ s'.policy = s.policy := by
  refine ⟨h.of_roster (roster_scheduleNew hs) ?_, ?_⟩
  · have htasks := h.tasks
    have hscheduled := forall₂_of_scheduleNew hs
    generalize s.tasks = ts at htasks hscheduled
    generalize s'.tasks = ts' at hscheduled ⊢
    induction hscheduled with
    | nil => exact nofun
    | cons ht _ ih =>
      obtain ⟨hsteady, hrest⟩ := List.forall_mem_cons.mp htasks
      have hsame := PeriodicTask.Same.of_schedule ht
      exact List.forall_mem_cons.mpr
        ⟨hsteady.of_same hsame (hsteady.planned.schedule ht), ih hrest⟩
  · obtain ⟨tasks, -, rfl⟩ := Option.map_eq_some_iff.mp hs
    rfl

theorem Steady.runCycle (hclock : Clock.Monitors time P) (h : s.Steady plan time P) (hw : P w) :
    PlannedEnd s.policy plan (time (s.runCycle w).2.2) (s.runCycle w).1.ending ∧
      (s.runCycle w).2.1.Steady plan time P ∧ (s.runCycle w).2.1.policy = s.policy ∧
      P (s.runCycle w).2.2 := by
  have hway := s.cycleWay_runCycle w
  obtain ⟨hw', hroster⟩ := hway.keeps hclock.keeps h.jobs hw
  generalize s.runCycle w = cycle at hway hw' hroster ⊢
  obtain ⟨e, s', w'⟩ := cycle
  dsimp only at hway hw' hroster ⊢
  cases hway with
  | empty htasks => exact absurd htasks h.ne_nil
  | beyond hbeyond =>
    obtain ⟨t, ht, -, hle⟩ := horizon_le_of_scheduleNew hbeyond
    have hreading := Nat.add_le_add_right (hclock.shows w) t.period.nanos
    exact ⟨.beyond (h.tasks t ht).planned.mem (Nat.le_trans hle hreading), h, rfl, hw'⟩
  | idle hschedule hready =>
    obtain ⟨hsteady, hpolicy⟩ := h.scheduleNew hschedule
    exact ⟨.finished, hsteady, hpolicy, hw'⟩
  | stopped hschedule hready hwait =>
    obtain ⟨hsteady, hpolicy⟩ := h.scheduleNew hschedule
    exact ⟨.finished, hsteady, hpolicy, hw'⟩
  | @ready s₁ deadline w₁ hschedule hready hwait =>
    obtain ⟨hsteady, hpolicy⟩ := h.scheduleNew hschedule
    have hw₁ : P w₁ := by
      have hkept := hclock.keeps.waitFor deadline (hclock.keeps.read w hw)
      rwa [hwait] at hkept
    obtain ⟨hend, htasks⟩ := steady_runDue hclock s₁.policy (Clock.read w₁).1 hsteady.tasks {}
      (hclock.keeps.read w₁ hw₁)
    obtain ⟨heq, htasks', hpolicy'⟩ := s₁.runReady_eq w₁
    have hlater := ((s₁.dueWay_runReady w₁).keeps (hclock.onward (Clock.read w₁).1)
      (fun t ht => (hsteady.tasks t ht).onward _) (hclock.shows w₁)).1
    rw [← heq] at hend
    rw [← htasks'] at htasks
    rw [hpolicy] at hend
    exact ⟨hend.mono hlater, h.of_roster hroster htasks, hpolicy'.trans hpolicy, hw'⟩

theorem Steady.runLoop (hclock : Clock.Monitors time P) (h : s.Steady plan time P) (hw : P w)
    {fuel : Nat} {e : RunEnd} (hrun : s.runLoop fuel w = some (e, s', w')) :
    PlannedEnd s.policy plan (time w') e := by
  induction fuel generalizing s w with
  | zero => cases hrun
  | succ fuel ih =>
    unfold Scheduler.runLoop at hrun
    split at hrun
    · cases hrun
      exact .finished
    · obtain ⟨hend, hsteady, hpolicy, hw₁⟩ := h.runCycle hclock hw
      generalize s.runCycle w = cycle at hrun hend hsteady hpolicy hw₁
      obtain ⟨e₁, s₁, w₁⟩ := cycle
      dsimp only at hrun hend hsteady hpolicy hw₁
      cases e₁ with
      | completed report => exact hpolicy ▸ ih hsteady hw₁ hrun
      | stopped => cases hrun; exact hend
      | failed e₁ => cases hrun; exact hend
      | crashed => cases hrun; exact hend

theorem Steady.run (hclock : Clock.Monitors time P) (h : s.Steady plan time P) (hw : P w)
    {fuel : Nat} {e : RunEnd} (hrun : s.run fuel w = some (e, s', w')) :
    PlannedEnd s.policy plan (time w') e := by
  by_cases he : e = .crashed
  · -- There is no shutdown after a crash, so the world is that of the loop.
    subst he
    have hloop : s.runLoop fuel w = some (.crashed, s', w') := by
      unfold Scheduler.run at hrun
      generalize s.runLoop fuel w = ended at hrun ⊢
      obtain _ | ⟨_ | _ | _, s₁, w₁⟩ := ended <;> first | exact hrun | cases hrun
    exact h.runLoop hclock hw hloop
  · obtain ⟨w₁, hloop, -⟩ := exists_runLoop hrun he
    exact (h.runLoop hclock hw hloop).anytime he _

theorem Steady.log_rounds (hclock : Clock.Keeps P) (h : s.Steady plan time P) (hw : P w) (k : Nat) :
    ∀ call ∈ (s.logged.rounds k { world := w }).2.log, P call.before ∧
      ∃ job, (call.task, job) ∈ s.roster ∧ job.run call.before = (.done, call.after) := by
  let Succeeded (x : Logged ω) := P x.world ∧ ∀ call ∈ x.log, P call.before ∧
    ∃ job, (call.task, job) ∈ s.roster ∧ job.run call.before = (.done, call.after)
  have hlogged : Clock.Keeps Succeeded :=
    ⟨fun x hx => ⟨hclock.read _ hx.1, hx.2⟩, fun n x hx => ⟨hclock.sleepUntil n _ hx.1, hx.2⟩⟩
  refine (rounds_keeps hlogged k ?_ ⟨hw, fun _ hmem => absurd hmem List.not_mem_nil⟩).1.2
  rw [roster_logged]
  intro r' hr' x hx
  obtain ⟨r, hr, rfl⟩ := List.mem_map.mp hr'
  obtain ⟨t, ht, rfl⟩ := List.mem_map.mp hr
  obtain ⟨w', hrun, hw'⟩ := (h.tasks t ht).run x.world hx.1
  have hcall : t.job.run x.world = (.done, (t.job.run x.world).2) := by rw [hrun]
  refine ⟨show P (t.job.run x.world).2 from hrun ▸ hw', List.forall_mem_cons.mpr ⟨?_, hx.2⟩⟩
  exact ⟨hx.1, t.job, hr, hcall⟩

omit [Clock ω] in
theorem scheduleNew_eq_none {t : PeriodicTask ω} (ht : t ∈ s.tasks) (hnew : t.deadline = none)
    {now : Nat} (hbeyond : Clock.horizon ≤ now + t.period.nanos) : s.scheduleNew now = none := by
  have hnone : t.schedule now = none := by
    unfold PeriodicTask.schedule
    rw [hnew]
    exact if_neg (Nat.not_lt.mpr hbeyond)
  refine Option.eq_none_iff_forall_ne_some.mpr fun s' hs => ?_
  obtain ⟨n, hn, rfl⟩ := List.getElem_of_mem ht
  have hscheduled := (forall₂_of_scheduleNew hs).get hn
    ((forall₂_of_scheduleNew hs).length_eq ▸ hn)
  exact absurd (hscheduled.symm.trans hnone) nofun

theorem run_of_beyond {t : PeriodicTask ω} (ht : t ∈ s.tasks) (hnew : t.deadline = none)
    (hgo : Clock.stopping w = false)
    (hbeyond : Clock.horizon ≤ (Clock.read w).1 + t.period.nanos) (fuel : Nat) :
    s.run (fuel + 1) w = some (.crashed, s, (Clock.read w).2) := by
  have htasks : s.tasks.isEmpty = false := List.isEmpty_eq_false_iff.mpr (List.ne_nil_of_mem ht)
  have hcycle : s.runCycle w = (.crashed, s, (Clock.read w).2) := by
    unfold Scheduler.runCycle
    rw [htasks]
    dsimp only
    rw [scheduleNew_eq_none ht hnew hbeyond]
    rfl
  unfold Scheduler.run Scheduler.runLoop
  rw [hgo, hcycle]
  rfl

end Scheduler
end RigBench
