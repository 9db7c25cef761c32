import RigBench.Clock.Virtual
import RigBench.Proofs.Cycle

/-!
The endings of a cycle. It stops while it waits, or runs the tasks that are due one after the other,
up to the first that fails or, where the policy makes that a fault, overruns.
-/
namespace RigBench

variable {ω : Type}

/-- A run of a task: how its job ended, how long that took, and the world it left. -/
structure TaskRun (ω : Type) where
  task : PeriodicTask ω
  result : JobEnd
  execution : Nat
  world : ω

namespace TaskRun

/-- The run took longer than the period, both as samples show them. -/
def overran (r : TaskRun ω) : Bool := sampleOf r.task.period.nanos < sampleOf r.execution

/-- The task with the run in its statistics, and with its next deadline. -/
def accounted (r : TaskRun ω) (now : Nat) : PeriodicTask ω :=
  (r.task.account (r.task.deadline.getD 0) now r.execution).2

/-- The job tore down the thread, or the next deadline cannot be shown on the clock. -/
def Torn (r : TaskRun ω) (now : Nat) : Prop :=
  r.result = .crashed ∨ Clock.horizon ≤ (r.accounted now).deadline.getD 0

/-- The error that the run ends a cycle with: its own one, or else its overrun. -/
def fault? (r : TaskRun ω) (policy : OverrunPolicy) : Option BenchError :=
  match r.result with
  | .failed e => some (.taskFailed r.task.name e)
  | _ =>
    if r.overran && policy = .fault then
      some (.taskOverran r.task.name (r.execution / 1000) r.task.period.micros)
    else none

/-- The run is recorded, the next deadline is the first later one on the grid of the one served,
those on the way to it count as missed, and all else is as it was. -/
def AccountsFor (r : TaskRun ω) (now : Nat) (t : PeriodicTask ω) : Prop :=
  ∃ due missed, r.task.deadline = some due ∧
    due + missed * r.task.period.nanos ≤ now ∧ now < due + (missed + 1) * r.task.period.nanos ∧
    t = { r.task with
      metrics := (r.task.metrics.record r.execution).2.recordMissed missed
      deadline := some (due + (missed + 1) * r.task.period.nanos) }

theorem accountsFor_accounted {r : TaskRun ω} {now due : Nat} (hperiod : 0 < r.task.period.nanos)
    (hdue : r.task.deadline = some due) (hle : due ≤ now) : r.AccountsFor now (r.accounted now) := by
  obtain ⟨missed, hnext, hmissed, hlt⟩ := nextDeadline_points hperiod due now
  refine ⟨due, missed, hdue, ?_, hlt, ?_⟩
  · cases missed with
    | zero => simpa using hle
    | succ k => exact hmissed k (Nat.lt_succ_self k)
  · unfold accounted PeriodicTask.account
    rw [hdue, Option.getD_some, hnext]

structure Fine (r : TaskRun ω) (policy : OverrunPolicy) (now : Nat) : Prop where
  whole : ¬r.Torn now
  faultless : r.fault? policy = none

end TaskRun

def CycleReport.of (rs : List (TaskRun ω)) : CycleReport where
  executed := rs.map (·.task.name)
  overruns := (rs.filter (·.overran)).map (·.task.name)

def CycleReport.append (a b : CycleReport) : CycleReport where
  executed := a.executed ++ b.executed
  overruns := a.overruns ++ b.overruns

theorem CycleReport.append_of_append (report : CycleReport) (rs rs' : List (TaskRun ω)) :
    (report.append (.of rs)).append (.of rs') = report.append (.of (rs ++ rs')) := by
  simp [append, of]

namespace PeriodicTask

structure Metered (t : PeriodicTask ω) : Prop where
  positive : 0 < t.period.nanos
  measured : t.metrics.period = sampleOf t.period.nanos

theorem exists_due {t : PeriodicTask ω} {now : Nat} (h : t.isDue now = true) :
    ∃ due, t.deadline = some due ∧ due ≤ now := by
  unfold isDue at h
  split at h
  · next due hdue => exact ⟨due, hdue, of_decide_eq_true h⟩
  · cases h

variable [Clock ω]

def runOnce (t : PeriodicTask ω) (w : ω) : TaskRun ω :=
  ⟨t, (t.visit w).1, (t.visit w).2.1, (t.visit w).2.2⟩

theorem serve_eq_conclude (policy : OverrunPolicy) (now due : Nat) (t : PeriodicTask ω) (w : ω) :
    t.serve policy now due w =
      ((t.conclude policy now due (t.runOnce w).execution (t.runOnce w).result).1,
        (t.conclude policy now due (t.runOnce w).execution (t.runOnce w).result).2,
        (t.runOnce w).world) := rfl

theorem account_runOnce {now due : Nat} {t : PeriodicTask ω} (ht : t.Metered)
    (hdue : t.deadline = some due) (w : ω) :
    t.account due now (t.runOnce w).execution =
      ((t.runOnce w).overran, (t.runOnce w).accounted now) := by
  have hoverran : (t.runOnce w).overran = decide (t.metrics.period < sampleOf (t.visit w).2.1) := by
    rw [ht.measured]
    rfl
  have haccounted : (t.runOnce w).accounted now = (t.account due now (t.visit w).2.1).2 := by
    change (t.account (t.deadline.getD 0) now _).2 = _
    rw [hdue]
    rfl
  rw [hoverran, haccounted]
  rfl

theorem serve_eq (policy : OverrunPolicy) {now due : Nat} {t : PeriodicTask ω} (ht : t.Metered)
    (hdue : t.deadline = some due) (w : ω) (hwhole : ¬(t.runOnce w).Torn now) :
    t.serve policy now due w =
      (match (t.runOnce w).fault? policy with
        | some e => .failed e
        | none => .fine (t.runOnce w).overran,
        (t.runOnce w).accounted now, (t.runOnce w).world) := by
  obtain ⟨hcrashed, hhorizon⟩ := not_or.mp hwhole
  rw [serve_eq_conclude]
  unfold conclude TaskRun.fault?
  rw [account_runOnce ht hdue]
  have htask : (t.runOnce w).task = t := rfl
  rw [htask]
  cases hresult : (t.runOnce w).result with
  | crashed => exact absurd hresult hcrashed
  | failed e => simp only [if_neg hhorizon]; rfl
  | done =>
    simp only [if_neg hhorizon]
    split <;> rfl

theorem serve_of_torn (policy : OverrunPolicy) {now due : Nat} {t : PeriodicTask ω} (ht : t.Metered)
    (hdue : t.deadline = some due) {w : ω} (htorn : (t.runOnce w).Torn now) :
    (t.serve policy now due w).1 = .crashed := by
  rw [serve_eq_conclude]
  unfold conclude
  split
  · rfl
  · next hresult =>
    rw [account_runOnce ht hdue]
    exact congrArg Prod.fst (if_pos (htorn.resolve_left hresult))

end PeriodicTask

namespace Scheduler

variable {s s' : Scheduler ω} {now : Nat}

theorem scheduleNew_eq (h : s.scheduleNew now = some s') : s' = { s with tasks := s'.tasks } := by
  unfold scheduleNew at h
  obtain ⟨tasks, -, rfl⟩ := Option.map_eq_some_iff.mp h
  rfl

theorem forall₂_first (h : s.scheduleNew now = some s') :
    List.Forall₂ (fun t t' => t.deadline ≠ none ∧ t' = t ∨
      t.deadline = none ∧ t' = { t with deadline := some (now + t.period.nanos) })
      s.tasks s'.tasks := by
  refine (forall₂_of_scheduleNew h).imp fun t t' ht => ?_
  rcases PeriodicTask.schedule_cases ht with ⟨heq, hdue⟩ | ⟨heq, hnone⟩
  · exact .inl ⟨hdue, heq⟩
  · exact .inr ⟨hnone, heq⟩

theorem forall_scheduleNew {P : PeriodicTask ω → Prop}
    (hP : ∀ t deadline, P t → P { t with deadline := some deadline })
    (h : s.scheduleNew now = some s') (htasks : ∀ t ∈ s.tasks, P t) :
    ∀ t ∈ s'.tasks, P t ∧ t.deadline ≠ none := by
  have hforall := forall₂_first h
  generalize s.tasks = ts at htasks hforall
  generalize s'.tasks = ts' at hforall
  induction hforall with
  | nil => exact nofun
  | cons hhead htail ih =>
    rw [List.forall_mem_cons] at htasks ⊢
    refine ⟨?_, ih htasks.2⟩
    rcases hhead with ⟨hdue, rfl⟩ | ⟨-, rfl⟩
    · exact ⟨htasks.1, hdue⟩
    · exact ⟨hP _ _ htasks.1, nofun⟩

theorem ne_nil_of_scheduleNew (h : s.scheduleNew now = some s') (hne : s.tasks ≠ []) :
    s'.tasks ≠ [] := by
  intro hnil
  have hlength := (forall₂_first h).length_eq
  rw [hnil, List.length_nil, List.length_eq_zero_iff] at hlength
  exact hne hlength

theorem exists_earliest? (hne : s.tasks ≠ []) (hscheduled : ∀ t ∈ s.tasks, t.deadline ≠ none) :
    ∃ deadline, s.earliest? = some deadline ∧ ∃ t ∈ s.tasks, t.deadline = some deadline := by
  obtain ⟨t, ht⟩ := List.exists_mem_of_ne_nil _ hne
  obtain ⟨due, hdue⟩ := Option.ne_none_iff_exists'.mp (hscheduled t ht)
  have hmem : due ∈ s.tasks.filterMap (·.deadline) := List.mem_filterMap.mpr ⟨t, ht, hdue⟩
  obtain ⟨deadline, hdeadline⟩ := Option.isSome_iff_exists.mp (List.isSome_min?_of_mem hmem)
  exact ⟨deadline, hdeadline, List.mem_filterMap.mp (List.min?_mem hdeadline)⟩

theorem metered_add {name : String} {period : Duration} {job : Job ω}
    (h : ∀ t ∈ s.tasks, t.Metered) (hadd : s.add name period job = .ok s') :
    ∀ t ∈ s'.tasks, t.Metered := by
  unfold add at hadd
  split at hadd
  · cases hadd
  · next haccepted =>
    cases hadd
    obtain ⟨hpositive, -⟩ := refusal?_eq_none_iff.mp haccepted
    exact List.forall_mem_append.mpr ⟨h, List.forall_mem_singleton.mpr
      ⟨Nat.pos_of_ne_zero (by simpa [Duration.isZero] using hpositive), rfl⟩⟩

theorem metered_scheduleNew (h : ∀ t ∈ s.tasks, t.Metered)
    (hschedule : s.scheduleNew now = some s') : ∀ t ∈ s'.tasks, t.Metered := fun t ht =>
  (forall_scheduleNew (fun _ _ ht => ⟨ht.positive, ht.measured⟩) hschedule h t ht).1

end Scheduler

variable [Clock ω]

/-- Run the tasks that are due, in order and whatever they answer: the runs, the tasks after them
and the world. -/
def serveDue (now : Nat) :
    List (PeriodicTask ω) → ω → List (TaskRun ω) × List (PeriodicTask ω) × ω
  | [], w => ([], [], w)
  | t :: ts, w =>
    if t.isDue now then
      let r := t.runOnce w
      let (rs, ts, w) := serveDue now ts r.world
      (r :: rs, r.accounted now :: ts, w)
    else
      let (rs, ts, w) := serveDue now ts w
      (rs, t :: ts, w)

theorem serveDue_of_due {now : Nat} {t : PeriodicTask ω} (h : t.isDue now = true)
    (ts : List (PeriodicTask ω)) (w : ω) :
    serveDue now (t :: ts) w =
      (t.runOnce w :: (serveDue now ts (t.runOnce w).world).1,
        (t.runOnce w).accounted now :: (serveDue now ts (t.runOnce w).world).2.1,
        (serveDue now ts (t.runOnce w).world).2.2) := by
  rw [serveDue, if_pos h]

theorem serveDue_of_not_due {now : Nat} {t : PeriodicTask ω} (h : t.isDue now = false)
    (ts : List (PeriodicTask ω)) (w : ω) :
    serveDue now (t :: ts) w =
      ((serveDue now ts w).1, t :: (serveDue now ts w).2.1, (serveDue now ts w).2.2) := by
  rw [serveDue, if_neg (by simp [h])]

theorem task_serveDue (now : Nat) (ts : List (PeriodicTask ω)) (w : ω) :
    (serveDue now ts w).1.map (·.task) = ts.filter (·.isDue now) := by
  induction ts generalizing w with
  | nil => rfl
  | cons t ts ih =>
    cases hdue : t.isDue now with
    | true =>
      rw [serveDue_of_due hdue, List.map_cons, ih, List.filter_cons_of_pos hdue]
      rfl
    | false => rw [serveDue_of_not_due hdue, ih, List.filter_cons_of_neg (by simp [hdue])]

theorem lt_deadline_of_serveDue {now : Nat} {ts : List (PeriodicTask ω)}
    (hmetered : ∀ t ∈ ts, t.Metered) (hscheduled : ∀ t ∈ ts, t.deadline ≠ none) (w : ω) :
    ∀ t ∈ (serveDue now ts w).2.1, ∃ due, t.deadline = some due ∧ now < due := by
  induction ts generalizing w with
  | nil => exact nofun
  | cons t ts ih =>
    rw [List.forall_mem_cons] at hmetered hscheduled
    cases hdue : t.isDue now with
    | true =>
      rw [serveDue_of_due hdue, List.forall_mem_cons]
      exact ⟨⟨_, rfl, lt_nextDeadline hmetered.1.positive⟩, ih hmetered.2 hscheduled.2 _⟩
    | false =>
      rw [serveDue_of_not_due hdue, List.forall_mem_cons]
      obtain ⟨due, hdeadline⟩ := Option.ne_none_iff_exists'.mp hscheduled.1
      refine ⟨⟨due, hdeadline, ?_⟩, ih hmetered.2 hscheduled.2 _⟩
      simpa [PeriodicTask.isDue, hdeadline] using hdue

namespace Scheduler

theorem runDue_of_not_due (policy : OverrunPolicy) {now : Nat} {t : PeriodicTask ω}
    (h : t.isDue now = false) (ts : List (PeriodicTask ω)) (report : CycleReport) (w : ω) :
    runDue policy now (t :: ts) report w =
      ((runDue policy now ts report w).1, t :: (runDue policy now ts report w).2.1,
        (runDue policy now ts report w).2.2) := by
  rw [runDue]
  dsimp only
  cases hdeadline : t.deadline with
  | none => rfl
  | some due =>
    have hlt : now < due := by simpa [PeriodicTask.isDue, hdeadline] using h
    dsimp only
    rw [if_pos hlt]

theorem runDue_of_fine {policy : OverrunPolicy} {now : Nat} {t : PeriodicTask ω} (ht : t.Metered)
    (hdue : t.isDue now = true) {w : ω} (hfine : (t.runOnce w).Fine policy now)
    (ts : List (PeriodicTask ω)) (report : CycleReport) :
    runDue policy now (t :: ts) report w =
      let out := runDue policy now ts (report.append (.of [t.runOnce w])) (t.runOnce w).world
      (out.1, (t.runOnce w).accounted now :: out.2.1, out.2.2) := by
  obtain ⟨due, hdeadline, hle⟩ := PeriodicTask.exists_due hdue
  have hreport : report.append (.of [t.runOnce w]) =
      { executed := report.executed ++ [t.name]
        overruns := if (t.runOnce w).overran then report.overruns ++ [t.name]
          else report.overruns } := by
    have htask : (t.runOnce w).task = t := rfl
    unfold CycleReport.append CycleReport.of
    cases hoverran : (t.runOnce w).overran <;> simp [hoverran, htask]
  have hname : ((t.runOnce w).accounted now).name = t.name := rfl
  rw [hreport, runDue]
  simp only [hdeadline, if_neg (Nat.not_lt.mpr hle),
    PeriodicTask.serve_eq policy ht hdeadline w hfine.whole, hfine.faultless, hname]

theorem runDue_of_fault {policy : OverrunPolicy} {now : Nat} {t : PeriodicTask ω} (ht : t.Metered)
    (hdue : t.isDue now = true) {w : ω} (hwhole : ¬(t.runOnce w).Torn now) {e : BenchError}
    (hfault : (t.runOnce w).fault? policy = some e) (ts : List (PeriodicTask ω))
    (report : CycleReport) :
    runDue policy now (t :: ts) report w =
      (.failed e, (t.runOnce w).accounted now :: ts, (t.runOnce w).world) := by
  obtain ⟨due, hdeadline, hle⟩ := PeriodicTask.exists_due hdue
  rw [runDue]
  simp only [hdeadline, if_neg (Nat.not_lt.mpr hle),
    PeriodicTask.serve_eq policy ht hdeadline w hwhole, hfault]

theorem runDue_append {policy : OverrunPolicy} {now : Nat} {before : List (PeriodicTask ω)}
    (hmetered : ∀ t ∈ before, t.Metered) {w : ω}
    (hfine : ∀ r ∈ (serveDue now before w).1, r.Fine policy now) (after : List (PeriodicTask ω))
    (report : CycleReport) :
    runDue policy now (before ++ after) report w =
      let served := serveDue now before w
      let out := runDue policy now after (report.append (.of served.1)) served.2.2
      (out.1, served.2.1 ++ out.2.1, out.2.2) := by
  induction before generalizing report w with
  | nil => simp [serveDue, CycleReport.of, CycleReport.append]
  | cons t ts ih =>
    rw [List.forall_mem_cons] at hmetered
    rw [List.cons_append]
    cases hdue : t.isDue now with
    | true =>
      rw [serveDue_of_due hdue] at hfine ⊢
      rw [List.forall_mem_cons] at hfine
      rw [runDue_of_fine hmetered.1 hdue hfine.1, ih hmetered.2 hfine.2]
      dsimp only
      rw [CycleReport.append_of_append, List.singleton_append]
      rfl
    | false =>
      rw [serveDue_of_not_due hdue] at hfine ⊢
      rw [runDue_of_not_due policy hdue, ih hmetered.2 hfine]
      rfl

theorem runDue_of_torn (policy : OverrunPolicy) {now : Nat} {t : PeriodicTask ω} (ht : t.Metered)
    (hdue : t.isDue now = true) {w : ω} (htorn : (t.runOnce w).Torn now)
    (ts : List (PeriodicTask ω)) (report : CycleReport) :
    (runDue policy now (t :: ts) report w).1 = .crashed := by
  obtain ⟨due, hdeadline, hle⟩ := PeriodicTask.exists_due hdue
  have hserve := PeriodicTask.serve_of_torn policy ht hdeadline htorn
  rw [runDue]
  simp only [hdeadline, if_neg (Nat.not_lt.mpr hle)]
  generalize t.serve policy now due w = served at hserve
  obtain ⟨e, t', w'⟩ := served
  obtain rfl : e = .crashed := hserve
  rfl

/-- A cycle comes to the due task `t`: none before it ends the cycle. -/
structure Reaches (policy : OverrunPolicy) (now : Nat) (ts : List (PeriodicTask ω)) (w : ω)
    (before : List (PeriodicTask ω)) (t : PeriodicTask ω) (after : List (PeriodicTask ω)) :
    Prop where
  tasks : ts = before ++ t :: after
  due : t.isDue now = true
  fine : ∀ r ∈ (serveDue now before w).1, r.Fine policy now

theorem exists_reaches {policy : OverrunPolicy} {now : Nat} {ts : List (PeriodicTask ω)} {w : ω}
    (h : ∃ r ∈ (serveDue now ts w).1, ¬r.Fine policy now) :
    ∃ before t after, Reaches policy now ts w before t after ∧
      ¬(t.runOnce (serveDue now before w).2.2).Fine policy now := by
  -- a task that rests or is fine goes before, the first other one is it
  induction ts generalizing w with
  | nil =>
    obtain ⟨r, hr, -⟩ := h
    cases hr
  | cons t ts ih =>
    cases hdue : t.isDue now with
    | true =>
      by_cases hfine : (t.runOnce w).Fine policy now
      · rw [serveDue_of_due hdue] at h
        obtain ⟨r, hr, hnot⟩ := h
        have hlater := (List.mem_cons.mp hr).resolve_left fun heq => hnot (heq ▸ hfine)
        obtain ⟨before, t', after, hreaches, hends⟩ := ih ⟨r, hlater, hnot⟩
        refine ⟨t :: before, t', after, ⟨?_, hreaches.due, ?_⟩, ?_⟩
        · rw [hreaches.tasks, List.cons_append]
        · rw [serveDue_of_due hdue]
          exact List.forall_mem_cons.mpr ⟨hfine, hreaches.fine⟩
        · rw [serveDue_of_due hdue]
          exact hends
      · exact ⟨[], t, ts, ⟨rfl, hdue, nofun⟩, hfine⟩
    | false =>
      rw [serveDue_of_not_due hdue] at h
      obtain ⟨before, t', after, hreaches, hends⟩ := ih h
      refine ⟨t :: before, t', after, ⟨?_, hreaches.due, ?_⟩, ?_⟩
      · rw [hreaches.tasks, List.cons_append]
      · rw [serveDue_of_not_due hdue]
        exact hreaches.fine
      · rw [serveDue_of_not_due hdue]
        exact hends

end Scheduler

namespace Clock

def Monotonic (ω : Type) [Clock ω] : Prop := ∀ w : ω, (read w).1 ≤ (read (read w).2).1

theorem le_read_of_sleepTo (hclock : Monotonic ω) {target : Nat} {w w' : ω}
    (h : sleepTo target w = (true, w')) : target ≤ (read w').1 := by
  fun_induction sleepTo target w with
  | case1 w hstop => cases h
  | case2 w hstop hreached =>
    cases h
    exact Nat.le_trans hreached (hclock w)
  | case3 w hstop hearly ih => exact ih h

theorem le_read_of_waitFor (hclock : Monotonic ω) {deadline : Nat} {w w' : ω}
    (h : waitFor deadline w = (true, w')) : deadline ≤ (read w').1 := by
  unfold waitFor at h
  dsimp only at h
  split at h
  · next hpassed =>
    obtain rfl : (read w).2 = w' := congrArg Prod.snd h
    exact Nat.le_trans hpassed (hclock w)
  · have htarget := le_read_of_sleepTo hclock h
    have := hclock w
    omega

end Clock

namespace Scheduler

/-- The states that tasks added and cycles lead a scheduler to. -/
inductive Reached : Scheduler ω → Prop
  | new (policy : OverrunPolicy) (histogramSize : Nat) : Reached { policy, histogramSize }
  | add {s s' : Scheduler ω} {name : String} {period : Duration} {job : Job ω} (h : s.Reached)
      (hadd : s.add name period job = .ok s') : Reached s'
  | cycle {s : Scheduler ω} (h : s.Reached) (w : ω) : Reached (s.runCycle w).2.1

theorem DueWay.metered {now : Nat} {ts ts' : List (PeriodicTask ω)} {w w' : ω} {e : CycleEnd}
    (h : DueWay now ts w e ts' w') (hmetered : ∀ t ∈ ts, t.Metered) : ∀ t ∈ ts', t.Metered := by
  induction h with
  | done => exact hmetered
  | rests hdue rest ih =>
    rw [List.forall_mem_cons] at hmetered ⊢
    exact ⟨hmetered.1, ih hmetered.2⟩
  | served hdue hle rest ih =>
    rw [List.forall_mem_cons] at hmetered ⊢
    exact ⟨⟨hmetered.1.positive, hmetered.1.measured⟩, ih hmetered.2⟩
  | halted hdue hle hbeyond =>
    rw [List.forall_mem_cons] at hmetered ⊢
    exact ⟨⟨hmetered.1.positive, hmetered.1.measured⟩, hmetered.2⟩
  | torn hdue hle hcrashed => exact hmetered

theorem Reached.metered {s : Scheduler ω} (h : s.Reached) : ∀ t ∈ s.tasks, t.Metered := by
  induction h with
  | new policy histogramSize => exact nofun
  | add h hadd ih => exact metered_add ih hadd
  | @cycle s h w ih =>
    have hway := s.cycleWay_runCycle w
    generalize (s.runCycle w).1 = e at hway
    generalize (s.runCycle w).2.2 = w' at hway
    generalize (s.runCycle w).2.1 = s' at hway ⊢
    cases hway with
    | empty htasks => exact ih
    | beyond hbeyond => exact ih
    | idle hschedule hready => exact metered_scheduleNew ih hschedule
    | stopped hschedule hready hwait => exact metered_scheduleNew ih hschedule
    | ready hschedule hready hwait =>
      exact (dueWay_runReady _ _).metered (metered_scheduleNew ih hschedule)

theorem runReady_of_completed {s : Scheduler ω} {w w' : ω} {report : CycleReport}
    {ts : List (PeriodicTask ω)}
    (h : runDue s.policy (Clock.read w).1 s.tasks {} (Clock.read w).2 =
      (.completed report, ts, w')) :
    s.runReady w = (.completed report, { s with tasks := ts, cycles := s.cycles + 1 }, w') := by
  unfold runReady
  dsimp only
  rw [h]

theorem runReady_of_failed {s : Scheduler ω} {w w' : ω} {e : BenchError}
    {ts : List (PeriodicTask ω)}
    (h : runDue s.policy (Clock.read w).1 s.tasks {} (Clock.read w).2 = (.failed e, ts, w')) :
    s.runReady w = (.failed e, { s with tasks := ts }, w') := by
  unfold runReady
  dsimp only
  rw [h]

theorem runCycle_of_scheduled {s s' : Scheduler ω} {w : ω} {deadline : Nat} (hne : s.tasks ≠ [])
    (hschedule : s.scheduleNew (Clock.read w).1 = some s')
    (hdeadline : s'.earliest? = some deadline) :
    s.runCycle w =
      if (Clock.waitFor deadline (Clock.read w).2).1 then
        s'.runReady (Clock.waitFor deadline (Clock.read w).2).2
      else (.stopped, s', (Clock.waitFor deadline (Clock.read w).2).2) := by
  rw [runCycle, if_neg (by simpa using hne)]
  dsimp only
  rw [hschedule]
  dsimp only
  rw [hdeadline]
  dsimp only
  rcases Clock.waitFor deadline (Clock.read w).2 with ⟨_ | _, w'⟩ <;> rfl

theorem runReady_endings {s : Scheduler ω} (hmetered : ∀ t ∈ s.tasks, t.Metered) (w : ω) :
    let now := (Clock.read w).1
    let begun := (Clock.read w).2
    let out := serveDue now s.tasks begun
    ((∀ r ∈ out.1, r.Fine s.policy now) → s.runReady w =
      (.completed (.of out.1), { s with tasks := out.2.1, cycles := s.cycles + 1 }, out.2.2)) ∧
    ∀ before t after, Reaches s.policy now s.tasks begun before t after →
      let served := serveDue now before begun
      let r := t.runOnce served.2.2
      (∀ e, ¬r.Torn now → r.fault? s.policy = some e → s.runReady w =
        (.failed e, { s with tasks := served.2.1 ++ r.accounted now :: after }, r.world)) ∧
      (r.Torn now → (s.runReady w).1 = .crashed) := by
  intro now begun out
  refine ⟨fun hfine => runReady_of_completed ?_, fun before t after hreaches => ?_⟩
  · have hall := runDue_append hmetered hfine [] {}
    rw [List.append_nil] at hall
    rw [hall]
    simp [runDue, CycleReport.append, CycleReport.of, out]
  · intro served r
    have hmetered' : (∀ t ∈ before, t.Metered) ∧ t.Metered := by
      rw [hreaches.tasks, List.forall_mem_append, List.forall_mem_cons] at hmetered
      exact ⟨hmetered.1, hmetered.2.1⟩
    have hall := runDue_append hmetered'.1 hreaches.fine (t :: after) {}
    rw [← hreaches.tasks] at hall
    dsimp only at hall
    refine ⟨fun e hwhole hfault => runReady_of_failed ?_, fun htorn => ?_⟩
    · rw [hall, runDue_of_fault hmetered'.2 hreaches.due hwhole hfault]
    · rw [(s.runReady_eq w).1, hall]
      exact runDue_of_torn s.policy hmetered'.2 hreaches.due htorn after _

end Scheduler

/-- The endings of a cycle, for every state of a scheduler with tasks, every world with a clock that
does not go back, and every stop. A stop seen in the wait leaves everything but the first deadlines
of new tasks as it is. Otherwise some tasks are due. While none of them ends the cycle they run once
each, in the order in which they were added; the report names them, with those that overran, and all
tasks are then due later. The first that fails, or overruns where that is a fault, ends the cycle
with its error: it and the due tasks before it have run and are accounted for, the ones behind it
are as they were. Accounting for a run records its time and moves the deadline to the first later
point of its grid. A job that tears down its thread, or a deadline beyond the horizon of the clock,
leaves no scheduler to speak of. -/
theorem cycle_endings (hclock : Clock.Monotonic ω) {s : Scheduler ω} (hs : s.Reached)
    (hne : s.tasks ≠ []) (w : ω) :
    let first := (Clock.read w).1
    (s.scheduleNew first = none → (s.runCycle w).1 = .crashed ∧
      ∃ t ∈ s.tasks, t.deadline = none ∧ Clock.horizon ≤ first + t.period.nanos) ∧
    ∀ s₁, s.scheduleNew first = some s₁ →
      s₁ = { s with tasks := s₁.tasks } ∧
      List.Forall₂ (fun t t₁ => t.deadline ≠ none ∧ t₁ = t ∨
        t.deadline = none ∧ t₁ = { t with deadline := some (first + t.period.nanos) })
        s.tasks s₁.tasks ∧
      ∃ deadline, s₁.earliest? = some deadline ∧
        let wait := Clock.waitFor deadline (Clock.read w).2
        let now := (Clock.read wait.2).1
        let begun := (Clock.read wait.2).2
        let due := s₁.tasks.filter (·.isDue now)
        let out := serveDue now s₁.tasks begun
        (wait.1 = false → s.runCycle w = (.stopped, s₁, wait.2)) ∧
        (wait.1 = true → due ≠ [] ∧ out.1.map (·.task) = due ∧
          (∀ t ∈ due, ∀ w, (t.runOnce w).AccountsFor now ((t.runOnce w).accounted now)) ∧
          ((∀ r ∈ out.1, r.Fine s.policy now) →
            s.runCycle w = (.completed (.of out.1),
              { s with tasks := out.2.1, cycles := s.cycles + 1 }, out.2.2) ∧
            ∀ t ∈ out.2.1, ∃ next, t.deadline = some next ∧ now < next) ∧
          (∀ before t after, Scheduler.Reaches s.policy now s₁.tasks begun before t after →
            let served := serveDue now before begun
            let r := t.runOnce served.2.2
            (∀ e, ¬r.Torn now → r.fault? s.policy = some e → s.runCycle w =
              (.failed e, { s with tasks := served.2.1 ++ r.accounted now :: after }, r.world)) ∧
            (r.Torn now → (s.runCycle w).1 = .crashed)) ∧
          ((∃ r ∈ out.1, ¬r.Fine s.policy now) → ∃ before t after,
            Scheduler.Reaches s.policy now s₁.tasks begun before t after ∧
            ¬(t.runOnce (serveDue now before begun).2.2).Fine s.policy now)) := by
  intro first
  refine ⟨fun hnone => ⟨?_, Scheduler.horizon_le_of_scheduleNew hnone⟩, fun s₁ hschedule => ?_⟩
  · rw [Scheduler.runCycle, if_neg (by simpa using hne)]
    dsimp only
    rw [show s.scheduleNew (Clock.read w).1 = none from hnone]
  have hparts := Scheduler.forall_scheduleNew
    (fun _ _ ht => ⟨ht.positive, ht.measured⟩) hschedule hs.metered
  obtain ⟨ts, rfl⟩ : ∃ ts, s₁ = { s with tasks := ts } := ⟨_, Scheduler.scheduleNew_eq hschedule⟩
  have hmetered : ∀ t ∈ ts, t.Metered := fun t ht => (hparts t ht).1
  have hscheduled : ∀ t ∈ ts, t.deadline ≠ none := fun t ht => (hparts t ht).2
  obtain ⟨deadline, hdeadline, t, ht, hdue⟩ :=
    Scheduler.exists_earliest? (Scheduler.ne_nil_of_scheduleNew hschedule hne) hscheduled
  refine ⟨rfl, Scheduler.forall₂_first hschedule, deadline, hdeadline, ?_⟩
  intro wait now begun due out
  have hcycle := Scheduler.runCycle_of_scheduled hne hschedule hdeadline
  refine ⟨fun hstop => hcycle.trans (if_neg (by simp [wait, hstop])), fun hready => ?_⟩
  replace hcycle := hcycle.trans (if_pos hready)
  obtain ⟨hcompleted, hreached⟩ :=
    Scheduler.runReady_endings (s := { s with tasks := ts }) hmetered wait.2
  rw [← hcycle] at hcompleted hreached
  have hnonempty : due ≠ [] := by
    have hle : deadline ≤ now := Clock.le_read_of_waitFor hclock (Prod.ext hready rfl)
    exact List.ne_nil_of_mem
      (List.mem_filter.mpr ⟨ht, by simp [PeriodicTask.isDue, hdue, hle]⟩)
  refine ⟨hnonempty, task_serveDue now ts begun, fun t ht w => ?_,
    fun hfine => ⟨hcompleted hfine, lt_deadline_of_serveDue hmetered hscheduled begun⟩, hreached,
    Scheduler.exists_reaches⟩
  obtain ⟨hmem, hisDue⟩ := List.mem_filter.mp ht
  obtain ⟨point, hpoint, hle⟩ := PeriodicTask.exists_due hisDue
  exact TaskRun.accountsFor_accounted (hmetered t hmem).positive hpoint hle

/-- Of three tasks that are due, the second fails: the third has not run. -/
theorem cycle_endings_second_fails :
    let task := fun (name : String) (result : JobEnd) =>
      ({ name, period := ⟨100, by decide⟩, metrics := .new 4 ⟨100, by decide⟩
         job := { run := fun w => (result, w.work 10) } } : PeriodicTask VirtualClock)
    let s : Scheduler VirtualClock :=
      { tasks :=
          [task "first" .done, task "second" (.failed (.config .noTasks)), task "third" .done]
        policy := .warn, histogramSize := 4 }
    Clock.Monotonic VirtualClock ∧ s.Reached ∧ s.tasks ≠ [] ∧
      (s.runCycle {}).1 = .failed (.taskFailed "second" (.config .noTasks)) ∧
      (s.runCycle {}).2.1.tasks.map (fun t => (t.metrics.total, t.deadline)) =
        [(1, some 200), (1, some 200), (0, some 100)] := by
  intro task s
  have hclock : Clock.Monotonic VirtualClock := fun w => Nat.le_refl w.now
  have hreached : s.Reached :=
    .add (.add (.add (.new .warn 4)
      (show Scheduler.add _ "first" ⟨100, by decide⟩ (task "" .done).job = _ from rfl))
      (show Scheduler.add _ "second" ⟨100, by decide⟩
        (task "" (.failed (.config .noTasks))).job = _ from rfl))
      (show Scheduler.add _ "third" ⟨100, by decide⟩ (task "" .done).job = _ from rfl)
  have hne : s.tasks ≠ [] := nofun
  let scheduled := fun (name : String) (result : JobEnd) =>
    { task name result with deadline := some 100 }
  let ts := [scheduled "first" .done, scheduled "second" (.failed (.config .noTasks)),
    scheduled "third" .done]
  have hschedule : s.scheduleNew 0 = some { s with tasks := ts } := rfl
  obtain ⟨-, -, deadline, hdeadline, -, hready⟩ :=
    (cycle_endings hclock hreached hne {}).2 _ hschedule
  obtain rfl : 100 = deadline := Option.some.inj hdeadline
  have hslept : Clock.sleepTo 100 ({} : VirtualClock) = (true, { now := 100 }) := by
    rw [Clock.sleepTo, if_neg (by decide), if_neg (by decide), Clock.sleepTo,
      if_neg (by decide), if_pos (by decide)]
    rfl
  have hwait : Clock.waitFor 100 ({} : VirtualClock) = (true, { now := 100 }) := by
    simpa [Clock.waitFor, Clock.read] using hslept
  rw [show (Clock.read ({} : VirtualClock)).2 = {} from rfl, hwait] at hready
  obtain ⟨-, -, -, -, hends, -⟩ := hready rfl
  have hreaches : Scheduler.Reaches .warn 100 ts ({ now := 100 } : VirtualClock)
      [scheduled "first" .done] (scheduled "second" (.failed (.config .noTasks)))
      [scheduled "third" .done] := by
    refine ⟨rfl, by decide, List.forall_mem_singleton.mpr ⟨not_or.mpr ⟨nofun, ?_⟩, ?_⟩⟩
    · decide
    · decide
  have hfailed := (hends _ _ _ hreaches).1 (.taskFailed "second" (.config .noTasks))
    (not_or.mpr ⟨nofun, by decide⟩) rfl
  exact ⟨hclock, hreached, hne, congrArg Prod.fst hfailed,
    congrArg (fun out => out.2.1.tasks.map fun t => (t.metrics.total, t.deadline)) hfailed⟩

end RigBench
