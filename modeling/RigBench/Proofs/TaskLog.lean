import RigBench.Proofs.Cycle

/-!
A log of what the tasks of a scheduler do. The log is written and never read, so that a scheduler
goes with it as without. Runs stand in it in any order, and behind them one shutdown of every task,
in the order in which the tasks were added.
-/
namespace RigBench

structure TaskCall (ω : Type) where
  task : String
  /-- The task was shut down; otherwise it was run. -/
  isShutdown : Bool
  before : ω
  after : ω

structure Logged (ω : Type) where
  world : ω
  /-- All calls so far, the newest first. -/
  log : List (TaskCall ω) := []

variable {ω : Type}

def Logged.note (x : Logged ω) (task : String) (isShutdown : Bool) (after : ω) : Logged ω where
  world := after
  log := ⟨task, isShutdown, x.world, after⟩ :: x.log

instance [Clock ω] : Clock (Logged ω) where
  read x := ((Clock.read x.world).1, { x with world := (Clock.read x.world).2 })
  sleepUntil target x := { x with world := Clock.sleepUntil target x.world }
  stopping x := Clock.stopping x.world
  le_read_sleepUntil target x := Clock.le_read_sleepUntil target x.world

def Job.logged (job : Job ω) (task : String) : Job (Logged ω) where
  run x := ((job.run x.world).1, x.note task false (job.run x.world).2)
  shutdown x := ((job.shutdown x.world).1, x.note task true (job.shutdown x.world).2)

def PeriodicTask.logged (t : PeriodicTask ω) : PeriodicTask (Logged ω) where
  name := t.name
  period := t.period
  deadline := t.deadline
  job := t.job.logged t.name
  metrics := t.metrics

def Scheduler.logged (s : Scheduler ω) : Scheduler (Logged ω) where
  tasks := s.tasks.map PeriodicTask.logged
  policy := s.policy
  histogramSize := s.histogramSize
  cycles := s.cycles

namespace PeriodicTask

theorem schedule_logged (now : Nat) (t : PeriodicTask ω) :
    t.logged.schedule now = (t.schedule now).map logged := by
  unfold schedule
  rw [show t.logged.deadline = t.deadline from rfl]
  cases t.deadline with
  | some due => rfl
  | none =>
    dsimp only
    change (if now + t.period.nanos < Clock.horizon then _ else _) = _
    split <;> rfl

theorem conclude_logged (policy : OverrunPolicy) (now due execution : Nat) (result : JobEnd)
    (t : PeriodicTask ω) :
    t.logged.conclude policy now due execution result =
      ((t.conclude policy now due execution result).1,
        (t.conclude policy now due execution result).2.logged) := by
  have haccount : t.logged.account due now execution =
      ((t.account due now execution).1, (t.account due now execution).2.logged) := rfl
  unfold conclude
  rw [haccount]
  obtain ⟨overran, t'⟩ := t.account due now execution
  cases result with
  | crashed => rfl
  | failed e =>
    dsimp only
    change (if Clock.horizon ≤ t'.deadline.getD 0 then _ else _) = _
    split <;> rfl
  | done =>
    dsimp only
    change (if Clock.horizon ≤ t'.deadline.getD 0 then _ else _) = _
    split
    · rfl
    · split <;> rfl

variable [Clock ω]

theorem serve_logged (policy : OverrunPolicy) (now due : Nat) (t : PeriodicTask ω) (w : ω)
    (log : List (TaskCall ω)) :
    ∃ log', t.logged.serve policy now due ⟨w, log⟩ =
      ((t.serve policy now due w).1, (t.serve policy now due w).2.1.logged,
        ⟨(t.serve policy now due w).2.2, log'⟩) := by
  refine ⟨⟨t.name, false, (Clock.read w).2, (t.job.run (Clock.read w).2).2⟩ :: log, ?_⟩
  unfold serve
  dsimp only
  rw [conclude_logged]
  rfl

end PeriodicTask

namespace Clock

variable [Clock ω]

theorem read_logged (w : ω) (log : List (TaskCall ω)) :
    read (⟨w, log⟩ : Logged ω) = ((read w).1, ⟨(read w).2, log⟩) := rfl

theorem sleepTo_logged (target : Nat) (w : ω) (log : List (TaskCall ω)) :
    sleepTo target (⟨w, log⟩ : Logged ω) = ((sleepTo target w).1, ⟨(sleepTo target w).2, log⟩) := by
  fun_induction sleepTo target w with
  | case1 w hstop => rw [sleepTo, if_pos (show stopping (⟨w, log⟩ : Logged ω) = true from hstop)]
  | case2 w hstop hle =>
    rw [sleepTo, if_neg (show ¬stopping (⟨w, log⟩ : Logged ω) = true from hstop)]
    exact if_pos hle
  | case3 w hstop hle ih =>
    rw [sleepTo, if_neg (show ¬stopping (⟨w, log⟩ : Logged ω) = true from hstop), ← ih]
    exact if_neg hle

theorem waitFor_logged (deadline : Nat) (w : ω) (log : List (TaskCall ω)) :
    waitFor deadline (⟨w, log⟩ : Logged ω) =
      ((waitFor deadline w).1, ⟨(waitFor deadline w).2, log⟩) := by
  unfold waitFor
  change (if deadline ≤ (read w).1 then _ else sleepTo _ (⟨_, log⟩ : Logged ω)) = _
  rw [sleepTo_logged]
  dsimp only
  split <;> rfl

end Clock

namespace Scheduler

theorem scheduleNew_logged (now : Nat) (s : Scheduler ω) :
    s.logged.scheduleNew now = (s.scheduleNew now).map logged := by
  have htasks : ∀ ts : List (PeriodicTask ω),
      (ts.map PeriodicTask.logged).mapM (PeriodicTask.schedule now) =
        (ts.mapM (PeriodicTask.schedule now)).map (List.map PeriodicTask.logged) := by
    intro ts
    induction ts with
    | nil => rfl
    | cons t ts ih =>
      rw [List.map_cons, List.mapM_cons, List.mapM_cons, PeriodicTask.schedule_logged, ih]
      cases t.schedule now with
      | none => rfl
      | some t' => cases ts.mapM (PeriodicTask.schedule now) <;> rfl
  unfold scheduleNew
  rw [show s.logged.tasks = s.tasks.map PeriodicTask.logged from rfl, htasks]
  cases s.tasks.mapM (PeriodicTask.schedule now) <;> rfl

theorem earliest?_logged (s : Scheduler ω) : s.logged.earliest? = s.earliest? := by
  unfold earliest?
  change ((s.tasks.map PeriodicTask.logged).filterMap _).min? = _
  rw [List.filterMap_map]
  rfl

variable [Clock ω]

theorem runDue_logged (policy : OverrunPolicy) (now : Nat) (ts : List (PeriodicTask ω))
    (report : CycleReport) (w : ω) (log : List (TaskCall ω)) :
    ∃ log', runDue policy now (ts.map PeriodicTask.logged) report ⟨w, log⟩ =
      ((runDue policy now ts report w).1, (runDue policy now ts report w).2.1.map .logged,
        ⟨(runDue policy now ts report w).2.2, log'⟩) := by
  -- The tasks behind find the world and the log that this one left.
  induction ts generalizing report w log with
  | nil => exact ⟨log, rfl⟩
  | cons t ts ih =>
    rw [List.map_cons]
    unfold runDue
    dsimp only
    rw [show t.logged.deadline = t.deadline from rfl]
    cases t.deadline with
    | none =>
      obtain ⟨log', hrest⟩ := ih report w log
      refine ⟨log', ?_⟩
      rw [hrest]
      rfl
    | some due =>
      dsimp only
      split
      · obtain ⟨log', hrest⟩ := ih report w log
        refine ⟨log', ?_⟩
        rw [hrest]
        rfl
      · obtain ⟨log', hserve⟩ := t.serve_logged policy now due w log
        rw [hserve]
        obtain ⟨served, t', w'⟩ := t.serve policy now due w
        cases served with
        | crashed => exact ⟨log', rfl⟩
        | failed e => exact ⟨log', rfl⟩
        | fine overran =>
          dsimp only
          rw [show t'.logged.name = t'.name from rfl]
          obtain ⟨log'', hrest⟩ := ih _ w' log'
          refine ⟨log'', ?_⟩
          rw [hrest]
          rfl

theorem runReady_logged (s : Scheduler ω) (w : ω) (log : List (TaskCall ω)) :
    ∃ log', s.logged.runReady ⟨w, log⟩ =
      ((s.runReady w).1, (s.runReady w).2.1.logged, ⟨(s.runReady w).2.2, log'⟩) := by
  obtain ⟨log', hdue⟩ := runDue_logged s.policy (Clock.read w).1 s.tasks {} (Clock.read w).2 log
  refine ⟨log', ?_⟩
  unfold runReady
  rw [Clock.read_logged]
  dsimp only
  rw [show s.logged.tasks = s.tasks.map PeriodicTask.logged from rfl,
    show s.logged.policy = s.policy from rfl, hdue]
  obtain ⟨e, tasks, w'⟩ := runDue s.policy (Clock.read w).1 s.tasks {} (Clock.read w).2
  cases e <;> rfl

theorem runCycle_logged (s : Scheduler ω) (w : ω) (log : List (TaskCall ω)) :
    ∃ log', s.logged.runCycle ⟨w, log⟩ =
      ((s.runCycle w).1, (s.runCycle w).2.1.logged, ⟨(s.runCycle w).2.2, log'⟩) := by
  unfold runCycle
  rw [show s.logged.tasks.isEmpty = s.tasks.isEmpty from List.isEmpty_map]
  split
  · exact ⟨log, rfl⟩
  dsimp only
  rw [Clock.read_logged, scheduleNew_logged]
  cases s.scheduleNew (Clock.read w).1 with
  | none => exact ⟨log, rfl⟩
  | some s' =>
    dsimp only [Option.map_some]
    rw [earliest?_logged]
    cases s'.earliest? with
    | none => exact ⟨log, rfl⟩
    | some deadline =>
      dsimp only
      rw [Clock.waitFor_logged]
      rcases Clock.waitFor deadline (Clock.read w).2 with ⟨_ | _, w'⟩
      · exact ⟨log, rfl⟩
      · exact s'.runReady_logged w' log

theorem runLoop_logged (fuel : Nat) (s : Scheduler ω) (w : ω) (log : List (TaskCall ω)) :
    ∃ log', s.logged.runLoop fuel ⟨w, log⟩ =
      (s.runLoop fuel w).map fun (e, s, w) => (e, s.logged, ⟨w, log'⟩) := by
  induction fuel generalizing s w log with
  | zero => exact ⟨log, rfl⟩
  | succ fuel ih =>
    unfold runLoop
    rw [show Clock.stopping (⟨w, log⟩ : Logged ω) = Clock.stopping w from rfl]
    split
    · exact ⟨log, rfl⟩
    · obtain ⟨log', hcycle⟩ := s.runCycle_logged w log
      rw [hcycle]
      obtain ⟨e, s', w'⟩ := s.runCycle w
      cases e with
      | completed report => exact ih s' w' log'
      | stopped => exact ⟨log', rfl⟩
      | failed e => exact ⟨log', rfl⟩
      | crashed => exact ⟨log', rfl⟩

omit [Clock ω] in
theorem shutdownAll_logged (ts : List (PeriodicTask ω)) (w : ω) (log : List (TaskCall ω)) :
    ∃ log', shutdownAll (ts.map PeriodicTask.logged) ⟨w, log⟩ = ⟨shutdownAll ts w, log'⟩ := by
  induction ts generalizing w log with
  | nil => exact ⟨log, rfl⟩
  | cons t ts ih => exact ih (t.job.shutdown w).2 (⟨t.name, true, w, (t.job.shutdown w).2⟩ :: log)

end Scheduler

/-- Readings and sleeps keep a fact about the world. -/
structure Clock.Keeps [Clock ω] (P : ω → Prop) : Prop where
  read : ∀ w, P w → P (Clock.read w).2
  sleepUntil : ∀ target w, P w → P (Clock.sleepUntil target w)

theorem Clock.Keeps.sleepTo [Clock ω] {P : ω → Prop} (hP : Clock.Keeps P) (target : Nat) {w : ω}
    (hw : P w) : P (Clock.sleepTo target w).2 := by
  fun_induction Clock.sleepTo target w with
  | case1 w hstop => exact hw
  | case2 w hstop hle => exact hP.read w hw
  | case3 w hstop hle ih => exact ih (hP.sleepUntil _ _ (hP.read w hw))

theorem Clock.Keeps.waitFor [Clock ω] {P : ω → Prop} (hP : Clock.Keeps P) (deadline : Nat) {w : ω}
    (hw : P w) : P (Clock.waitFor deadline w).2 := by
  unfold Clock.waitFor
  dsimp only
  split
  · exact hP.read w hw
  · exact hP.sleepTo _ (hP.read _ (hP.read w hw))

def Job.RunKeeps (P : ω → Prop) (job : Job ω) : Prop := ∀ w, P w → P (job.run w).2

namespace PeriodicTask

def role (t : PeriodicTask ω) : String × Job ω := (t.name, t.job)

theorem Same.role {t t' : PeriodicTask ω} (h : Same t t') : t'.role = t.role :=
  Prod.ext h.name h.job

end PeriodicTask

namespace Scheduler

/-- The names and the jobs of the tasks, in the order in which they were added. -/
def roster (s : Scheduler ω) : List (String × Job ω) := s.tasks.map PeriodicTask.role

theorem roster_scheduleNew {s s' : Scheduler ω} {now : Nat} (h : s.scheduleNew now = some s') :
    s'.roster = s.roster := by
  have hroles : List.Forall₂ (fun t t' : PeriodicTask ω => t'.role = t.role) s.tasks s'.tasks :=
    (forall₂_of_scheduleNew h).imp fun t t' ht => (PeriodicTask.Same.of_schedule ht).role
  unfold roster
  generalize s.tasks = ts at hroles ⊢
  generalize s'.tasks = ts' at hroles ⊢
  induction hroles with
  | nil => rfl
  | cons hrole _ ih => exact List.cons_eq_cons.mpr ⟨hrole, ih⟩

variable [Clock ω] {P : ω → Prop}

theorem DueWay.keeps (hP : Clock.Keeps P) {now : Nat} {ts ts' : List (PeriodicTask ω)} {w w' : ω}
    {e : CycleEnd} (h : DueWay now ts w e ts' w') (hjobs : ∀ t ∈ ts, t.job.RunKeeps P) (hw : P w) :
    P w' ∧ ts'.map PeriodicTask.role = ts.map PeriodicTask.role := by
  have hvisit : ∀ t ∈ ts, ∀ w, P w → P (t.visit w).2.2 := fun t ht w hw =>
    hP.read _ (hjobs t ht _ (hP.read w hw))
  induction h with
  | done => exact ⟨hw, rfl⟩
  | rests hdue rest ih =>
    obtain ⟨hw', hroles⟩ :=
      ih (List.forall_mem_cons.mp hjobs).2 hw (List.forall_mem_cons.mp hvisit).2
    exact ⟨hw', List.cons_eq_cons.mpr ⟨rfl, hroles⟩⟩
  | @served t due ts ts' w w' e hdue hle rest ih =>
    obtain ⟨ht, hts⟩ := List.forall_mem_cons.mp hvisit
    obtain ⟨hw', hroles⟩ := ih (List.forall_mem_cons.mp hjobs).2 (ht w hw) hts
    exact ⟨hw', List.cons_eq_cons.mpr ⟨rfl, hroles⟩⟩
  | halted hdue hle hbeyond => exact ⟨hvisit _ List.mem_cons_self _ hw, rfl⟩
  | torn hdue hle hcrashed => exact ⟨hvisit _ List.mem_cons_self _ hw, rfl⟩

theorem CycleWay.keeps (hP : Clock.Keeps P) {s s' : Scheduler ω} {w w' : ω} {e : CycleEnd}
    (h : CycleWay s w e s' w') (hjobs : ∀ r ∈ s.roster, r.2.RunKeeps P) (hw : P w) :
    P w' ∧ s'.roster = s.roster := by
  cases h with
  | empty htasks => exact ⟨hw, rfl⟩
  | beyond hbeyond => exact ⟨hP.read w hw, rfl⟩
  | idle hschedule hready => exact ⟨hP.read w hw, roster_scheduleNew hschedule⟩
  | @stopped _ deadline _ hschedule hready hwait =>
    have hkept := hP.waitFor deadline (hP.read w hw)
    rw [hwait] at hkept
    exact ⟨hkept, roster_scheduleNew hschedule⟩
  | @ready s' deadline w' hschedule hready hwait =>
    have hkept := hP.waitFor deadline (hP.read w hw)
    rw [hwait] at hkept
    have hroster := roster_scheduleNew hschedule
    have hjobs' : ∀ t ∈ s'.tasks, t.job.RunKeeps P := fun t ht =>
      hjobs t.role (hroster ▸ List.mem_map_of_mem ht)
    obtain ⟨hw', hroles⟩ := (s'.dueWay_runReady w').keeps hP hjobs' (hP.read _ hkept)
    exact ⟨hw', hroles.trans hroster⟩

/-- The scheduler and the world when the loop has gone through so many cycles, or has ended
before. -/
def rounds : Nat → Scheduler ω → ω → Scheduler ω × ω
  | 0, s, w => (s, w)
  | k + 1, s, w =>
    if Clock.stopping w then (s, w)
    else match s.runCycle w with
      | (.completed _, s, w) => rounds k s w
      | (_, s, w) => (s, w)

theorem rounds_of_runLoop {fuel : Nat} {s s' : Scheduler ω} {w w' : ω} {e : RunEnd}
    (h : s.runLoop fuel w = some (e, s', w')) : s.rounds fuel w = (s', w') := by
  induction fuel generalizing s w with
  | zero => cases h
  | succ fuel ih =>
    unfold runLoop at h
    unfold rounds
    split at h
    · next hstop =>
      cases h
      exact if_pos hstop
    · next hstop =>
      rw [if_neg hstop]
      generalize s.runCycle w = cycle at h ⊢
      obtain ⟨e', s₁, w₁⟩ := cycle
      cases e' with
      | completed report => exact ih h
      | stopped => cases h; rfl
      | failed e' => cases h; rfl
      | crashed => cases h; rfl

theorem rounds_keeps (hP : Clock.Keeps P) (k : Nat) {s : Scheduler ω} {w : ω}
    (hjobs : ∀ r ∈ s.roster, r.2.RunKeeps P) (hw : P w) :
    P (s.rounds k w).2 ∧ (s.rounds k w).1.roster = s.roster := by
  induction k generalizing s w with
  | zero => exact ⟨hw, rfl⟩
  | succ k ih =>
    obtain ⟨hw', hroster⟩ := (s.cycleWay_runCycle w).keeps hP hjobs hw
    unfold rounds
    split
    · exact ⟨hw, rfl⟩
    · generalize s.runCycle w = cycle at hw' hroster ⊢
      obtain ⟨e, s', w'⟩ := cycle
      cases e with
      | completed report =>
        obtain ⟨hrest, hroster'⟩ := ih (hroster ▸ hjobs) hw'
        exact ⟨hrest, hroster'.trans hroster⟩
      | stopped => exact ⟨hw', hroster⟩
      | failed e => exact ⟨hw', hroster⟩
      | crashed => exact ⟨hw', hroster⟩

omit [Clock ω] in
theorem roster_logged (s : Scheduler ω) :
    s.logged.roster = s.roster.map fun r => (r.1, r.2.logged r.1) := by
  unfold roster logged
  rw [List.map_map, List.map_map]
  rfl

theorem log_rounds (k : Nat) (s : Scheduler ω) (w : ω) :
    ∀ call ∈ (s.logged.rounds k { world := w }).2.log, call.isShutdown = false := by
  have hclock : Clock.Keeps fun x : Logged ω => ∀ call ∈ x.log, call.isShutdown = false :=
    ⟨fun _ hx => hx, fun _ _ hx => hx⟩
  refine (rounds_keeps hclock k ?_ fun _ hmem => absurd hmem List.not_mem_nil).1
  rw [roster_logged]
  intro r hr x hx
  obtain ⟨⟨task, job⟩, -, rfl⟩ := List.mem_map.mp hr
  exact List.forall_mem_cons.mpr ⟨rfl, hx⟩

omit [Clock ω] in
theorem log_shutdownAll (ts : List (PeriodicTask ω)) (x : Logged ω) :
    ∃ down : List (TaskCall ω),
      (shutdownAll (ts.map PeriodicTask.logged) x).log = down.reverse ++ x.log ∧
      (∀ call ∈ down, call.isShutdown = true) ∧ down.map (·.task) = ts.map (·.name) := by
  induction ts generalizing x with
  | nil => exact ⟨[], rfl, fun _ hmem => absurd hmem List.not_mem_nil, rfl⟩
  | cons t ts ih =>
    obtain ⟨down, hlog, hdown, hnames⟩ := ih (x.note t.name true (t.job.shutdown x.world).2)
    refine ⟨⟨t.name, true, x.world, (t.job.shutdown x.world).2⟩ :: down, ?_,
      List.forall_mem_cons.mpr ⟨rfl, hdown⟩, List.cons_eq_cons.mpr ⟨rfl, hnames⟩⟩
    rw [List.reverse_cons, List.append_assoc]
    exact hlog

theorem run_of_runLoop {fuel : Nat} {s s' : Scheduler ω} {w w₁ : ω} {e : RunEnd}
    (h : s.runLoop fuel w = some (e, s', w₁)) (he : e ≠ .crashed) :
    s.run fuel w = some (e, s', shutdownAll s'.tasks w₁) := by
  unfold run
  rw [h]
  cases e with
  | finished => rfl
  | failed e => rfl
  | crashed => exact absurd rfl he

theorem exists_runLoop {fuel : Nat} {s s' : Scheduler ω} {w w' : ω} {e : RunEnd}
    (h : s.run fuel w = some (e, s', w')) (he : e ≠ .crashed) :
    ∃ w₁, s.runLoop fuel w = some (e, s', w₁) ∧ shutdownAll s'.tasks w₁ = w' := by
  rcases hloop : s.runLoop fuel w with _ | ⟨e₁, s₁, w₁⟩
  · rw [run, hloop] at h
    cases h
  by_cases he₁ : e₁ = .crashed
  · subst he₁
    rw [run, hloop] at h
    cases h
    exact absurd rfl he
  · rw [run_of_runLoop hloop he₁] at h
    cases h
    exact ⟨w₁, rfl, rfl⟩

theorem rounds_logged (k : Nat) (s : Scheduler ω) (w : ω) (log : List (TaskCall ω)) :
    ∃ log', s.logged.rounds k ⟨w, log⟩ = ((s.rounds k w).1.logged, ⟨(s.rounds k w).2, log'⟩) := by
  induction k generalizing s w log with
  | zero => exact ⟨log, rfl⟩
  | succ k ih =>
    unfold rounds
    rw [show Clock.stopping (⟨w, log⟩ : Logged ω) = Clock.stopping w from rfl]
    split
    · exact ⟨log, rfl⟩
    · obtain ⟨log', hcycle⟩ := s.runCycle_logged w log
      rw [hcycle]
      obtain ⟨e, s', w'⟩ := s.runCycle w
      cases e with
      | completed report => exact ih s' w' log'
      | stopped => exact ⟨log', rfl⟩
      | failed e => exact ⟨log', rfl⟩
      | crashed => exact ⟨log', rfl⟩

omit [Clock ω] in
theorem names_of_roster {s s' : Scheduler ω} (h : s'.roster = s.roster) : s'.names = s.names := by
  have hnames : ∀ s : Scheduler ω, s.names = s.roster.map Prod.fst := fun s => by
    rw [roster, List.map_map]
    rfl
  rw [hnames, hnames, h]

theorem roster_of_runLoop {fuel : Nat} {s s' : Scheduler ω} {w w' : ω} {e : RunEnd}
    (h : s.runLoop fuel w = some (e, s', w')) : s'.roster = s.roster := by
  have hclock : Clock.Keeps fun _ : ω => True := ⟨fun _ _ => trivial, fun _ _ _ => trivial⟩
  have hroster := (rounds_keeps hclock fuel (s := s) (w := w) (fun _ _ _ _ => trivial) trivial).2
  rwa [rounds_of_runLoop h] at hroster

/-- A scheduler whose loop has ended, other than by a crash, returns what the loop ended with. Its
log holds the runs of the loop, and behind them one shutdown of each task in the order of the tasks,
whatever they answer. -/
theorem run_log {fuel : Nat} {s s' : Scheduler ω} {w w' : ω} {e : RunEnd}
    (h : s.run fuel w = some (e, s', w')) (he : e ≠ .crashed) :
    ∃ (w₁ : ω) (up down : List (TaskCall ω)),
      s.runLoop fuel w = some (e, s', w₁) ∧
      s.logged.rounds fuel { world := w } = (s'.logged, { world := w₁, log := up }) ∧
      s.logged.run fuel { world := w } =
        some (e, s'.logged, { world := w', log := down.reverse ++ up }) ∧
      shutdownAll s'.logged.tasks { world := w₁, log := up } =
        { world := w', log := down.reverse ++ up } ∧
      (∀ call ∈ up, call.isShutdown = false) ∧ (∀ call ∈ down, call.isShutdown = true) ∧
      down.map (·.task) = s.names := by
  obtain ⟨w₁, hloop, hdown⟩ := exists_runLoop h he
  -- The loop ends in the same with the log; until then the log holds nothing but runs.
  obtain ⟨up, hlogged⟩ := s.runLoop_logged fuel w []
  rw [hloop, Option.map_some] at hlogged
  have hrounds := rounds_of_runLoop hlogged
  have hup := log_rounds fuel s w
  rw [hrounds] at hup
  obtain ⟨down, hlog, hshut, hnames⟩ := log_shutdownAll s'.tasks { world := w₁, log := up }
  obtain ⟨log', hall⟩ := shutdownAll_logged s'.tasks w₁ up
  have hfinal : shutdownAll s'.logged.tasks { world := w₁, log := up } =
      { world := w', log := down.reverse ++ up } := by
    rw [← hlog, ← hdown]
    change shutdownAll (s'.tasks.map PeriodicTask.logged) _ = _
    rw [hall]
  refine ⟨w₁, up, down, hloop, hrounds, ?_, hfinal, hup, hshut, ?_⟩
  · rw [run_of_runLoop hlogged he, hfinal]
  · exact hnames.trans (names_of_roster (roster_of_runLoop hloop))

end Scheduler
end RigBench
