import RigBench.Proofs.MeteredRig
import RigBench.Proofs.RigSafety
import RigBench.Proofs.SteadyRun

/-!
The bench of a configuration that is accepted. It can be assembled if its sizes can be allocated, no
run of its tasks fails, and a run of its schedule ends for nothing but a stop, an overrun that is to
be a fault, or a period that leads beyond the horizon of the clock.
-/
namespace RigBench

/-- Can be driven: a simulated plant is ready and has a time constant to divide by. -/
def ConfiguredRig.Drivable : ConfiguredRig → Prop
  | null _ => True
  | simulated r => r.ready = true ∧ r.timeConstant.isZero = false

namespace ConfiguredRig

theorem Drivable.exists_homing {r : ConfiguredRig} (h : r.Drivable) :
    ∃ home P, Rig.Homing home P ∧ P r ∧ ∀ q, P q → q.Drivable := by
  cases r with
  | null m =>
    refine ⟨null {}, _, homing_null, ⟨m, rfl⟩, ?_⟩
    rintro _ ⟨n, rfl⟩
    trivial
  | simulated s =>
    obtain ⟨hready, hpositive⟩ := h
    refine ⟨_, _, homing_simulated (SimulatedRig.homing hpositive), ⟨s, rfl, rfl, hready⟩, ?_⟩
    rintro _ ⟨q, rfl, hconstant, hq⟩
    exact ⟨hq, hconstant ▸ hpositive⟩

theorem drivable_of_init {r ready : ConfiguredRig} (hinit : Rig.init r = (.ok (), ready)) :
    ready.Drivable := by
  rcases ready_of_init hinit with ⟨-, rfl⟩ | ⟨s, -, hpositive, rfl⟩
  · trivial
  · exact ⟨rfl, hpositive⟩

end ConfiguredRig

theorem ControlLoop.tick_drivable {c : ControlLoop ConfiguredRig} (h : c.rig.Drivable)
    (link : LinkState) (t : Transport) :
    (∃ outcome, (c.tick link t).1 = .ok outcome) ∧ (c.tick link t).2.1.rig.Drivable := by
  obtain ⟨home, P, hP, hr, hdrivable⟩ := h.exists_homing
  have hway := c.tick_homing hP hr link t
  generalize c.tick link t = call at hway ⊢
  dsimp only at hway
  rcases hway with ⟨hends, -, hhome, -⟩ | ⟨hidle, -, hsame, -⟩ | ⟨hsampled, -, hdriven, -⟩
  · refine ⟨?_, hhome ▸ hdrivable home hP.begins⟩
    rcases hends with hlost | hexpired
    · exact ⟨_, hlost⟩
    · exact ⟨_, hexpired⟩
  · exact ⟨⟨_, hidle⟩, hsame ▸ h⟩
  · exact ⟨⟨_, hsampled⟩, hdrivable _ hdriven⟩

namespace World

def Drivable (w : World ConfiguredRig) : Prop := ∃ c, w.loops[0]? = some c ∧ c.rig.Drivable

theorem read_eq_now {ρ : Type} (w : World ρ) :
    (Clock.read w).1 = (Clock.read w).2.clock.now := by
  change w.read.1 = w.read.2.clock.now
  unfold read
  split <;> rfl

theorem now_le_sleepUntil {ρ : Type} (target : Nat) (w : World ρ) :
    w.clock.now ≤ (Clock.sleepUntil target w).clock.now := by
  change w.clock.now ≤ (w.clock.sleepUntil target).now
  unfold VirtualClock.sleepUntil
  split <;> simp only [VirtualClock.now_moveTo] <;> omega

theorem monitors_drivable :
    Clock.Monitors (fun w : World ConfiguredRig => w.clock.now) Drivable where
  keeps :=
    { read := fun w ⟨c, hc, hrig⟩ => ⟨c, (unharmed_read 0 w).loop.trans hc, hrig⟩
      sleepUntil := fun _ _ h => h }
  shows w := Nat.le_of_eq (read_eq_now w)
  onward _ :=
    { read := fun w h => Nat.le_trans h (Nat.le_trans w.now_le_read (Nat.le_of_eq (read_eq_now w)))
      sleepUntil := fun target w h => Nat.le_trans h (now_le_sleepUntil target w) }

theorem run_controlJob_drivable {w : World ConfiguredRig} (h : w.Drivable) :
    ∃ w', (controlJob 0).run w = (.done, w') ∧ w'.Drivable := by
  obtain ⟨c, hc, hrig⟩ := h
  obtain ⟨⟨outcome, hok⟩, hrig'⟩ := c.tick_drivable hrig w.bench.link w.bench.transport
  have hplace : 0 < w.loops.length := (List.getElem?_eq_some_iff.mp hc).1
  have hdone : ((controlJob 0).run w).1 = .done := by
    unfold controlJob Bench.tick
    dsimp only
    rw [hc]
    dsimp only
    rw [hok]
  refine ⟨((controlJob 0).run w).2, Prod.ext hdone rfl, ?_⟩
  rw [run_controlJob hc]
  exact ⟨_, List.getElem?_set_self hplace, hrig'⟩

theorem now_controlJob (w : World ConfiguredRig) :
    ((controlJob 0).run w).2.clock = w.clock := by
  rcases hc : w.loops[0]? with _ | c
  · unfold controlJob
    dsimp only
    rw [hc]
  · rw [run_controlJob hc]

end World

/-- The tasks a configuration asks for, with their periods. -/
def Config.tasks (c : Config) : List (String × Duration) :=
  ("control", c.control.period) ::
    if c.control.handleFramesInTick then [] else [("link", c.control.linkPollPeriod)]

theorem Config.isZero_period {c : Config} (hvalid : c.validate = .ok ()) {name : String}
    {period : Duration} (htask : (name, period) ∈ c.tasks) : period.isZero = false := by
  rcases List.mem_cons.mp htask with hcontrol | hlink
  · cases hcontrol
    exact ne_zero_of_valid hvalid List.mem_cons_self
  · have hpoll : (!c.control.handleFramesInTick && c.control.linkPollPeriod.isZero) = false :=
      ne_zero_of_valid hvalid (List.mem_cons_of_mem _ (List.mem_cons_of_mem _ List.mem_cons_self))
    split at hlink
    · cases hlink
    · next hframes =>
      cases List.mem_singleton.mp hlink
      simpa [hframes] using hpoll

/-- The queues and the statistics can be allocated. -/
def Config.Fits (c : Config) : Prop :=
  c.server.queueCapacity < 2 ^ 58 ∧ c.scheduler.histogramSize < 2 ^ 60

theorem FrameQueue.fits_iff (requested : Nat) : fits requested = true ↔ requested < 2 ^ 58 := by
  have hlimit : Nat.pow 2 63 = 32 * 2 ^ 58 := by decide
  rw [fits, Bytes.allocatable, decide_eq_true_iff, hlimit]
  omega

theorem CycleMetrics.fits_iff (size : Nat) : fits size = true ↔ size < 2 ^ 60 := by
  have hlimit : Nat.pow 2 63 = 8 * 2 ^ 60 := by decide
  rw [fits, Bytes.allocatable, decide_eq_true_iff, hlimit]
  omega

theorem Scheduler.register_eq {ω : Type} {s : Scheduler ω} {name : String} {period : Duration}
    (hperiod : period.isZero = false) (hname : name ∉ s.names) (job : Job ω) :
    s.register name period job =
      if CycleMetrics.fits s.histogramSize then .ok (s.place name period job)
      else .error .crashed := by
  unfold register
  rw [refusal?_eq_none_iff.mpr ⟨hperiod, hname⟩]

namespace Assembly

variable {c : Config}

def newTask (c : Config) (name : String) (period : Duration) (job : Job (World ConfiguredRig)) :
    PeriodicTask (World ConfiguredRig) :=
  { name, period, job, metrics := .new c.scheduler.histogramSize period }

def newTasks (c : Config) : List (PeriodicTask (World ConfiguredRig)) :=
  newTask c "control" c.control.period (World.controlJob 0) ::
    if c.control.handleFramesInTick then [] else
      [newTask c "link" c.control.linkPollPeriod World.linkJob]

def newScheduler (c : Config) : Scheduler (World ConfiguredRig) where
  policy := c.scheduler.onOverrun
  histogramSize := c.scheduler.histogramSize
  tasks := newTasks c

theorem addLoop_bare (hvalid : c.validate = .ok ()) :
    ∃ loop transport, loop.rig.Drivable ∧ (bare c).addLoop (controlLoop c) =
      (.ok 0, { bare c with bench := { (bare c).bench with transport }, loops := [loop] }) := by
  obtain ⟨rig, hinit, -⟩ := Config.rig_init hvalid
  obtain ⟨t, hmake⟩ : ∃ t, (bare c).bench.transport.init = .ok t := ⟨_, rfl⟩
  have hloop : (controlLoop c).init (bare c).bench.transport =
      (.ok (), { controlLoop c with rig }, t) := ControlLoop.init_of_new hinit rfl hmake
  refine ⟨{ controlLoop c with rig }, t, ConfiguredRig.drivable_of_init hinit, ?_⟩
  unfold World.addLoop
  rw [hloop]
  rfl

theorem schedule_eq (hvalid : c.validate = .ok ()) :
    schedule c =
      if CycleMetrics.fits c.scheduler.histogramSize then .ok (newScheduler c)
      else .error .crashed := by
  have hcontrol := Config.isZero_period hvalid (List.mem_cons_self (l := _))
  unfold schedule newScheduler newTasks
  dsimp only
  rw [Scheduler.register_eq hcontrol List.not_mem_nil]
  cases hfits : CycleMetrics.fits c.scheduler.histogramSize with
  | false => rfl
  | true =>
    cases hframes : c.control.handleFramesInTick with
    | true => rfl
    | false =>
      have hlink : ("link", c.control.linkPollPeriod) ∈ c.tasks := by simp [Config.tasks, hframes]
      exact (Scheduler.register_eq (Config.isZero_period hvalid hlink)
        (show "link" ∉ ["control"] by decide) World.linkJob).trans (if_pos hfits)

theorem ofConfig_eq_crashed (hvalid : c.validate = .ok ()) (hnot : ¬c.Fits) :
    ofConfig c = .error .crashed := by
  obtain ⟨loop, transport, -, hadd⟩ := addLoop_bare hvalid
  unfold ofConfig
  split
  · next hqueues =>
    have hsamples : ¬CycleMetrics.fits c.scheduler.histogramSize = true := fun hsamples =>
      hnot ⟨(FrameQueue.fits_iff _).mp hqueues, (CycleMetrics.fits_iff _).mp hsamples⟩
    rw [hadd, schedule_eq hvalid, if_neg hsamples]
  · rfl

theorem planned_newTask (hvalid : c.validate = .ok ()) {name : String} {period : Duration}
    (htask : (name, period) ∈ c.tasks) (job : Job (World ConfiguredRig)) :
    (newTask c name period job).Planned c.tasks where
  mem := htask
  positive := Nat.pos_of_ne_zero (beq_eq_false_iff_ne.mp (Config.isZero_period hvalid htask))
  measured := rfl

theorem steady_newScheduler (hvalid : c.validate = .ok ()) :
    (newScheduler c).Steady c.tasks (·.clock.now) World.Drivable where
  tasks := by
    refine List.forall_mem_cons.mpr ⟨?_, ?_⟩
    · exact
        { planned := planned_newTask hvalid List.mem_cons_self _
          run := fun w hw => World.run_controlJob_drivable hw
          onward := fun n w hn =>
            Nat.le_trans hn (Nat.le_of_eq (congrArg VirtualClock.now (World.now_controlJob w).symm)) }
    · cases hframes : c.control.handleFramesInTick with
      | true => exact nofun
      | false =>
        refine List.forall_mem_singleton.mpr ?_
        exact
          { planned := planned_newTask hvalid (by simp [Config.tasks, hframes]) _
            run := fun w hw => ⟨_, rfl, hw⟩
            onward := fun n w hn => hn }
  ne_nil := nofun

theorem tasks_newScheduler (c : Config) :
    (newScheduler c).tasks.map (fun t => (t.name, t.period)) = c.tasks := by
  unfold newScheduler newTasks Config.tasks
  cases c.control.handleFramesInTick <;> rfl

theorem exists_newTask {name : String} {period : Duration} (htask : (name, period) ∈ c.tasks) :
    ∃ t ∈ (newScheduler c).tasks, t.deadline = none ∧ t.period = period := by
  rw [← tasks_newScheduler] at htask
  obtain ⟨t, ht, hsame⟩ := List.mem_map.mp htask
  cases hsame
  refine ⟨t, ht, ?_, rfl⟩
  have hnew : ∀ t ∈ newTasks c, t.deadline = none := by
    unfold newTasks
    cases c.control.handleFramesInTick <;> simp [newTask]
  exact hnew t ht

/-- The world of the bench at some reading of the clock, with what is going to happen in it. -/
def facing (a : Assembly) (clock : VirtualClock) (ahead : List Interval) : World ConfiguredRig :=
  { a.world with clock, ahead }

theorem exists_ofConfig (hvalid : c.validate = .ok ()) (hfits : c.Fits) :
    ∃ a, ofConfig c = .ok a ∧ a.scheduler = newScheduler c ∧
      ∀ clock ahead, (a.facing clock ahead).Drivable := by
  obtain ⟨loop, transport, hdrivable, hadd⟩ := addLoop_bare hvalid
  refine ⟨{
    scheduler := newScheduler c
    world := { bare c with bench := { (bare c).bench with transport }, loops := [loop] } },
    ?_, rfl, fun _ _ => ⟨loop, rfl, hdrivable⟩⟩
  unfold ofConfig
  rw [if_pos ((FrameQueue.fits_iff _).mpr hfits.1), hadd, schedule_eq hvalid,
    if_pos ((CycleMetrics.fits_iff _).mpr hfits.2)]

theorem ofConfig_eq_crashed_iff (hvalid : c.validate = .ok ()) :
    ofConfig c = .error .crashed ↔ ¬c.Fits := by
  refine ⟨fun hcrashed hfits => ?_, ofConfig_eq_crashed hvalid⟩
  obtain ⟨_, hassembled, -, -⟩ := exists_ofConfig hvalid hfits
  rw [hcrashed] at hassembled
  cases hassembled

section Runs

variable {a : Assembly} {clock : VirtualClock} {ahead : List Interval}

theorem exists_log (hvalid : c.validate = .ok ()) (hscheduler : a.scheduler = newScheduler c)
    (hdrivable : (a.facing clock ahead).Drivable) (k : Nat) :
    ∃ s w log, a.scheduler.rounds k (a.facing clock ahead) = (s, w) ∧
      a.scheduler.logged.rounds k { world := a.facing clock ahead } =
        (s.logged, { world := w, log }) ∧
      ∀ call ∈ log, call.before.Drivable ∧
        ∃ job, (call.task, job) ∈ a.scheduler.roster ∧
          job.run call.before = (.done, call.after) := by
  have hsteady := steady_newScheduler hvalid
  rw [← hscheduler] at hsteady
  obtain ⟨log, hlogged⟩ := a.scheduler.rounds_logged k (a.facing clock ahead) []
  have hlog := hsteady.log_rounds World.monitors_drivable.keeps hdrivable k
  rw [hlogged] at hlog
  exact ⟨_, _, log, rfl, hlogged, hlog⟩

theorem plannedEnd_run (hvalid : c.validate = .ok ()) (hscheduler : a.scheduler = newScheduler c)
    (hdrivable : (a.facing clock ahead).Drivable) {fuel : Nat} {e : RunEnd}
    {s : Scheduler (World ConfiguredRig)} {w : World ConfiguredRig}
    (hrun : a.scheduler.run fuel (a.facing clock ahead) = some (e, s, w)) :
    PlannedEnd c.scheduler.onOverrun c.tasks w.clock.now e := by
  rw [hscheduler] at hrun
  exact (steady_newScheduler hvalid).run World.monitors_drivable hdrivable hrun

/-- A run that begins at the last safe reading, with nothing ahead, shows that none is later. -/
theorem crashes_later_iff (hvalid : c.validate = .ok ()) (hscheduler : a.scheduler = newScheduler c)
    (hdrivable : ∀ clock ahead, (a.facing clock ahead).Drivable) (latest : Nat) :
    (∀ clock ahead fuel s w,
      a.scheduler.run fuel (a.facing clock ahead) = some (.crashed, s, w) →
        latest < w.clock.now) ↔
      ∀ t ∈ c.tasks, latest + t.2.nanos < Clock.horizon := by
  constructor
  · rintro hlate ⟨name, period⟩ htask
    by_contra hbeyond
    obtain ⟨t, ht, hnew, rfl⟩ := exists_newTask htask
    rw [← hscheduler] at ht
    have hcrash := Scheduler.run_of_beyond (w := a.facing { now := latest } []) ht hnew rfl
      (Nat.not_lt.mp hbeyond) 0
    exact absurd (hlate _ _ _ _ _ hcrash) (Nat.lt_irrefl latest)
  · intro hperiods clock ahead fuel s w hrun
    obtain _ | _ | ⟨hplan, hbeyond⟩ := plannedEnd_run hvalid hscheduler (hdrivable clock ahead) hrun
    have hlt := hperiods _ hplan
    dsimp only at hlt
    omega

end Runs

end Assembly

/-- The bench of an accepted configuration can be assembled, with the tasks that are asked for,
exactly if its queues and statistics can be allocated; a program that tries otherwise is torn down.
Whatever happens to the bench, every run of a task finds a rig that can be driven, and succeeds. A
run of the schedule ends for nothing but a stop, an overrun that is to be a fault, or a period that
leads beyond the horizon of the clock. It is safe from the last up to some reading exactly if no
period leads beyond the horizon from there. -/
theorem valid_bench_crashes_iff {c : Config} (hvalid : c.validate = .ok ()) :
    (Assembly.ofConfig c = .error .crashed ↔ ¬c.Fits) ∧
    (c.Fits → ∃ a, Assembly.ofConfig c = .ok a ∧
      a.scheduler.tasks.map (fun t => (t.name, t.period)) = c.tasks ∧
      (∀ clock ahead k, ∃ s w log,
        a.scheduler.rounds k (a.facing clock ahead) = (s, w) ∧
        a.scheduler.logged.rounds k { world := a.facing clock ahead } =
          (s.logged, { world := w, log }) ∧
        ∀ call ∈ log, call.before.Drivable ∧
          ∃ job, (call.task, job) ∈ a.scheduler.roster ∧
            job.run call.before = (.done, call.after)) ∧
      (∀ clock ahead fuel e s w,
        a.scheduler.run fuel (a.facing clock ahead) = some (e, s, w) →
          PlannedEnd c.scheduler.onOverrun c.tasks w.clock.now e) ∧
      ∀ latest,
        (∀ clock ahead fuel s w,
          a.scheduler.run fuel (a.facing clock ahead) = some (.crashed, s, w) →
            latest < w.clock.now) ↔
          ∀ t ∈ c.tasks, latest + t.2.nanos < Clock.horizon) := by
  refine ⟨Assembly.ofConfig_eq_crashed_iff hvalid, fun hfits => ?_⟩
  obtain ⟨a, hassembled, hscheduler, hdrivable⟩ := Assembly.exists_ofConfig hvalid hfits
  exact ⟨a, hassembled, hscheduler ▸ Assembly.tasks_newScheduler c,
    fun clock ahead k => Assembly.exists_log hvalid hscheduler (hdrivable clock ahead) k,
    fun clock ahead _ _ _ _ hrun =>
      Assembly.plannedEnd_run hvalid hscheduler (hdrivable clock ahead) hrun,
    Assembly.crashes_later_iff hvalid hscheduler hdrivable⟩

/-- A bench with a link task and a simulated plant that ticks every second is safe for the first
hundred billion years. -/
theorem valid_bench_crashes_iff_every_second :
    let cfg : Config := { control.handleFramesInTick := false, rig.kind := .simulated }
    cfg.validate = .ok () ∧ cfg.Fits ∧ ∃ a, Assembly.ofConfig cfg = .ok a ∧
      ∀ clock ahead fuel s w, a.scheduler.run fuel (a.facing clock ahead) = some (.crashed, s, w) →
        3155760000000000000 * nanosPerSecond < w.clock.now := by
  intro cfg
  have hvalid : cfg.validate = .ok () := by decide
  have hfits : cfg.Fits := ⟨by decide, by decide⟩
  obtain ⟨a, hassembled, -, -, -, hsafe⟩ := (valid_bench_crashes_iff hvalid).2 hfits
  have hperiods : ∀ t ∈ cfg.tasks,
      3155760000000000000 * nanosPerSecond + t.2.nanos < Clock.horizon := by decide
  exact ⟨hvalid, hfits, a, hassembled, (hsafe _).mpr hperiods⟩

/-- A period beyond the horizon is accepted, and the first cycle crashes. So are statistics of more
samples than can be allocated, which tear the program down before its first cycle. -/
theorem first_cycle_crashes :
    (let cfg : Config :=
      { control.period := ⟨9223372036854775808 * nanosPerSecond, by decide⟩ }
    cfg.validate = .ok () ∧ ∃ a, Assembly.ofConfig cfg = .ok a ∧ a.world.clock.stopping = false ∧
      (a.scheduler.runCycle a.world).1 = .crashed ∧
      (a.scheduler.run 1 a.world).map (·.1) = some .crashed) ∧
    let cfg : Config := { scheduler.histogramSize := 4611686018427387904 }
    cfg.validate = .ok () ∧ Assembly.ofConfig cfg = .error .crashed :=
  ⟨⟨rfl, _, rfl, rfl, rfl, rfl⟩, rfl, rfl⟩

end RigBench
