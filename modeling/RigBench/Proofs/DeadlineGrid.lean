import Mathlib.Order.Interval.Finset.Nat
import RigBench.Proofs.Timetable
import RigBench.World

/-!
The grid of deadlines. Whatever happens in between, the next deadline of a task is the reading at
which it was first scheduled plus one period for every run, every point missed, and the next one.
-/
namespace RigBench

/-- The runs of a task with a grid from `t0` that have dealt with its first `q` points. Each served
the first point that was left, and its cycle was read between the last point dealt with and the
next. -/
inductive Serves (t0 period : Nat) : Nat → List Turn → Prop
  | nil : Serves t0 period 0 []
  | turn {p q now : Nat} {turns : List Turn} (earlier : Serves t0 period p turns) (hlt : p < q)
      (hlow : t0 + q * period ≤ now) (hhigh : now < t0 + (q + 1) * period) :
      Serves t0 period q (⟨t0 + (p + 1) * period, now⟩ :: turns)

namespace Serves

variable {t0 period q : Nat} {turns : List Turn}

theorem of_mem (h : Serves t0 period q turns) : ∀ turn ∈ turns,
    turn.due ≤ turn.now ∧ turn.now < t0 + (q + 1) * period ∧
      ∃ k, 1 ≤ k ∧ k ≤ q ∧ turn.due = t0 + k * period := by
  induction h with
  | nil => exact nofun
  | @turn p q now turns earlier hlt hlow hhigh ih =>
    have hserved : (p + 1) * period ≤ q * period := Nat.mul_le_mul_right period hlt
    have hlater : (p + 1) * period ≤ (q + 1) * period :=
      Nat.mul_le_mul_right period (Nat.le_succ_of_le hlt)
    intro turn hturn
    rcases List.mem_cons.mp hturn with rfl | hturn
    · exact ⟨by dsimp only; omega, hhigh, p + 1, Nat.succ_pos p, hlt, rfl⟩
    · obtain ⟨hdue, hnow, k, hk, hkp, heq⟩ := ih turn hturn
      exact ⟨hdue, by omega, k, hk, by omega, heq⟩

theorem of_head (h : Serves t0 period q turns) {last : Turn} (hlast : turns.head? = some last) :
    t0 + q * period ≤ last.now ∧ last.now < t0 + (q + 1) * period := by
  cases h with
  | nil => cases hlast
  | turn earlier hlt hlow hhigh =>
    obtain rfl := Option.some.inj hlast
    exact ⟨hlow, hhigh⟩

theorem pairwise (h : Serves t0 period q turns) :
    turns.Pairwise fun later earlier => earlier.now < later.due := by
  induction h with
  | nil => exact .nil
  | turn earlier hlt hlow hhigh ih =>
    exact .cons (fun turn hturn => (earlier.of_mem turn hturn).2.1) ih

/-- The points dealt with that no run served. -/
def missed (t0 period q : Nat) (turns : List Turn) : Finset Nat :=
  (Finset.Icc 1 q).filter fun k => ∀ turn ∈ turns, turn.due ≠ t0 + k * period

theorem point_inj (hperiod : 0 < period) {k k' : Nat} :
    t0 + k * period = t0 + k' * period ↔ k = k' := by
  rw [Nat.add_left_cancel_iff, Nat.mul_left_inj hperiod.ne']

theorem card_missed (hperiod : 0 < period) (h : Serves t0 period q turns) :
    (missed t0 period q turns).card + turns.length = q := by
  induction h with
  | nil => rfl
  | @turn p q now turns earlier hlt hlow hhigh ih =>
    -- of the points from `p + 1` on, this run serves the first, and nobody the others
    have hsplit : missed t0 period q (⟨t0 + (p + 1) * period, now⟩ :: turns) =
        missed t0 period p turns ∪ Finset.Icc (p + 2) q := by
      ext k
      simp only [missed, Finset.mem_filter, Finset.mem_union, Finset.mem_Icc, List.forall_mem_cons,
        ne_eq, point_inj hperiod]
      constructor
      · rintro ⟨hk, hhead, hrest⟩
        by_cases hkp : k ≤ p
        · exact .inl ⟨⟨hk.1, hkp⟩, hrest⟩
        · exact .inr ⟨by omega, hk.2⟩
      · rintro (⟨hk, hrest⟩ | hk)
        · exact ⟨by omega, by omega, hrest⟩
        · refine ⟨by omega, by omega, fun turn hturn heq => ?_⟩
          obtain ⟨-, -, k', -, hk', heq'⟩ := earlier.of_mem turn hturn
          have : k' = k := (point_inj hperiod).mp (heq'.symm.trans heq)
          omega
    have hdisjoint : Disjoint (missed t0 period p turns) (Finset.Icc (p + 2) q) := by
      refine Finset.disjoint_left.mpr fun k hk hk' => ?_
      have hkp := (Finset.mem_Icc.mp (Finset.mem_filter.mp hk).1).2
      have hpk := (Finset.mem_Icc.mp hk').1
      omega
    rw [hsplit, Finset.card_union_of_disjoint hdisjoint, Nat.card_Icc, List.length_cons]
    omega

end Serves

/-- A task, how often it ran, and its record: it has dealt with the points before its deadline. -/
structure OnGrid {ω : Type} (runs : Nat) (t : PeriodicTask ω) (r : TaskRecord) : Prop where
  period : 0 < t.period.nanos
  runs : runs = t.metrics.total
  turns : r.turns.length = t.metrics.total
  fresh : t.deadline = none → r = {} ∧ t.metrics.missed = 0
  grid : ∀ due, t.deadline = some due → ∃ t0, r.origin = some t0 ∧
    due = t0 + (t.metrics.total + t.metrics.missed + 1) * t.period.nanos ∧
    Serves t0 t.period.nanos (t.metrics.total + t.metrics.missed) r.turns

namespace OnGrid

variable {ω : Type} {runs : Nat} {t t' : PeriodicTask ω} {r : TaskRecord}

theorem add {name : String} {period : Duration} {job : Job ω} (size : Nat)
    (hperiod : 0 < period.nanos) :
    OnGrid 0 { name, period, job, metrics := .new size period } {} where
  period := hperiod
  runs := rfl
  turns := rfl
  fresh _ := ⟨rfl, rfl⟩
  grid := nofun

theorem scheduled {reading : Nat} (h : OnGrid runs t r) (ht : t.schedule reading = some t') :
    OnGrid runs t' (r.noteScheduled reading t) := by
  unfold TaskRecord.noteScheduled
  rcases PeriodicTask.schedule_cases ht with ⟨rfl, hdue⟩ | ⟨rfl, hnone⟩
  · obtain ⟨due, hdue⟩ := Option.ne_none_iff_exists'.mp hdue
    rw [hdue]
    exact h
  · obtain ⟨rfl, hmissed⟩ := h.fresh hnone
    have htotal : t.metrics.total = 0 := h.turns.symm
    rw [hnone]
    refine ⟨h.period, h.runs, h.turns, nofun, fun due hdue => ⟨reading, rfl, ?_, ?_⟩⟩
    · obtain rfl := Option.some.inj hdue
      rw [htotal, hmissed]
      simp
    · rw [htotal, hmissed]
      exact .nil

theorem served {due now : Nat} (h : OnGrid runs t r) (hdue : t.deadline = some due)
    (hle : due ≤ now) (execution : Nat) :
    OnGrid (runs + 1) (t.account due now execution).2 { r with turns := ⟨due, now⟩ :: r.turns } := by
  obtain ⟨t0, horigin, hpoint, hserves⟩ := h.grid due hdue
  obtain ⟨skipped, hnext, hskipped, hlt⟩ := nextDeadline_points h.period due now
  have htask : (t.account due now execution).2.deadline =
        some (due + (skipped + 1) * t.period.nanos) ∧
      (t.account due now execution).2.metrics.missed = t.metrics.missed + skipped := by
    change some (nextDeadline due t.period.nanos now).1 = _ ∧
      t.metrics.missed + (nextDeadline due t.period.nanos now).2 = _
    rw [hnext]
    exact ⟨rfl, rfl⟩
  have htotal : (t.account due now execution).2.metrics.total = t.metrics.total + 1 := rfl
  -- the deadline served is the next point of the grid, and the skipped ones follow it
  have hshift : ∀ i, due + i * t.period.nanos =
      t0 + (t.metrics.total + 1 + (t.metrics.missed + i)) * t.period.nanos := by
    intro i
    rw [hpoint, Nat.add_assoc, ← Nat.add_mul]
    congr 2
    omega
  have hreached : due + skipped * t.period.nanos ≤ now := by
    cases skipped with
    | zero => simpa using hle
    | succ i => exact hskipped i (Nat.lt_succ_self i)
  refine ⟨h.period, by rw [htotal, h.runs], ?_, fun hnone => ?_, fun due' hdue' => ?_⟩
  · rw [htotal, List.length_cons, h.turns]
  · rw [htask.1] at hnone
    cases hnone
  · obtain rfl := Option.some.inj (htask.1.symm.trans hdue')
    rw [htotal, htask.2]
    refine ⟨t0, horigin, hshift (skipped + 1), ?_⟩
    rw [hshift] at hreached hlt
    have hturn := Serves.turn hserves (by omega) hreached hlt
    rwa [← hpoint] at hturn

end OnGrid

theorem forall₂_zipWith {α β γ δ : Type} {R : α → γ → Prop} {S : α → β → Prop} {T : β → δ → Prop}
    {f : α → γ → δ} (hf : ∀ a b c, R a c → S a b → T b (f a c)) {as : List α} {bs : List β}
    {cs : List γ} (hR : List.Forall₂ R as cs) (hS : List.Forall₂ S as bs) :
    List.Forall₂ T bs (List.zipWith f as cs) := by
  induction hR generalizing bs with
  | nil => cases hS; exact .nil
  | cons hac hR ih =>
    cases hS with
    | cons hab hS => exact .cons (hf _ _ _ hac hab) (ih hS)

theorem exists_of_forall₂ {α β : Type} {R : α → β → Prop} {as : List α} {bs : List β}
    (h : List.Forall₂ R as bs) : ∀ a ∈ as, ∃ b ∈ bs, R a b := by
  induction h with
  | nil => exact nofun
  | cons hab h ih =>
    intro a ha
    rcases List.mem_cons.mp ha with rfl | ha
    · exact ⟨_, List.mem_cons_self, hab⟩
    · obtain ⟨b, hb, hab⟩ := ih a ha
      exact ⟨b, List.mem_cons_of_mem _ hb, hab⟩

/-- Tasks of different names with jobs that count their runs, all of them on their grids. -/
structure Kept {ω : Type} (tasks : List (PeriodicTask (Observed ω))) (w : Observed ω)
    (records : List TaskRecord) : Prop where
  names : (tasks.map (·.name)).Nodup
  counts : ∀ t ∈ tasks, t.CountsRuns
  others : ∀ name, name ∉ tasks.map (·.name) → w.runs name = 0
  grid : List.Forall₂ (fun t r => OnGrid (w.runs t.name) t r) tasks records

namespace Kept

variable {ω : Type} {tasks tasks' : List (PeriodicTask (Observed ω))} {w w' : Observed ω}
  {records records' : List TaskRecord}

theorem names_eq (hsame : List.Forall₂ PeriodicTask.Same tasks tasks') :
    tasks'.map (·.name) = tasks.map (·.name) := by
  induction hsame with
  | nil => rfl
  | cons hname _ ih => rw [List.map_cons, List.map_cons, hname.name, ih]

theorem same (h : Kept tasks w records) (hsame : List.Forall₂ PeriodicTask.Same tasks tasks')
    (hothers : ∀ name, name ∉ tasks.map (·.name) → w'.runs name = w.runs name)
    (hgrid : List.Forall₂ (fun t r => OnGrid (w'.runs t.name) t r) tasks' records') :
    Kept tasks' w' records' where
  names := by rw [names_eq hsame]; exact h.names
  counts := by
    intro t' ht'
    obtain ⟨t, ht, hsame⟩ := exists_of_forall₂ hsame.flip t' ht'
    exact (h.counts t ht).same hsame
  others name hname := by
    rw [names_eq hsame] at hname
    rw [hothers name hname, h.others name hname]
  grid := hgrid

theorem period (h : Kept tasks w records) : ∀ t ∈ tasks, 0 < t.period.nanos := by
  intro t ht
  obtain ⟨r, -, hr⟩ := exists_of_forall₂ h.grid t ht
  exact hr.period

theorem add (h : Kept tasks w records) {name : String} {period : Duration} (job : Job ω)
    (size : Nat) (hperiod : 0 < period.nanos) (hname : name ∉ tasks.map (·.name)) :
    Kept (tasks ++ [{ name, period, job := job.observed name, metrics := .new size period }]) w
      (records ++ [({} : TaskRecord)]) where
  names := by
    rw [List.map_append]
    refine List.nodup_append.mpr ⟨h.names, List.nodup_singleton _, ?_⟩
    intro name₁ h₁ name₂ h₂ heq
    obtain rfl : name₂ = name := List.mem_singleton.mp h₂
    exact hname (heq ▸ h₁)
  counts := by
    intro t ht
    rcases List.mem_append.mp ht with ht | ht
    · exact h.counts t ht
    · rw [List.mem_singleton.mp ht]
      exact ⟨job, rfl⟩
  others name₁ hname₁ := by
    rw [List.map_append] at hname₁
    exact h.others name₁ fun hmem => hname₁ (List.mem_append_left _ hmem)
  grid := by
    refine List.rel_append h.grid (.cons ?_ .nil)
    change OnGrid (w.runs name) _ _
    rw [h.others name hname]
    exact .add size hperiod

theorem schedule {s s' : Scheduler (Observed ω)} {reading : Nat} (h : Kept s.tasks w records)
    (hschedule : s.scheduleNew reading = some s') (hquiet : w.Quiet w') :
    Kept s'.tasks w' (List.zipWith (TaskRecord.noteScheduled reading) s.tasks records) := by
  have htasks := Scheduler.forall₂_of_scheduleNew hschedule
  refine h.same (htasks.imp fun _ _ => .of_schedule) (fun _ _ => by rw [hquiet.runs]) ?_
  refine forall₂_zipWith (fun t t' r hr ht => ?_) h.grid htasks
  rw [(PeriodicTask.Same.of_schedule ht).name, hquiet.runs]
  exact hr.scheduled ht

theorem due [Clock ω] {before : Observed ω} {now : Nat} {e : CycleEnd} (h : Kept tasks w records)
    (hbefore : before.runs = w.runs) (hway : Scheduler.DueWay now tasks w e tasks' w')
    (he : e ≠ .crashed) :
    Kept tasks' w' (List.zipWith (TaskRecord.noteTurn now before w') tasks records) := by
  have hways := hway.taskWays h.counts h.names
  refine h.same (hways.imp fun _ _ ⟨_, ht, _⟩ => ht.same)
    (fun _ => hway.runs_of_not_mem h.counts) ?_
  refine forall₂_zipWith (fun t t' r hr ⟨ran, ht, hruns⟩ => ?_) h.grid hways
  rw [ht.same.name, hruns]
  unfold TaskRecord.noteTurn
  rw [hbefore, hruns]
  cases ht with
  | rests =>
    rw [Nat.add_zero]
    split
    · exact hr
    · rw [if_pos rfl]
      exact hr
  | served hdue hle =>
    rw [hdue]
    dsimp only
    rw [if_neg (Nat.succ_ne_self _)]
    exact hr.served hdue hle _
  | torn hcrashed => exact absurd hcrashed he

end Kept

namespace Timetable

variable {ω : Type}

/-- A crash has a cause: a job tore down its thread, or no deadline fits before the horizon. -/
def Excused (x : Timetable ω) : Prop :=
  x.world.torn = true ∨
    ∃ t ∈ x.scheduler.tasks, Clock.horizon ≤ x.world.greatest + t.period.nanos

/-- All tasks are on their grids, unless a crash has put an end to it. -/
structure Sound (x : Timetable ω) : Prop where
  kept : x.lost = false → Kept x.scheduler.tasks x.world x.records
  excused : x.lost = true → x.Excused

theorem Sound.of_kept {x : Timetable ω} (hlost : x.lost = false)
    (h : Kept x.scheduler.tasks x.world x.records) : x.Sound :=
  ⟨fun _ => h, fun hcrash => (by rw [hlost] at hcrash; cases hcrash)⟩

theorem Sound.of_excused {x : Timetable ω} (hlost : x.lost = true) (h : x.Excused) : x.Sound :=
  ⟨fun hgoes => (by rw [hlost] at hgoes; cases hgoes), fun _ => h⟩

theorem sound_start (policy : OverrunPolicy) (histogramSize : Nat) (w : ω) :
    (start policy histogramSize w).Sound :=
  .of_kept rfl ⟨.nil, nofun, fun _ _ => rfl, .nil⟩

theorem sound_add {x : Timetable ω} (hlost : x.lost = false)
    (h : Kept x.scheduler.tasks x.world x.records) (name : String) (period : Duration)
    (job : Job ω) : (x.add name period job).Sound := by
  unfold add Scheduler.add
  cases haccepted : x.scheduler.refusal? name period with
  | some e => exact .of_kept hlost h
  | none =>
    obtain ⟨hpositive, hname⟩ := Scheduler.refusal?_eq_none_iff.mp haccepted
    refine .of_kept hlost (h.add job _ ?_ ?_)
    · exact Nat.pos_of_ne_zero (by simpa [Duration.isZero] using hpositive)
    · simpa [Scheduler.names] using hname

variable [Clock ω]

theorem scheduledRecords_eq {x : Timetable ω} {s : Scheduler (Observed ω)}
    (hschedule : x.scheduler.scheduleNew (Clock.read x.world).1 = some s) :
    x.scheduledRecords = List.zipWith (TaskRecord.noteScheduled (Clock.read x.world).1)
      x.scheduler.tasks x.records := by
  rw [scheduledRecords, hschedule]

theorem sound_ready {x : Timetable ω} {s : Scheduler (Observed ω)} {w : Observed ω}
    {records : List TaskRecord} (h : Kept s.tasks w records) (hquiet : x.world.Quiet w) :
    Sound
      { scheduler := (s.runReady w).2.1
        world := (s.runReady w).2.2
        records := List.zipWith
          (TaskRecord.noteTurn (Clock.read w).1 x.world (s.runReady w).2.2) s.tasks records
        lost := decide ((s.runReady w).1 = .crashed) } := by
  have hway := s.dueWay_runReady w
  have hread : Kept s.tasks (Clock.read w).2 records := ⟨h.names, h.counts, h.others, h.grid⟩
  by_cases he : (s.runReady w).1 = .crashed
  · refine .of_excused (decide_eq_true he) ?_
    rcases hway.torn_or_beyond h.counts h.period he with htorn | ⟨t, ht, hbeyond⟩
    · exact .inl htorn
    · obtain ⟨t', ht', ran, hrun, -⟩ := exists_of_forall₂ (hway.taskWays h.counts h.names) t ht
      have hgreatest := Nat.le_trans w.read_le_greatest (hway.greatest_le h.counts)
      refine .inr ⟨t', ht', ?_⟩
      rw [hrun.same.period]
      exact Nat.le_trans hbeyond (Nat.add_le_add_right hgreatest _)
  · exact .of_kept (decide_eq_false he) (hread.due hquiet.runs.symm hway he)

theorem sound_cycle {x : Timetable ω} (h : Kept x.scheduler.tasks x.world x.records) :
    x.cycle.Sound := by
  have hway := x.scheduler.cycleWay_runCycle x.world
  have hread := x.world.quiet_read
  unfold cycle
  generalize x.scheduler.runCycle x.world = out at hway ⊢
  obtain ⟨e, s, w⟩ := out
  dsimp only at hway ⊢
  cases hway with
  | empty htasks =>
    have hrecords : x.records = [] := by
      have hgrid := h.grid
      rw [htasks] at hgrid
      exact List.forall₂_nil_left_iff.mp hgrid
    have hscheduled : x.scheduledRecords = [] := by
      unfold scheduledRecords
      split
      · exact hrecords
      · rw [htasks, List.zipWith_nil_left]
    refine .of_kept rfl ?_
    rw [hrecords] at h
    rw [hscheduled]
    split
    · exact h
    · rw [List.zipWith_nil_right]
      exact h
  | beyond hbeyond =>
    obtain ⟨t, ht, -, hle⟩ := Scheduler.horizon_le_of_scheduleNew hbeyond
    exact .of_excused rfl
      (.inr ⟨t, ht, Nat.le_trans hle (Nat.add_le_add_right x.world.read_le_greatest _)⟩)
  | idle hschedule hready =>
    rw [hready, scheduledRecords_eq hschedule]
    exact .of_kept rfl (h.schedule hschedule hread)
  | @stopped _ deadline _ hschedule hready hwait =>
    have hquiet := (Clock.read x.world).2.quiet_waitFor deadline
    rw [hwait] at hquiet
    rw [hready, scheduledRecords_eq hschedule]
    exact .of_kept rfl (h.schedule hschedule (hread.trans hquiet))
  | @ready s' deadline w' hschedule hready hwait =>
    have hquiet := (Clock.read x.world).2.quiet_waitFor deadline
    rw [hwait] at hquiet
    rw [hready, scheduledRecords_eq hschedule]
    exact sound_ready (h.schedule hschedule (hread.trans hquiet)) (hread.trans hquiet)

theorem sound_step {x : Timetable ω} (h : x.Sound) (a : TimetableAct ω) : (x.step a).Sound := by
  unfold step
  by_cases hlost : x.lost = true
  · rw [if_pos hlost]
    exact h
  rw [if_neg hlost]
  rw [Bool.not_eq_true] at hlost
  have hkept := h.kept hlost
  cases a with
  | add name period job => exact sound_add hlost hkept name period job
  | cycle => exact sound_cycle hkept
  | pass f => exact .of_kept hlost ⟨hkept.names, hkept.counts, hkept.others, hkept.grid⟩

theorem sound_after {x : Timetable ω} (h : x.Sound) (acts : List (TimetableAct ω)) :
    (x.after acts).Sound := by
  induction acts using List.reverseRecOn with
  | nil => exact h
  | append_singleton acts a ih =>
    rw [after_append_singleton]
    exact sound_step ih a

end Timetable

/-- The grid of deadlines, for every scheduler, every world with a clock, and every sequence of
tasks added, cycles and changes of the world. While no cycle has crashed, each task first scheduled
at `t0` is due next at the first point of its grid that it has neither served nor counted as missed;
every run served a point that had passed, no two the same, and the points passed up to the last run
are served or missed, one or the other. A cycle crashes only for a job that tears down its thread,
or for a deadline beyond the horizon of the clock. -/
theorem deadlines_on_grid {ω : Type} [Clock ω] (policy : OverrunPolicy) (histogramSize : Nat)
    (w : ω) (acts : List (TimetableAct ω)) :
    let x := (Timetable.start policy histogramSize w).after acts
    (x.lost = true → x.world.torn = true ∨
      ∃ t ∈ x.scheduler.tasks, Clock.horizon ≤ x.world.greatest + t.period.nanos) ∧
    (x.lost = false → x.records.length = x.scheduler.tasks.length ∧
      ∀ t r, (t, r) ∈ x.scheduler.tasks.zip x.records →
        let period := t.period.nanos
        let served := t.metrics.total
        let missed := t.metrics.missed
        0 < period ∧
        (∀ due now, CatchUp period now (due + period) 0 (nextDeadline due period now).1
          (nextDeadline due period now).2) ∧
        x.world.runs t.name = served ∧ r.turns.length = served ∧
        (t.deadline = none → r.origin = none ∧ served = 0 ∧ missed = 0) ∧
        (∀ due, t.deadline = some due → ∃ t0, r.origin = some t0 ∧
          due = t0 + (served + missed + 1) * period ∧
          (∀ turn ∈ r.turns, turn.due ≤ turn.now ∧
            ∃ k, 1 ≤ k ∧ k ≤ served + missed ∧ turn.due = t0 + k * period) ∧
          r.turns.Pairwise (fun later earlier => earlier.now < later.due) ∧
          ((Finset.Icc 1 (served + missed)).filter fun k =>
            ∀ turn ∈ r.turns, turn.due ≠ t0 + k * period).card = missed ∧
          ∀ last, r.turns.head? = some last → due - period ≤ last.now ∧ last.now < due ∧
            served + missed = (last.now - t0) / period)) := by
  intro x
  have hsound : x.Sound := Timetable.sound_after (Timetable.sound_start policy histogramSize w) acts
  refine ⟨hsound.excused, fun hlost => ?_⟩
  have hgrid := (hsound.kept hlost).grid
  refine ⟨hgrid.length_eq.symm, fun t r hmem => ?_⟩
  have htask : OnGrid (x.world.runs t.name) t r := List.forall₂_zip hgrid hmem
  refine ⟨htask.period, catchUp_nextDeadline htask.period, htask.runs, htask.turns,
    fun hnone => ?_, fun due hdue => ?_⟩
  · obtain ⟨rfl, hmissed⟩ := htask.fresh hnone
    exact ⟨rfl, htask.turns.symm, hmissed⟩
  · obtain ⟨t0, horigin, hpoint, hserves⟩ := htask.grid due hdue
    refine ⟨t0, horigin, hpoint, fun turn hturn => ?_, hserves.pairwise, ?_, fun last hlast => ?_⟩
    · obtain ⟨hle, -, hk⟩ := hserves.of_mem turn hturn
      exact ⟨hle, hk⟩
    · have hcard := hserves.card_missed htask.period
      rw [htask.turns] at hcard
      unfold Serves.missed at hcard
      omega
    · obtain ⟨hlow, hhigh⟩ := hserves.of_head hlast
      rw [hpoint]
      refine ⟨?_, hhigh, ?_⟩
      · rw [Nat.succ_mul]
        omega
      · refine (Nat.div_eq_of_lt_le ?_ ?_).symm <;> omega

/-- A task of a period of 100 ns that is first scheduled at 1 ns and woken up at 350 ns serves its
first point and misses two. -/
theorem deadlines_on_grid_late :
    let w : World NullRig := { bench := .new 1 1, ahead := [{ nanos := 1 }, { nanos := 349 }] }
    let x := (Timetable.start .fault 4 w).after
      [.add "task" ⟨100, by decide⟩ { run := fun w => (.done, w) }, .cycle]
    x.lost = false ∧ x.scheduler.tasks.length = 1 ∧
      ∀ p ∈ x.scheduler.tasks.zip x.records, p.2.origin = some 1 ∧ p.1.metrics.total = 1 ∧
        p.1.metrics.missed = 2 ∧ p.1.deadline = some 401 := by
  intro w x
  have hlost : x.lost = false := by decide +kernel
  have hcounts : ∀ p ∈ x.scheduler.tasks.zip x.records, p.2.origin = some 1 ∧
      p.1.metrics.total = 1 ∧ p.1.metrics.missed = 2 ∧ p.1.period.nanos = 100 := by decide +kernel
  refine ⟨hlost, by decide +kernel, fun p hp => ?_⟩
  obtain ⟨horigin, htotal, hmissed, hperiod⟩ := hcounts p hp
  refine ⟨horigin, htotal, hmissed, ?_⟩
  obtain ⟨-, -, -, -, hnone, hsome⟩ := ((deadlines_on_grid .fault 4 w
    [.add "task" ⟨100, by decide⟩ { run := fun w => (.done, w) }, .cycle]).2 hlost).2 p.1 p.2 hp
  cases hdue : p.1.deadline with
  | none =>
    rw [(hnone hdue).1] at horigin
    cases horigin
  | some due =>
    obtain ⟨t0, horigin', hpoint, -⟩ := hsome due hdue
    obtain rfl := Option.some.inj (horigin.symm.trans horigin')
    rw [hpoint, htotal, hmissed, hperiod]

end RigBench
