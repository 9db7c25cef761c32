import Mathlib.Logic.Function.Basic
import RigBench.Proofs.Cycle

/-!
Runs of a scheduler whose clock and jobs are observed. The jobs count their own runs, and a record
beside each task says when it was first scheduled and which deadlines its runs served.
-/
namespace RigBench

structure Observed (ω : Type) where
  world : ω
  /-- How often each job ran, by the name of its task. -/
  runs : String → Nat := fun _ => 0
  greatest : Nat := 0
  torn : Bool := false

namespace Observed

variable {ω : Type} [Clock ω]

instance : Clock (Observed ω) where
  read w := ((Clock.read w.world).1,
    { w with world := (Clock.read w.world).2, greatest := max w.greatest (Clock.read w.world).1 })
  sleepUntil target w := { w with world := Clock.sleepUntil target w.world }
  stopping w := Clock.stopping w.world
  le_read_sleepUntil target w := Clock.le_read_sleepUntil target w.world

/-- Nothing was run, and readings were taken into account. -/
structure Quiet (w w' : Observed ω) : Prop where
  runs : w'.runs = w.runs
  torn : w'.torn = w.torn
  greatest : w.greatest ≤ w'.greatest

omit [Clock ω] in
theorem Quiet.refl (w : Observed ω) : Quiet w w := ⟨rfl, rfl, Nat.le_refl _⟩

omit [Clock ω] in
theorem Quiet.trans {w w' w'' : Observed ω} (h : Quiet w w') (h' : Quiet w' w'') : Quiet w w'' :=
  ⟨h'.runs.trans h.runs, h'.torn.trans h.torn, Nat.le_trans h.greatest h'.greatest⟩

theorem quiet_read (w : Observed ω) : Quiet w (Clock.read w).2 := ⟨rfl, rfl, Nat.le_max_left _ _⟩

theorem read_le_greatest (w : Observed ω) : (Clock.read w).1 ≤ (Clock.read w).2.greatest :=
  Nat.le_max_right _ _

theorem quiet_sleepUntil (target : Nat) (w : Observed ω) : Quiet w (Clock.sleepUntil target w) :=
  ⟨rfl, rfl, Nat.le_refl _⟩

theorem quiet_sleepTo (target : Nat) (w : Observed ω) : Quiet w (Clock.sleepTo target w).2 := by
  fun_induction Clock.sleepTo target w with
  | case1 w hstop => exact .refl w
  | case2 w hstop hle => exact quiet_read w
  | case3 w hstop hle ih => exact (quiet_read w).trans ((quiet_sleepUntil _ _).trans ih)

theorem quiet_waitFor (deadline : Nat) (w : Observed ω) : Quiet w (Clock.waitFor deadline w).2 := by
  unfold Clock.waitFor
  dsimp only
  split
  · exact quiet_read w
  · exact (quiet_read w).trans ((quiet_read _).trans (quiet_sleepTo _ _))

end Observed

def Job.observed {ω : Type} (job : Job ω) (name : String) : Job (Observed ω) where
  run w :=
    ((job.run w.world).1,
      { w with
        world := (job.run w.world).2
        runs := Function.update w.runs name (w.runs name + 1)
        torn := w.torn || decide ((job.run w.world).1 = .crashed) })
  shutdown w := ((job.shutdown w.world).1, { w with world := (job.shutdown w.world).2 })

/-- A run: the deadline it served, and the reading of its cycle. -/
structure Turn where
  due : Nat
  now : Nat
  deriving DecidableEq

structure TaskRecord where
  /-- The reading at which it was first scheduled. -/
  origin : Option Nat := none
  turns : List Turn := []
  deriving DecidableEq

namespace TaskRecord

variable {ω : Type}

def noteScheduled (reading : Nat) (t : PeriodicTask ω) (r : TaskRecord) : TaskRecord :=
  match t.deadline with
  | none => { r with origin := some reading }
  | some _ => r

/-- The due tasks were run in a cycle read at `now`; this one was if its job has counted that. -/
def noteTurn (now : Nat) (before after : Observed ω) (t : PeriodicTask (Observed ω))
    (r : TaskRecord) : TaskRecord :=
  match t.deadline with
  | none => r
  | some due =>
    if after.runs t.name = before.runs t.name then r else { r with turns := ⟨due, now⟩ :: r.turns }

end TaskRecord

structure Timetable (ω : Type) where
  scheduler : Scheduler (Observed ω)
  world : Observed ω
  records : List TaskRecord := []
  /-- A cycle crashed, and nothing happens any more. -/
  lost : Bool := false

inductive TimetableAct (ω : Type)
  | add (name : String) (period : Duration) (job : Job ω)
  | cycle
  | pass (f : ω → ω)

namespace Timetable

variable {ω : Type}

def start (policy : OverrunPolicy) (histogramSize : Nat) (w : ω) : Timetable ω where
  scheduler := { policy, histogramSize }
  world := { world := w }

def add (x : Timetable ω) (name : String) (period : Duration) (job : Job ω) : Timetable ω :=
  match x.scheduler.add name period (job.observed name) with
  | .ok scheduler => { x with scheduler, records := x.records ++ [{}] }
  | .error _ => x

variable [Clock ω]

def scheduledRecords (x : Timetable ω) : List TaskRecord :=
  match x.scheduler.scheduleNew (Clock.read x.world).1 with
  | none => x.records
  | some _ =>
    List.zipWith (TaskRecord.noteScheduled (Clock.read x.world).1) x.scheduler.tasks x.records

def cycle (x : Timetable ω) : Timetable ω :=
  let (result, scheduler, world) := x.scheduler.runCycle x.world
  let records := match x.scheduler.ready? x.world with
    | none => x.scheduledRecords
    | some (s, w) =>
      List.zipWith (TaskRecord.noteTurn (Clock.read w).1 x.world world) s.tasks x.scheduledRecords
  { scheduler, world, records, lost := decide (result = .crashed) }

def step (x : Timetable ω) (a : TimetableAct ω) : Timetable ω :=
  if x.lost then x
  else match a with
    | .add name period job => x.add name period job
    | .cycle => x.cycle
    | .pass f => { x with world.world := f x.world.world }

def after (x : Timetable ω) (acts : List (TimetableAct ω)) : Timetable ω := acts.foldl step x

theorem after_append_singleton (x : Timetable ω) (acts : List (TimetableAct ω))
    (a : TimetableAct ω) : x.after (acts ++ [a]) = (x.after acts).step a := by
  rw [after, List.foldl_append]
  rfl

end Timetable

namespace PeriodicTask

variable {ω : Type}

def CountsRuns (t : PeriodicTask (Observed ω)) : Prop := ∃ job : Job ω, t.job = job.observed t.name

theorem CountsRuns.same {t t' : PeriodicTask (Observed ω)} (ht : t.CountsRuns) (h : Same t t') :
    t'.CountsRuns := by
  obtain ⟨job, hjob⟩ := ht
  exact ⟨job, by rw [h.job, h.name, hjob]⟩

variable [Clock ω] {t : PeriodicTask (Observed ω)}

theorem CountsRuns.runs_visit (ht : t.CountsRuns) (w : Observed ω) :
    (t.visit w).2.2.runs = Function.update w.runs t.name (w.runs t.name + 1) := by
  obtain ⟨job, hjob⟩ := ht
  unfold visit
  rw [hjob]
  rfl

theorem CountsRuns.runs_visit_self (ht : t.CountsRuns) (w : Observed ω) :
    (t.visit w).2.2.runs t.name = w.runs t.name + 1 := by
  rw [ht.runs_visit, Function.update_self]

theorem CountsRuns.runs_visit_of_ne (ht : t.CountsRuns) (w : Observed ω) {name : String}
    (hname : name ≠ t.name) : (t.visit w).2.2.runs name = w.runs name := by
  rw [ht.runs_visit, Function.update_of_ne hname]

/-- The tasks behind one that runs are not touched by that, whatever it does. -/
theorem CountsRuns.runs_visit_behind (ht : t.CountsRuns) (w : Observed ω)
    {ts : List (PeriodicTask (Observed ω))} (hhead : t.name ∉ ts.map (·.name)) :
    ∀ t' ∈ ts, (t.visit w).2.2.runs t'.name = w.runs t'.name := by
  intro t' ht'
  exact ht.runs_visit_of_ne w fun heq => hhead (heq ▸ List.mem_map_of_mem ht')

theorem CountsRuns.torn_visit (ht : t.CountsRuns) (w : Observed ω) :
    (t.visit w).2.2.torn = (w.torn || decide ((t.visit w).1 = .crashed)) := by
  obtain ⟨job, hjob⟩ := ht
  unfold visit
  rw [hjob]
  rfl

theorem CountsRuns.greatest_visit (ht : t.CountsRuns) (w : Observed ω) :
    w.greatest ≤ (t.visit w).2.2.greatest := by
  obtain ⟨job, hjob⟩ := ht
  unfold visit
  rw [hjob]
  exact Nat.le_trans (Nat.le_max_left _ _) (Nat.le_max_left _ _)

end PeriodicTask

namespace Scheduler

variable {ω : Type}

/-- What a cycle read at `now` that ends with `e` does to a task, and how often it runs it. -/
inductive TaskWay (now : Nat) (e : CycleEnd) (t : PeriodicTask ω) : Nat → PeriodicTask ω → Prop
  | rests : TaskWay now e t 0 t
  | served {due execution : Nat} (hdue : t.deadline = some due) (hle : due ≤ now) :
      TaskWay now e t 1 (t.account due now execution).2
  | torn (he : e = .crashed) : TaskWay now e t 1 t

theorem TaskWay.same {now ran : Nat} {e : CycleEnd} {t t' : PeriodicTask ω}
    (h : TaskWay now e t ran t') : t.Same t' := by
  cases h <;> exact ⟨rfl, rfl, rfl⟩

namespace DueWay

variable [Clock ω] {now : Nat} {ts ts' : List (PeriodicTask (Observed ω))} {w w' : Observed ω}
  {e : CycleEnd}

theorem torn_or_beyond (h : DueWay now ts w e ts' w') (hcounts : ∀ t ∈ ts, t.CountsRuns)
    (hperiod : ∀ t ∈ ts, 0 < t.period.nanos) (he : e = .crashed) :
    w'.torn = true ∨ ∃ t ∈ ts, Clock.horizon ≤ now + t.period.nanos := by
  induction h with
  | done => cases he
  | rests _ rest ih | served _ _ rest ih =>
    obtain ⟨-, hcounts⟩ := List.forall_mem_cons.mp hcounts
    obtain ⟨-, hperiod⟩ := List.forall_mem_cons.mp hperiod
    rcases ih hcounts hperiod he with htorn | ⟨t, ht, hbeyond⟩
    · exact .inl htorn
    · exact .inr ⟨t, List.mem_cons_of_mem _ ht, hbeyond⟩
  | @halted t due ts w e hdue hle hbeyond =>
    have hnext := nextDeadline_le (hperiod t List.mem_cons_self) hle
    exact .inr ⟨t, List.mem_cons_self, Nat.le_trans (hbeyond he) hnext⟩
  | @torn t due ts w hdue hle hcrashed =>
    refine .inl ?_
    rw [(hcounts t List.mem_cons_self).torn_visit, hcrashed]
    simp

theorem greatest_le (h : DueWay now ts w e ts' w') (hcounts : ∀ t ∈ ts, t.CountsRuns) :
    w.greatest ≤ w'.greatest := by
  induction h with
  | done => exact Nat.le_refl _
  | rests _ rest ih => exact ih (List.forall_mem_cons.mp hcounts).2
  | served _ _ rest ih =>
    obtain ⟨ht, hcounts⟩ := List.forall_mem_cons.mp hcounts
    exact Nat.le_trans (ht.greatest_visit _) (ih hcounts)
  | halted | torn => exact (hcounts _ List.mem_cons_self).greatest_visit _

theorem runs_of_not_mem (h : DueWay now ts w e ts' w') (hcounts : ∀ t ∈ ts, t.CountsRuns)
    {name : String} (hname : name ∉ ts.map (·.name)) : w'.runs name = w.runs name := by
  induction h with
  | done => rfl
  | rests _ rest ih =>
    obtain ⟨-, hrest⟩ := List.ne_and_not_mem_of_not_mem_cons hname
    exact ih (List.forall_mem_cons.mp hcounts).2 hrest
  | served _ _ rest ih =>
    obtain ⟨ht, hcounts⟩ := List.forall_mem_cons.mp hcounts
    obtain ⟨hne, hrest⟩ := List.ne_and_not_mem_of_not_mem_cons hname
    rw [ih hcounts hrest]
    exact ht.runs_visit_of_ne _ hne
  | halted | torn =>
    exact (hcounts _ List.mem_cons_self).runs_visit_of_ne _
      (List.ne_and_not_mem_of_not_mem_cons hname).1

omit [Clock ω] in
theorem rests_behind (hruns : ∀ t ∈ ts, w'.runs t.name = w.runs t.name) :
    List.Forall₂ (fun t t' => ∃ ran, TaskWay now e t ran t' ∧
      w'.runs t.name = w.runs t.name + ran) ts ts :=
  List.forall₂_same.mpr fun t ht => ⟨0, .rests, hruns t ht⟩

theorem taskWays (h : DueWay now ts w e ts' w') (hcounts : ∀ t ∈ ts, t.CountsRuns)
    (hnames : (ts.map (·.name)).Nodup) :
    List.Forall₂ (fun t t' => ∃ ran, TaskWay now e t ran t' ∧
      w'.runs t.name = w.runs t.name + ran) ts ts' := by
  induction h with
  | done => exact .nil
  | rests _ rest ih =>
    obtain ⟨-, hcounts⟩ := List.forall_mem_cons.mp hcounts
    obtain ⟨hhead, hnames⟩ := List.nodup_cons.mp hnames
    exact .cons ⟨0, .rests, rest.runs_of_not_mem hcounts hhead⟩ (ih hcounts hnames)
  | @served t due ts ts' w w' e hdue hle rest ih =>
    -- names differ, so the run of the head and those of the rest do not count for each other
    obtain ⟨ht, hcounts⟩ := List.forall_mem_cons.mp hcounts
    obtain ⟨hhead, hnames⟩ := List.nodup_cons.mp hnames
    refine .cons ⟨1, .served hdue hle, ?_⟩ ?_
    · exact (rest.runs_of_not_mem hcounts hhead).trans (ht.runs_visit_self w)
    · have hbehind := ht.runs_visit_behind w hhead
      refine ((List.forall₂_and_left _ _).mpr ⟨hbehind, ih hcounts hnames⟩).imp ?_
      rintro t₁ t' ⟨hkept, ran, hway, hruns⟩
      exact ⟨ran, hway, by rw [hruns, hkept]⟩
  | @halted t due ts w e hdue hle hbeyond =>
    have ht := hcounts t List.mem_cons_self
    exact .cons ⟨1, .served hdue hle, ht.runs_visit_self w⟩
      (rests_behind (ht.runs_visit_behind w (List.nodup_cons.mp hnames).1))
  | @torn t due ts w hdue hle hcrashed =>
    have ht := hcounts t List.mem_cons_self
    exact .cons ⟨1, .torn rfl, ht.runs_visit_self w⟩
      (rests_behind (ht.runs_visit_behind w (List.nodup_cons.mp hnames).1))

end DueWay
end Scheduler
end RigBench
