import RigBench.Metrics
import RigBench.Proofs.Binary64Arithmetic

/-!
What the statistics of a task say about the times recorded: the totals are those of all of them, the
percentiles those of the last ones, and the mean is one as long as the sum fits 64 bits.
-/
namespace RigBench

open Float.Model

namespace Ring

variable {α : Type}

/-- The items held, oldest first. -/
def toList (r : Ring α) : List α :=
  if r.count < r.capacity then r.held
  else r.slots.toList.drop r.cursor ++ r.slots.toList.take r.cursor

/-- The ring holds the last of these items. -/
structure Holds (r : Ring α) (xs : List α) : Prop where
  count : r.count = min xs.length r.capacity
  toList : r.toList = xs.drop (xs.length - r.capacity)

theorem held_perm (r : Ring α) : r.held.Perm r.toList := by
  unfold toList
  split
  · exact .refl _
  · next hfull =>
    have hall : r.held = r.slots.toList :=
      List.take_of_length_le (by rw [Array.length_toList]; exact Nat.not_lt.mp hfull)
    rw [hall]
    nth_rewrite 1 [← List.take_append_drop r.cursor r.slots.toList]
    exact List.perm_append_comm

theorem capacity_push (r : Ring α) (x : α) : (r.push x).capacity = r.capacity :=
  Array.size_set r.cursor_lt

theorem cursor_push (r : Ring α) (x : α) :
    (r.push x).cursor = if r.cursor + 1 = r.capacity then 0 else r.cursor + 1 := by
  have hlt := r.cursor_lt
  change (r.cursor + 1) % r.capacity = _
  unfold capacity
  split
  · next hlast => rw [hlast, Nat.mod_self]
  · exact Nat.mod_eq_of_lt (by omega)

theorem slots_push (r : Ring α) (x : α) :
    (r.push x).slots.toList =
      r.slots.toList.take r.cursor ++ [x] ++ r.slots.toList.drop (r.cursor + 1) := by
  have hcursor : r.cursor < r.slots.toList.length := r.cursor_lt
  rw [push, Array.toList_set, List.set_eq_take_append_cons_drop, if_pos hcursor,
    List.append_assoc, List.singleton_append]

theorem length_filled (r : Ring α) (x : α) :
    (r.slots.toList.take r.cursor ++ [x]).length = r.cursor + 1 := by
  have hcursor : r.cursor ≤ r.slots.toList.length := r.cursor_lt.le
  rw [List.length_append, List.length_take, Nat.min_eq_left hcursor, List.length_singleton]

theorem toList_push_of_lt {r : Ring α} (h : r.count < r.capacity) (x : α) :
    (r.push x).toList = r.toList ++ [x] := by
  have hcursor : r.cursor = r.count := r.cursor_eq h
  have hcount : (r.push x).count = r.count + 1 := Nat.min_eq_left h
  have hheld : (r.push x).held = r.held ++ [x] := by
    rw [held, hcount, slots_push, List.take_left' (by rw [length_filled, hcursor]), hcursor, held]
  have hold : r.toList = r.held := if_pos h
  rw [hold, toList, capacity_push, hcount]
  split
  · exact hheld
  · next hfull =>
    -- the last slot was filled, so the next one is the first again
    have hlast : r.count + 1 = r.capacity := by omega
    have hnext : (r.push x).cursor = 0 := by rw [cursor_push, hcursor, if_pos hlast]
    have hall : (r.push x).held = (r.push x).slots.toList :=
      List.take_of_length_le (by
        rw [Array.length_toList, hcount, ← capacity, capacity_push]
        exact hlast.ge)
    rw [hnext, List.drop_zero, List.take_zero, List.append_nil, ← hall, hheld]

theorem toList_push_of_le {r : Ring α} (h : r.capacity ≤ r.count) (x : α) :
    (r.push x).toList = r.toList.drop 1 ++ [x] := by
  have hcursor : r.cursor < r.slots.toList.length := r.cursor_lt
  have hcount : (r.push x).count = r.capacity := Nat.min_eq_right (h.trans (Nat.le_succ _))
  have hold : r.toList = r.slots.toList.drop r.cursor ++ r.slots.toList.take r.cursor :=
    if_neg (Nat.not_lt.mpr h)
  have hnew : (r.push x).toList = (r.push x).slots.toList.drop (r.push x).cursor ++
      (r.push x).slots.toList.take (r.push x).cursor :=
    if_neg (by rw [hcount, capacity_push]; exact lt_irrefl _)
  have hrest : r.toList.drop 1 =
      r.slots.toList.drop (r.cursor + 1) ++ r.slots.toList.take r.cursor := by
    rw [hold, List.drop_append_of_le_length (by rw [List.length_drop]; omega), List.drop_drop]
  rw [hnew, hrest, slots_push]
  -- behind the new item the next oldest one is, unless that slot was the last
  rw [cursor_push]
  split
  · next hlast =>
    rw [List.drop_eq_nil_of_le (i := r.cursor + 1) hlast.ge]
    simp
  · rw [List.drop_left' (length_filled r x), List.take_left' (length_filled r x),
      List.append_assoc]

theorem Holds.push {r : Ring α} {xs : List α} (h : r.Holds xs) (x : α) :
    (r.push x).Holds (xs ++ [x]) where
  count := by
    have hcount := h.count
    change min (r.count + 1) r.capacity = _
    rw [capacity_push, List.length_append, List.length_singleton]
    omega
  toList := by
    have hcount := h.count
    have hpos : 0 < r.capacity := Nat.zero_lt_of_lt r.cursor_lt
    rw [capacity_push, List.length_append, List.length_singleton,
      List.drop_append_of_le_length (by omega)]
    by_cases hroom : r.count < r.capacity
    · rw [toList_push_of_lt hroom, h.toList, Nat.sub_eq_zero_of_le (by omega),
        Nat.sub_eq_zero_of_le (by omega)]
    · rw [toList_push_of_le (by omega), h.toList, List.drop_drop, Nat.sub_add_comm (by omega)]

theorem holds_empty (blank : α) (requested : Nat) : (empty blank requested).Holds [] where
  count := (Nat.zero_min _).symm
  toList := by
    have hpos : 0 < (empty blank requested).capacity := Nat.zero_lt_of_lt (cursor_lt _)
    rw [List.drop_nil]
    exact if_pos hpos

end Ring

instance lawfulOrderMaxUInt64 : Std.LawfulOrderMax UInt64 where
  max_le_iff a b c := by
    change (if a ≤ b then b else a) ≤ c ↔ _
    split
    · next h => exact ⟨fun hb => ⟨UInt64.le_trans h hb, hb⟩, And.right⟩
    · next h =>
      have hle : b ≤ a := UInt64.le_of_lt (UInt64.not_le.mp h)
      exact ⟨fun ha => ⟨ha, UInt64.le_trans hle ha⟩, And.left⟩
  max_eq_or a b := by
    change (if a ≤ b then b else a) = a ∨ (if a ≤ b then b else a) = b
    split <;> simp

inductive MetricsAct
  | record (nanos : Nat)
  | missed (ticks : Nat)
  deriving DecidableEq

namespace MetricsAct

def samples (acts : List MetricsAct) : List UInt64 :=
  acts.filterMap fun
    | record nanos => some (sampleOf nanos)
    | missed _ => none

def skipped (acts : List MetricsAct) : Nat :=
  (acts.map fun
    | record _ => 0
    | missed ticks => ticks).sum

/-- The last samples, as many as a ring of this size keeps. -/
def retained (size : Nat) (acts : List MetricsAct) : List UInt64 :=
  (samples acts).drop ((samples acts).length - max 1 size)

variable (acts : List MetricsAct)

@[simp] theorem samples_append_record (nanos : Nat) :
    samples (acts ++ [record nanos]) = samples acts ++ [sampleOf nanos] := by simp [samples]

@[simp] theorem samples_append_missed (ticks : Nat) :
    samples (acts ++ [missed ticks]) = samples acts := by simp [samples]

@[simp] theorem skipped_append_record (nanos : Nat) :
    skipped (acts ++ [record nanos]) = skipped acts := by simp [skipped]

@[simp] theorem skipped_append_missed (ticks : Nat) :
    skipped (acts ++ [missed ticks]) = skipped acts + ticks := by simp [skipped]

end MetricsAct

namespace CycleMetrics

/-- The statistics are those of the samples, and of the ticks skipped. -/
structure Describes (m : CycleMetrics) (samples : List UInt64) (skipped : Nat) : Prop where
  recent : m.recent.Holds samples
  total : m.total = samples.length
  least : m.least = samples.foldl min (.ofNat longestSample)
  greatest : m.greatest = samples.foldl max 0
  sum : m.sum.toNat = (samples.map UInt64.toNat).sum % 2 ^ 64
  overruns : m.overruns = samples.countP (m.period < ·)
  missed : m.missed = skipped

namespace Describes

variable {m : CycleMetrics} {samples : List UInt64} {skipped : Nat}

theorem record (h : m.Describes samples skipped) (nanos : Nat) :
    (m.record nanos).2.Describes (samples ++ [sampleOf nanos]) skipped where
  recent := h.recent.push _
  total := by simp [CycleMetrics.record, h.total]
  least := by simp [CycleMetrics.record, h.least]
  greatest := by simp [CycleMetrics.record, h.greatest]
  sum := by
    simp only [CycleMetrics.record, UInt64.toNat_add, h.sum, List.map_append, List.sum_append,
      List.map_cons, List.map_nil, List.sum_singleton]
    omega
  overruns := by
    rw [List.countP_append, CycleMetrics.record]
    dsimp only
    rw [h.overruns, List.countP_singleton]
    cases decide (m.period < sampleOf nanos) <;> rfl
  missed := h.missed

theorem recordMissed (h : m.Describes samples skipped) (ticks : Nat) :
    (m.recordMissed ticks).Describes samples (skipped + ticks) :=
  { h with missed := congrArg (· + ticks) h.missed }

theorem min?_eq (h : m.Describes samples skipped) : m.min? = samples.min? := by
  rw [CycleMetrics.min?, h.total, h.least]
  cases samples with
  | nil => rfl
  | cons x xs =>
    have hle : x ≤ .ofNat longestSample :=
      UInt64.le_iff_toNat_le.mpr (Nat.le_of_lt_succ x.toNat_lt)
    have hlongest : min (.ofNat longestSample) x = x :=
      UInt64.le_antisymm Std.min_le_right (Std.le_min_iff.mpr ⟨hle, UInt64.le_refl x⟩)
    rw [List.min?_cons', List.foldl_cons, hlongest]
    rfl

theorem max?_eq (h : m.Describes samples skipped) : m.max? = samples.max? := by
  rw [CycleMetrics.max?, h.total, h.greatest]
  cases samples with
  | nil => rfl
  | cons x xs =>
    have hle : 0 ≤ x := UInt64.le_iff_toNat_le.mpr (Nat.zero_le _)
    have hzero : max 0 x = x :=
      UInt64.le_antisymm (Std.max_le_iff.mpr ⟨hle, UInt64.le_refl x⟩) Std.right_le_max
    rw [List.max?_cons', List.foldl_cons, hzero]
    rfl

theorem mean?_eq (h : m.Describes samples skipped) (hpos : samples ≠ []) :
    m.mean? = some ((samples.map UInt64.toNat).sum % 2 ^ 64 / samples.length) := by
  rw [mean?, if_neg, h.total, h.sum]
  rw [h.total]
  exact fun hzero => hpos (List.length_eq_zero_iff.mp hzero)

end Describes
end CycleMetrics

structure MetricsRun where
  metrics : CycleMetrics
  answers : List Bool := []

namespace MetricsRun

def start (size : Nat) (period : Duration) : MetricsRun := { metrics := .new size period }

def step (x : MetricsRun) : MetricsAct → MetricsRun
  | .record nanos =>
    let (overran, metrics) := x.metrics.record nanos
    { metrics, answers := x.answers ++ [overran] }
  | .missed ticks => { x with metrics := x.metrics.recordMissed ticks }

def after (x : MetricsRun) (acts : List MetricsAct) : MetricsRun := acts.foldl step x

theorem after_append_singleton (x : MetricsRun) (acts : List MetricsAct) (a : MetricsAct) :
    x.after (acts ++ [a]) = (x.after acts).step a := by
  rw [after, List.foldl_append]
  rfl

theorem metrics_step (x : MetricsRun) (a : MetricsAct) :
    (x.step a).metrics.recent.capacity = x.metrics.recent.capacity ∧
      (x.step a).metrics.period = x.metrics.period := by
  cases a with
  | record nanos => exact ⟨x.metrics.recent.capacity_push _, rfl⟩
  | missed ticks => exact ⟨rfl, rfl⟩

/-- After a run the statistics are those of what was recorded, and every record has told whether its
time was above the period. -/
structure Recorded (x : MetricsRun) (size : Nat) (period : Duration) (acts : List MetricsAct) :
    Prop where
  describes : x.metrics.Describes (MetricsAct.samples acts) (MetricsAct.skipped acts)
  capacity_eq : x.metrics.recent.capacity = max 1 size
  period_eq : x.metrics.period = sampleOf period.nanos
  answers_eq : x.answers =
    (MetricsAct.samples acts).map fun ns => decide (sampleOf period.nanos < ns)

theorem Recorded.step {x : MetricsRun} {size : Nat} {period : Duration} {acts : List MetricsAct}
    (h : x.Recorded size period acts) (a : MetricsAct) :
    (x.step a).Recorded size period (acts ++ [a]) := by
  obtain ⟨hcapacity, hperiod⟩ := x.metrics_step a
  cases a with
  | record nanos =>
    refine ⟨?_, hcapacity.trans h.capacity_eq, hperiod.trans h.period_eq, ?_⟩
    · rw [MetricsAct.samples_append_record, MetricsAct.skipped_append_record]
      exact h.describes.record nanos
    · simp [MetricsRun.step, CycleMetrics.record, h.answers_eq, h.period_eq]
  | missed ticks =>
    refine ⟨?_, hcapacity.trans h.capacity_eq, hperiod.trans h.period_eq, ?_⟩
    · rw [MetricsAct.samples_append_missed, MetricsAct.skipped_append_missed]
      exact h.describes.recordMissed ticks
    · rw [MetricsAct.samples_append_missed]
      exact h.answers_eq

theorem recorded_after (size : Nat) (period : Duration) (acts : List MetricsAct) :
    ((start size period).after acts).Recorded size period acts := by
  induction acts using List.reverseRecOn with
  | nil =>
    have hdescribes : (CycleMetrics.new size period).Describes [] 0 :=
      ⟨Ring.holds_empty 0 size, rfl, rfl, rfl, rfl, rfl, rfl⟩
    exact ⟨hdescribes, Array.size_replicate, rfl, rfl⟩
  | append_singleton acts a ih =>
    rw [after_append_singleton]
    exact ih.step a

end MetricsRun

namespace CycleMetrics

theorem isPercentage_iff (p : Binary64) :
    isPercentage p = true ↔ p.isFinite = true ∧ 0 ≤ p.value ∧ p.value ≤ 100 := by
  have hzero : Binary64.zero.unpacked = .zero .positive := rfl
  have hhundred : Binary64.hundred.unpacked =
      .finite .positive (25 * 2 ^ 48) (-46) (by decide) := rfl
  have hvalue : Binary64.hundred.value = 100 := by
    rw [Binary64.value, hhundred]
    norm_num [Rounding.value, Rounding.unit, zpow_neg]
  rw [isPercentage, Bool.and_eq_true, decide_eq_true_iff, decide_eq_true_iff,
    Binary64.toFloat_le_iff, Binary64.toFloat_le_iff]
  cases hfinite : p.isFinite with
  | true =>
    have hp := Binary64.isDouble_unpacked hfinite
    rw [Rounding.le_iff (Binary64.isDouble_unpacked (by decide)) hp,
      Rounding.le_iff hp (Binary64.isDouble_unpacked (by decide))]
    change 0 ≤ p.value ∧ p.value ≤ Binary64.hundred.value ↔ _
    simp [hvalue]
  | false =>
    rw [hzero, hhundred]
    rcases Binary64.unpacked_of_not_isFinite hfinite with ⟨s, hu⟩ | hu
    · cases s <;> simp [hu, UnpackedFloat.le, UnpackedFloat.compare]
    · simp [hu, UnpackedFloat.le, UnpackedFloat.compare]

variable {m m' : CycleMetrics} {p : Binary64} {v : UInt64}

theorem percentileIndex_lt (p : Binary64) {count : Nat} (hpos : 0 < count) :
    percentileIndex p count < count :=
  (Nat.min_le_right _ _).trans_lt (Nat.sub_lt hpos Nat.one_pos)

theorem percentile?_eq_none_iff :
    m.percentile? p = none ↔ m.recent.held = [] ∨ isPercentage p ≠ true := by
  unfold percentile?
  split
  · next hp =>
    dsimp only
    rw [List.length_mergeSort, List.getElem?_eq_none_iff, List.length_mergeSort]
    constructor
    · intro hle
      by_contra hne
      have hpos := List.length_pos_iff.mpr (not_or.mp hne).1
      have := percentileIndex_lt p hpos
      omega
    · rintro (hnil | hnot)
      · simp [hnil]
      · exact absurd hp hnot
  · next hp => simp [hp]

theorem mem_of_percentile? (h : m.percentile? p = some v) : v ∈ m.recent.held := by
  unfold percentile? at h
  split at h
  · exact List.mem_mergeSort.mp (List.mem_of_getElem? h)
  · cases h

theorem percentile?_congr (h : m.recent.held.Perm m'.recent.held) (p : Binary64) :
    m.percentile? p = m'.percentile? p := by
  have hsorted : m.recent.held.mergeSort (fun a b => a ≤ b) =
      m'.recent.held.mergeSort (fun a b => a ≤ b) := by
    have hpairwise : ∀ l : List UInt64,
        (l.mergeSort fun a b => a ≤ b).Pairwise (fun a b => decide (a ≤ b) = true) :=
      List.pairwise_mergeSort
        (fun a b c => by simpa using UInt64.le_trans)
        (fun a b => by simpa using UInt64.le_total a b)
    refine List.Perm.eq_of_pairwise (fun a b _ _ hab hba => ?_) (hpairwise _) (hpairwise _) ?_
    · exact UInt64.le_antisymm (of_decide_eq_true hab) (of_decide_eq_true hba)
    · exact ((List.mergeSort_perm _ _).trans h).trans (List.mergeSort_perm _ _).symm
  unfold percentile?
  rw [hsorted]

end CycleMetrics

namespace MetricsRun

variable {x : MetricsRun} {size : Nat} {period : Duration} {acts : List MetricsAct}

theorem Recorded.held_perm (h : x.Recorded size period acts) :
    x.metrics.recent.held.Perm (MetricsAct.retained size acts) := by
  have hring := x.metrics.recent.held_perm
  rw [h.describes.recent.toList, h.capacity_eq] at hring
  exact hring

theorem Recorded.percentile?_eq_none_iff (h : x.Recorded size period acts) (p : Binary64) :
    x.metrics.percentile? p = none ↔
      MetricsAct.samples acts = [] ∨ ¬(p.isFinite = true ∧ 0 ≤ p.value ∧ p.value ≤ 100) := by
  have hempty : x.metrics.recent.held = [] ↔ MetricsAct.samples acts = [] := by
    rw [← List.length_eq_zero_iff, h.held_perm.length_eq, MetricsAct.retained, List.length_drop,
      ← List.length_eq_zero_iff]
    omega
  rw [CycleMetrics.percentile?_eq_none_iff, hempty, ← CycleMetrics.isPercentage_iff]

theorem Recorded.percentile?_between (h : x.Recorded size period acts) {p : Binary64} {v : UInt64}
    (hv : x.metrics.percentile? p = some v) :
    v ∈ MetricsAct.retained size acts ∧
      ∃ least greatest, (MetricsAct.retained size acts).min? = some least ∧
        (MetricsAct.retained size acts).max? = some greatest ∧ least ≤ v ∧ v ≤ greatest := by
  have hmem := h.held_perm.mem_iff.mp (CycleMetrics.mem_of_percentile? hv)
  obtain ⟨least, hleast⟩ := Option.isSome_iff_exists.mp (List.isSome_min?_of_mem hmem)
  obtain ⟨greatest, hgreatest⟩ := Option.isSome_iff_exists.mp (List.isSome_max?_of_mem hmem)
  exact ⟨hmem, least, greatest, hleast, hgreatest, (List.min?_eq_some_iff.mp hleast).2 v hmem,
    (List.max?_eq_some_iff.mp hgreatest).2 v hmem⟩

end MetricsRun

/-- What statistics say, for every size of the ring, every period and everything recorded. The ring
keeps the last samples, as many as fit. A percentile is one of them, whatever their order; there is
none exactly if nothing was recorded or the percentage is not one. The totals are those of all that
was recorded, and a snapshot shows the same in whole microseconds. -/
theorem metrics_describe_records (size : Nat) (period : Duration) (acts : List MetricsAct) :
    let x := (MetricsRun.start size period).after acts
    let m := x.metrics
    let samples := MetricsAct.samples acts
    let retained := MetricsAct.retained size acts
    (retained <:+ samples ∧ retained.length = min samples.length (max 1 size) ∧
      m.recent.held.Perm retained) ∧
    (∀ p, m.percentile? p = none ↔
      samples = [] ∨ ¬(p.isFinite = true ∧ 0 ≤ p.value ∧ p.value ≤ 100)) ∧
    (∀ p v, m.percentile? p = some v → v ∈ retained ∧
      ∃ least greatest, retained.min? = some least ∧ retained.max? = some greatest ∧
        least ≤ v ∧ v ≤ greatest) ∧
    (∀ size' period' acts', (MetricsAct.retained size' acts').Perm retained →
      ∀ p, ((MetricsRun.start size' period').after acts').metrics.percentile? p =
        m.percentile? p) ∧
    m.min? = samples.min? ∧ m.max? = samples.max? ∧ m.total = samples.length ∧
    m.overruns = samples.countP (sampleOf period.nanos < ·) ∧ m.overruns = x.answers.count true ∧
    m.missed = MetricsAct.skipped acts ∧
    m.snapshot =
      { total := samples.length
        leastMicros := samples.min?.map (·.toNat / 1000)
        greatestMicros := samples.max?.map (·.toNat / 1000)
        meanMicros := m.mean?.map (· / 1000)
        p99Micros := (m.percentile? CycleMetrics.ninetyNine).map (·.toNat / 1000)
        overruns := samples.countP (sampleOf period.nanos < ·)
        missed := MetricsAct.skipped acts } := by
  intro x m samples retained
  have hx := MetricsRun.recorded_after size period acts
  have hdescribes := hx.describes
  have hoverruns : m.overruns = samples.countP (sampleOf period.nanos < ·) := by
    rw [hdescribes.overruns, hx.period_eq]
  have hanswers : m.overruns = x.answers.count true := by
    rw [hoverruns, hx.answers_eq, List.count, List.countP_map]
    congr 1
    funext ns
    simp
  refine ⟨⟨List.drop_suffix _ _, ?_, hx.held_perm⟩, hx.percentile?_eq_none_iff,
    fun p v hv => hx.percentile?_between hv, fun size' period' acts' hperm => ?_,
    hdescribes.min?_eq, hdescribes.max?_eq, hdescribes.total, hoverruns, hanswers,
    hdescribes.missed, ?_⟩
  · change (samples.drop (samples.length - max 1 size)).length = _
    rw [List.length_drop]
    omega
  · have hx' := MetricsRun.recorded_after size' period' acts'
    exact CycleMetrics.percentile?_congr (hx'.held_perm.trans (hperm.trans hx.held_perm.symm))
  · rw [CycleMetrics.snapshot, hdescribes.total, hdescribes.min?_eq, hdescribes.max?_eq, hoverruns,
      hdescribes.missed]

/-- A ring of two has lost the first of three samples; the other two in another order have the same
least percentile, which is one of them. -/
theorem metrics_describe_records_wrapped :
    let acts : List MetricsAct := [.record 3000, .missed 2, .record 8000, .record 5000]
    let acts' : List MetricsAct := [.record 5000, .record 8000]
    let m := ((MetricsRun.start 2 (.ofMillis 1)).after acts).metrics
    let m' := ((MetricsRun.start 4 (.ofMillis 7)).after acts').metrics
    (MetricsAct.retained 4 acts').Perm (MetricsAct.retained 2 acts) ∧
      ∃ v ∈ ([8000, 5000] : List UInt64), m.percentile? .zero = some v ∧
        m'.percentile? .zero = some v := by
  intro acts acts' m m'
  obtain ⟨-, hnone, hsome, hsame, -⟩ := metrics_describe_records 2 (.ofMillis 1) acts
  have hperm : (MetricsAct.retained 4 acts').Perm (MetricsAct.retained 2 acts) := by decide
  have hpercentage : Binary64.zero.isFinite = true ∧ 0 ≤ Binary64.zero.value ∧
      Binary64.zero.value ≤ 100 := by
    rw [show Binary64.zero.value = 0 from rfl]
    exact ⟨by decide, le_rfl, by norm_num⟩
  obtain ⟨v, hv⟩ := Option.ne_none_iff_exists'.mp fun h =>
    ((hnone .zero).mp h).elim (by decide) fun hnot => hnot hpercentage
  exact ⟨hperm, v, (hsome .zero v hv).1, hv, (hsame 4 (.ofMillis 7) acts' hperm .zero).trans hv⟩

/-- Dividing the last bits of a sum gives the mean only if they are all its bits. -/
theorem mod_div_eq_div_iff {sum n modulus : Nat} (hpos : 0 < n) (hn : n ≤ modulus) :
    sum % modulus / n = sum / n ↔ sum < modulus := by
  constructor
  · intro heq
    by_contra hge
    have hwrapped : sum % modulus + n ≤ sum := by
      have := Nat.mod_le (sum - modulus) modulus
      rw [Nat.mod_eq_sub_mod (Nat.not_lt.mp hge)]
      omega
    have hless := Nat.div_le_div_right (c := n) hwrapped
    rw [Nat.add_div_right _ hpos] at hless
    omega
  · intro hlt
    rw [Nat.mod_eq_of_lt hlt]

theorem CycleMetrics.Describes.mean_le {m : CycleMetrics} {samples : List UInt64} {skipped : Nat}
    (h : m.Describes samples skipped) (hpos : 0 < samples.length) :
    ∃ least mean greatest, m.min? = some least ∧ m.mean? = some mean ∧ m.max? = some greatest ∧
      mean ≤ greatest.toNat ∧ ((samples.map UInt64.toNat).sum < 2 ^ 64 → least.toNat ≤ mean) := by
  have hne : samples ≠ [] := List.length_pos_iff.mp hpos
  obtain ⟨least, hleast⟩ := Option.isSome_iff_exists.mp (List.isSome_min?_of_ne_nil hne)
  obtain ⟨greatest, hgreatest⟩ := Option.isSome_iff_exists.mp (List.isSome_max?_of_ne_nil hne)
  refine ⟨least, _, greatest, h.min?_eq.trans hleast, h.mean?_eq hne, h.max?_eq.trans hgreatest,
    ?_, fun hfits => ?_⟩
  · have hall := (List.max?_eq_some_iff.mp hgreatest).2
    have hsum := List.sum_le_card_nsmul (samples.map UInt64.toNat) greatest.toNat (by
      simpa [UInt64.le_iff_toNat_le] using hall)
    rw [List.length_map, nsmul_eq_mul, Nat.cast_id] at hsum
    exact Nat.div_le_of_le_mul ((Nat.mod_le _ _).trans hsum)
  · have hall := (List.min?_eq_some_iff.mp hleast).2
    have hsum := List.card_nsmul_le_sum (samples.map UInt64.toNat) least.toNat (by
      simpa [UInt64.le_iff_toNat_le] using hall)
    rw [List.length_map, nsmul_eq_mul, Nat.cast_id] at hsum
    rw [Nat.mod_eq_of_lt hfits, Nat.le_div_iff_mul_le hpos, Nat.mul_comm]
    exact hsum

/-- The mean is the sum divided by the number, rounded down, exactly as long as the sum fits 64
bits; beyond that it is the sum's last 64 bits that are divided. It is never above the greatest
sample, and not below the least one as long as it is the mean, in snapshots too. -/
theorem mean_eq_iff (size : Nat) (period : Duration) (acts : List MetricsAct)
    (hrecorded : MetricsAct.samples acts ≠ [])
    (hcount : (MetricsAct.samples acts).length < 2 ^ 64) :
    let m := ((MetricsRun.start size period).after acts).metrics
    let n := (MetricsAct.samples acts).length
    let sum := ((MetricsAct.samples acts).map UInt64.toNat).sum
    m.mean? = some (sum % 2 ^ 64 / n) ∧
    (m.mean? = some (sum / n) ↔ sum < 2 ^ 64) ∧
    ∃ least mean greatest, m.min? = some least ∧ m.mean? = some mean ∧ m.max? = some greatest ∧
      mean ≤ greatest.toNat ∧ (sum < 2 ^ 64 → least.toNat ≤ mean) ∧
      ∃ leastMicros meanMicros greatestMicros, m.snapshot.leastMicros = some leastMicros ∧
        m.snapshot.meanMicros = some meanMicros ∧ m.snapshot.greatestMicros = some greatestMicros ∧
        meanMicros ≤ greatestMicros ∧ (sum < 2 ^ 64 → leastMicros ≤ meanMicros) := by
  intro m n sum
  have hdescribes := (MetricsRun.recorded_after size period acts).describes
  have hmean : m.mean? = some (sum % 2 ^ 64 / n) := hdescribes.mean?_eq hrecorded
  have hpos : 0 < n := List.length_pos_iff.mpr hrecorded
  refine ⟨hmean, ?_, ?_⟩
  · rw [hmean, Option.some.injEq]
    exact mod_div_eq_div_iff hpos hcount.le
  · obtain ⟨least, mean, greatest, hleast, hmean, hgreatest, habove, hbelow⟩ :=
      hdescribes.mean_le hpos
    refine ⟨least, mean, greatest, hleast, hmean, hgreatest, habove, hbelow, _, _, _,
      congrArg (Option.map _) hleast, congrArg (Option.map _) hmean,
      congrArg (Option.map _) hgreatest, Nat.div_le_div_right habove,
      fun hfits => Nat.div_le_div_right (hbelow hfits)⟩

/-- The mean of two short times. -/
theorem mean_eq_iff_short :
    let acts : List MetricsAct := [.record 3000, .missed 2, .record 8001]
    let m := ((MetricsRun.start 1 (.ofMillis 1)).after acts).metrics
    MetricsAct.samples acts ≠ [] ∧ (MetricsAct.samples acts).length < 2 ^ 64 ∧
      m.mean? = some 5500 := by
  intro acts m
  have hmean := (mean_eq_iff 1 (.ofMillis 1) acts (by decide) (by decide)).2.1
  exact ⟨by decide, by decide, (hmean.mpr (by decide)).trans (by decide)⟩

/-- The mean of two of the longest samples is below the least of them. -/
theorem mean_below_least :
    let acts : List MetricsAct := [.record longestSample, .record longestSample]
    let m := ((MetricsRun.start 4 (.ofMillis 1000)).after acts).metrics
    m.mean? = some 9223372036854775807 ∧ m.min? = some (.ofNat longestSample) ∧
      m.snapshot.meanMicros = some 9223372036854775 ∧
      m.snapshot.leastMicros = some 18446744073709551 := by
  decide +kernel

end RigBench
