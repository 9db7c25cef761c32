import RigBench.Lifecycle

/-!
The steps of a life cycle. In every state there is one step to make: the number of steps made says
where the life cycle stands and where it came from, and what is refused in between leaves no trace.
-/
namespace RigBench

/-- The state after so many steps: idle and running in turn, once the first is made. -/
def ExperimentState.after (steps : Nat) : ExperimentState :=
  if steps = 0 then .uninitialized else if steps % 2 = 1 then .idle else .running

theorem ExperimentState.canBecome_after (steps : Nat) (target : ExperimentState) :
    (after steps).canBecome target = true ↔ target = after (steps + 1) := by
  unfold after
  rcases Nat.eq_zero_or_pos steps with rfl | hpos
  · cases target <;> decide
  · rcases Nat.mod_two_eq_zero_or_one steps with heven | hodd
    · rw [if_neg (Nat.ne_of_gt hpos), if_neg (by omega), if_neg (by omega), if_pos (by omega)]
      cases target <;> decide
    · rw [if_neg (Nat.ne_of_gt hpos), if_pos hodd, if_neg (by omega), if_neg (by omega)]
      cases target <;> decide

theorem ExperimentState.after_ne_uninitialized {steps : Nat} (hpos : 0 < steps) :
    after steps ≠ .uninitialized := by
  unfold after
  rw [if_neg (Nat.ne_of_gt hpos)]
  split <;> decide

namespace Lifecycle

def along (steps : Nat) : Lifecycle :=
  ⟨.after steps, if steps = 0 then none else some (.after (steps - 1)), steps⟩

theorem previous_along {steps : Nat} (hsteps : 1 < steps) :
    ((along steps).state = .idle ∧ (along steps).previous = some .running) ∨
      ((along steps).state = .running ∧ (along steps).previous = some .idle) := by
  unfold along ExperimentState.after
  rcases Nat.mod_two_eq_zero_or_one steps with heven | hodd
  · right
    simp only [show steps ≠ 0 by omega, show steps - 1 ≠ 0 by omega,
      show (steps - 1) % 2 = 1 by omega, heven, if_true, if_false, Nat.zero_ne_one, and_self]
  · left
    simp only [show steps ≠ 0 by omega, show steps - 1 ≠ 0 by omega,
      show (steps - 1) % 2 = 0 by omega, hodd, if_true, if_false, Nat.zero_ne_one, and_self]

theorem transition_along (steps : Nat) (target : ExperimentState) :
    (along steps).transition target =
      if target = .after (steps + 1) then .ok (along (steps + 1))
      else .error (.transition (along steps).state.name target.name) := by
  unfold transition
  split
  · next hstep =>
    obtain rfl := (ExperimentState.canBecome_after steps target).mp hstep
    rw [if_pos rfl]
    rfl
  · next hnone => rw [if_neg (mt (ExperimentState.canBecome_after steps target).mpr hnone)]

end Lifecycle

structure Attempts where
  cycle : Lifecycle := {}
  answers : List (Except BenchError Unit) := []

namespace Attempts

def attempt (x : Attempts) (target : ExperimentState) : Attempts :=
  match x.cycle.transition target with
  | .ok cycle => { cycle, answers := x.answers ++ [.ok ()] }
  | .error e => { x with answers := x.answers ++ [.error e] }

def after (x : Attempts) (targets : List ExperimentState) : Attempts := targets.foldl attempt x

def accepted (x : Attempts) : Nat := x.answers.countP (·.isOk)

theorem accepted_of_ok (x : Attempts) (cycle : Lifecycle) :
    accepted { cycle, answers := x.answers ++ [.ok ()] } = x.accepted + 1 :=
  List.countP_append

theorem accepted_of_error (x : Attempts) (e : BenchError) :
    accepted { x with answers := x.answers ++ [.error e] } = x.accepted :=
  List.countP_append

/-- All that is left of the attempts is how many of them were accepted. -/
def Counts (x : Attempts) : Prop := x.cycle = .along x.accepted

theorem counts_empty : Counts {} := rfl

theorem Counts.transition {x : Attempts} (hx : x.Counts) (target : ExperimentState) :
    x.cycle.transition target =
      if target = .after (x.accepted + 1) then .ok (.along (x.accepted + 1))
      else .error (.transition x.cycle.state.name target.name) := by
  rw [hx]
  exact Lifecycle.transition_along x.accepted target

theorem cycle_attempt_of_error {x : Attempts} {target : ExperimentState} {e : BenchError}
    (hrefused : x.cycle.transition target = .error e) :
    (x.attempt target).cycle = x.cycle ∧ (x.attempt target).accepted = x.accepted := by
  unfold attempt
  rw [hrefused]
  exact ⟨rfl, x.accepted_of_error e⟩

theorem Counts.attempt {x : Attempts} (hx : x.Counts) (target : ExperimentState) :
    (x.attempt target).Counts := by
  have hstep := hx.transition target
  by_cases hnext : target = .after (x.accepted + 1)
  · rw [if_pos hnext] at hstep
    unfold Attempts.attempt
    rw [hstep]
    exact congrArg Lifecycle.along (x.accepted_of_ok _).symm
  · rw [if_neg hnext] at hstep
    obtain ⟨hcycle, haccepted⟩ := cycle_attempt_of_error hstep
    rw [Counts, hcycle, haccepted]
    exact hx

theorem Counts.after {x : Attempts} (hx : x.Counts) (targets : List ExperimentState) :
    (x.after targets).Counts := by
  induction targets generalizing x with
  | nil => exact hx
  | cons target targets ih => exact ih (hx.attempt target)

theorem accepted_le_attempt (x : Attempts) (target : ExperimentState) :
    x.accepted ≤ (x.attempt target).accepted := by
  unfold attempt
  split
  · next cycle _ => exact (x.accepted_of_ok cycle) ▸ Nat.le_succ _
  · next e _ => exact Nat.le_of_eq (x.accepted_of_error e).symm

theorem accepted_le_after (x : Attempts) (targets : List ExperimentState) :
    x.accepted ≤ (x.after targets).accepted := by
  induction targets generalizing x with
  | nil => exact Nat.le_refl _
  | cons target targets ih =>
    exact Nat.le_trans (x.accepted_le_attempt target) (ih (x.attempt target))

end Attempts

/-- The history of a life cycle, for every sequence of attempts to make a step, by `n` the number of
those that were accepted. So many steps were made. The state is uninitialized if `n` is zero, idle
if it is odd and running else; the state before it is none if `n` is zero, the uninitialized one if
`n` is one, and else the other one of idle and running. The only attempt to be accepted next is the
one at the state after `n + 1` steps; every other is refused with an error that names the current
state and the one attempted, and changes nothing. Once a step was made, the uninitialized state is
not entered again, whatever is attempted. -/
theorem lifecycle_history (targets : List ExperimentState) :
    let x := ({} : Attempts).after targets
    let c := x.cycle
    let n := x.accepted
    c.transitions = n ∧
    c.state = (if n = 0 then .uninitialized else if n % 2 = 1 then .idle else .running) ∧
    (n = 0 → c.previous = none) ∧
    (n = 1 → c.previous = some .uninitialized) ∧
    (1 < n → (c.state = .idle ∧ c.previous = some .running) ∨
      (c.state = .running ∧ c.previous = some .idle)) ∧
    (∀ target, (∃ c', c.transition target = .ok c') ↔ target = .after (n + 1)) ∧
    (∀ target e, c.transition target = .error e →
      e = .transition c.state.name target.name ∧ (x.attempt target).cycle = c) ∧
    (0 < n → ∀ more, (x.after more).cycle.state ≠ .uninitialized) := by
  intro x c n
  have hx : x.Counts := Attempts.counts_empty.after targets
  have hc : c = .along n := hx
  have hstep := hx.transition
  refine ⟨by rw [hc]; rfl, by rw [hc]; rfl, fun hnone => by rw [hc, hnone]; rfl,
    fun hone => by rw [hc, hone]; rfl, fun hmore => ?_, fun target => ?_,
    fun target e hrefused => ?_, fun hpos more => ?_⟩
  · rw [hc]
    exact Lifecycle.previous_along hmore
  · rw [show c.transition target = _ from hstep target]
    split
    · next hnext => exact ⟨fun _ => hnext, fun _ => ⟨_, rfl⟩⟩
    · next hother => exact ⟨nofun, fun hnext => absurd hnext hother⟩
  · have hanswer := (hstep target).symm.trans hrefused
    refine ⟨?_, (Attempts.cycle_attempt_of_error hrefused).1⟩
    split at hanswer
    · cases hanswer
    · exact (Except.error.inj hanswer).symm
  · have hlater : (x.after more).cycle = .along (x.after more).accepted := hx.after more
    rw [hlater]
    have hmore := Nat.lt_of_lt_of_le hpos (x.accepted_le_after more)
    exact ExperimentState.after_ne_uninitialized hmore

end RigBench
