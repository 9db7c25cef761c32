import Mathlib.Data.List.Nodup
import Mathlib.Logic.Relation
import RigBench.Proofs.HomingRig
import RigBench.Proofs.TaskLog
import RigBench.World

/-!
The rig when control ends. A tick that ends the experiment leaves the rig at zero, and there it
stays until a tick finds that a start was accepted since; and a scheduler that returns, for whatever
reason, leaves it at zero and let go.
-/
namespace RigBench

namespace Lifecycle

/-- The second life cycle comes of the first by steps. -/
def Leads : Lifecycle → Lifecycle → Prop :=
  Relation.ReflTransGen fun c d => ∃ target, c.transition target = .ok d

/-- How often an experiment was started: from `init` on, every second step is a start. -/
def starts (c : Lifecycle) : Nat := c.transitions / 2

def Regular (c : Lifecycle) : Prop := c.transitions % 2 = 1 ↔ c.state = .idle

theorem transition_cases {c d : Lifecycle} {target : ExperimentState}
    (h : c.transition target = .ok d) :
    d = ⟨target, some c.state, c.transitions + 1⟩ ∧ (target = .idle ↔ c.state ≠ .idle) := by
  unfold transition at h
  split at h
  · next hbecome =>
    cases h
    refine ⟨rfl, ?_⟩
    generalize c.state = state at hbecome
    revert hbecome
    cases state <;> cases target <;> decide
  · cases h

theorem Leads.transitions_le {c d : Lifecycle} (h : c.Leads d) : c.transitions ≤ d.transitions := by
  induction h with
  | refl => exact Nat.le_refl _
  | tail _ hstep ih =>
    obtain ⟨target, hstep⟩ := hstep
    obtain ⟨rfl, -⟩ := transition_cases hstep
    exact Nat.le_succ_of_le ih

theorem Leads.regular {c d : Lifecycle} (h : c.Leads d) (hc : c.Regular) : d.Regular := by
  induction h with
  | refl => exact hc
  | tail _ hstep ih =>
    obtain ⟨target, hstep⟩ := hstep
    obtain ⟨rfl, htarget⟩ := transition_cases hstep
    unfold Regular at ih ⊢
    dsimp only
    rw [htarget, Ne, ← ih]
    omega

theorem Regular.even {c : Lifecycle} (hc : c.Regular) (h : c.state = .running) :
    c.transitions % 2 = 0 := by
  have hidle := mt hc.mp (by rw [h]; decide)
  omega

end Lifecycle

namespace Transport

theorem leads_receive (t : Transport) (f : Frame) : t.lifecycle.Leads (t.receive f).lifecycle := by
  have hr := t.reception_receive f
  generalize t.receive f = t' at hr ⊢
  generalize t.eventOf f = e at hr
  cases hr with
  | start hf hs => exact .single ⟨_, t.lifecycle.transition_running hs⟩
  | stop hf hs => exact .single ⟨_, t.lifecycle.transition_idle hs⟩
  | keepalive hf => exact .refl
  | trajectory hf hr => exact .refl
  | rejected hf hn => exact .refl
  | ignored hf => exact .refl

theorem leads_handleFrames (t : Transport) : t.lifecycle.Leads t.handleFrames.2.lifecycle := by
  have hfold : ∀ (fs : List Frame) (t : Transport),
      t.lifecycle.Leads (fs.foldl receive t).lifecycle := by
    intro fs
    induction fs with
    | nil => exact fun t => .refl
    | cons f fs ih => exact fun t => (t.leads_receive f).trans (ih (t.receive f))
  exact hfold t.input.frames { t with input := t.input.clear }

theorem leads_run (t : Transport) : t.lifecycle.Leads t.run.2.lifecycle := by
  unfold run
  split
  · exact .refl
  · exact t.leads_handleFrames

theorem lifecycle_reset {t : Transport} (hrun : t.isRunning = true) :
    t.reset.lifecycle = ⟨.idle, some t.state, t.lifecycle.transitions + 1⟩ := by
  have hstate : t.lifecycle.state = .running := beq_iff_eq.mp hrun
  unfold reset
  simp only [hrun, t.lifecycle.transition_idle (by rw [hstate]; decide)]
  rfl

theorem starts_reset {t : Transport} (ht : t.lifecycle.Regular) :
    t.reset.lifecycle.starts = t.lifecycle.starts := by
  by_cases hrun : t.isRunning = true
  · have heven := ht.even (beq_iff_eq.mp hrun)
    rw [lifecycle_reset hrun]
    exact show (t.lifecycle.transitions + 1) / 2 = t.lifecycle.transitions / 2 by omega
  · rw [show t.reset.lifecycle = t.lifecycle from if_neg hrun]

theorem leads_reset (t : Transport) : t.lifecycle.Leads t.reset.lifecycle := by
  by_cases hrun : t.isRunning = true
  · rw [lifecycle_reset hrun]
    have hstate : t.lifecycle.state = .running := beq_iff_eq.mp hrun
    exact .single ⟨_, t.lifecycle.transition_idle (by rw [hstate]; decide)⟩
  · rw [show t.reset.lifecycle = t.lifecycle from if_neg hrun]
    exact .refl

end Transport

namespace ControlLoop

variable {ρ : Type}

theorem leads_intake (c : ControlLoop ρ) (t : Transport) :
    t.lifecycle.Leads (c.intake t).lifecycle := by
  unfold intake
  split
  · exact t.leads_handleFrames
  · exact .refl

variable [Rig ρ]

theorem leads_tick (c : ControlLoop ρ) (link : LinkState) (t : Transport) :
    t.lifecycle.Leads (c.tick link t).2.2.lifecycle := by
  refine (c.leads_intake t).trans ?_
  have hway := c.tickWay_tick link t []
  generalize c.tick link t = call at hway ⊢
  obtain ⟨outcome, loop, t'⟩ := call
  generalize c.noteTick link t [] = h at hway
  cases hway with
  | linkLost hlost => exact (c.intake t).leads_reset
  | idle hidle => exact .refl
  | failed hlink hrun hsample => exact .refl
  | sampled hs hwindow => exact .refl
  | expired hs hwindow => exact (c.intake t).leads_reset

theorem exists_sample {home : ρ} {P : ρ → Prop} (hP : Rig.Homing home P) {c : ControlLoop ρ}
    (hrig : P c.rig) (t : Transport) :
    ∃ value rig, P rig ∧ c.sample t =
      (.ok (), { c with rig }, (t.measured c.settings.step value).sendData) := by
  obtain ⟨value, rig, hto, hrig'⟩ :=
    hP.drive hrig (c.advance t).trajectory.output c.settings.step
  exact ⟨value, rig, hrig', sample_of_drivenTo hto⟩

/-- What a tick does to a rig that comes home: it brings the rig there when it ends an experiment,
leaves it where it is while none is running, and else drives it. -/
theorem tick_homing {home : ρ} {P : ρ → Prop} (hP : Rig.Homing home P) {c : ControlLoop ρ}
    (hrig : P c.rig) (link : LinkState) (t : Transport) :
    let call := c.tick link t
    let t := c.intake t
    ((call.1 = .ok .linkLost ∨ call.1 = .ok .keepaliveExpired) ∧ t.isRunning = true ∧
        call.2.1.rig = home ∧ call.2.2.lifecycle = t.reset.lifecycle) ∨
      (call.1 = .ok .idle ∧ t.isRunning = false ∧ call.2.1.rig = c.rig ∧
        call.2.2.lifecycle = t.lifecycle) ∨
      (call.1 = .ok .sampled ∧ t.isRunning = true ∧ P call.2.1.rig ∧
        call.2.2.lifecycle = t.lifecycle) := by
  have hway := c.tickWay_tick link t []
  generalize c.tick link t = call at hway ⊢
  obtain ⟨outcome, loop, t'⟩ := call
  generalize c.noteTick link t [] = h at hway
  obtain ⟨value', rig', hrig', hsample'⟩ := exists_sample hP hrig (c.intake t)
  have hdriven : ∀ {value : Binary64} {rig : ρ},
      c.Samples link (c.intake t) value rig → P rig := by
    intro value rig hs
    have heq : rig = rig' := congrArg (fun call => call.2.1.rig) (hs.sample.symm.trans hsample')
    exact heq ▸ hrig'
  cases hway with
  | linkLost hlost =>
    have hrun : (c.intake t).isRunning = true := by
      unfold lostLink at hlost
      simp only [Bool.and_eq_true] at hlost
      exact hlost.1.1.2
    rw [hP.safeState _ hrig]
    exact .inl ⟨.inl rfl, hrun, rfl, rfl⟩
  | idle hidle => exact .inr (.inl ⟨rfl, hidle, rfl, rfl⟩)
  | failed hlink hrun hsample =>
    rw [hsample'] at hsample
    cases hsample
  | sampled hs hwindow => exact .inr (.inr ⟨rfl, hs.running, hdriven hs, rfl⟩)
  | expired hs hwindow =>
    rw [hP.safeState _ (hdriven hs)]
    exact .inl ⟨.inr rfl, hs.running, rfl, rfl⟩

/-- A count of starts that a tick keeps if it finds no more of them, and takes anew if it ends an
experiment. -/
def restAfter (c : ControlLoop ρ) (link : LinkState) (t : Transport) (rest : Option Nat) :
    Option Nat :=
  if (c.tick link t).1 = .ok .linkLost ∨ (c.tick link t).1 = .ok .keepaliveExpired then
    some (c.tick link t).2.2.lifecycle.starts
  else rest.filter (· = (c.intake t).lifecycle.starts)

theorem tick_rests {home : ρ} {P : ρ → Prop} (hP : Rig.Homing home P) {c : ControlLoop ρ}
    (hrig : P c.rig) (link : LinkState) {t : Transport} (ht : t.lifecycle.Regular)
    {rest : Option Nat}
    (hrest : ∀ k, rest = some k → c.rig = home ∧ 2 * k + 1 ≤ t.lifecycle.transitions) :
    P (c.tick link t).2.1.rig ∧ ∀ k, c.restAfter link t rest = some k →
      (c.tick link t).2.1.rig = home ∧
        2 * k + 1 ≤ (c.tick link t).2.2.lifecycle.transitions := by
  have hway := c.tick_homing hP hrig link t
  have hregular := (c.leads_intake t).regular ht
  have hle := (c.leads_intake t).transitions_le
  unfold restAfter
  generalize c.tick link t = call at hway ⊢
  generalize c.intake t = t' at hway hregular hle ⊢
  dsimp only at hway
  rcases hway with ⟨hends, hrun, hhome, hlife⟩ | ⟨hidle, hrun, hsame, hlife⟩ |
    ⟨hsampled, hrun, hdriven, hlife⟩
  · -- The reset is the step that makes the number odd again.
    refine ⟨hhome ▸ hP.begins, fun k hk => ⟨hhome, ?_⟩⟩
    rw [if_pos hends, hlife, Transport.starts_reset hregular] at hk
    have hk : t'.lifecycle.transitions / 2 = k := Option.some.inj hk
    have heven := hregular.even (beq_iff_eq.mp hrun)
    rw [hlife, Transport.lifecycle_reset hrun]
    change 2 * k + 1 ≤ t'.lifecycle.transitions + 1
    omega
  · refine ⟨hsame ▸ hrig, fun k hk => ?_⟩
    rw [if_neg (by rw [hidle]; decide)] at hk
    obtain ⟨hhome, hk⟩ := hrest k (Option.filter_eq_some_iff.mp hk).1
    rw [hsame, hlife]
    exact ⟨hhome, Nat.le_trans hk hle⟩
  · -- The number of steps is even and more than `2 * k`, so there was another start.
    refine ⟨hdriven, fun k hk => ?_⟩
    rw [if_neg (by rw [hsampled]; decide)] at hk
    obtain ⟨hk, hstarts⟩ := Option.filter_eq_some_iff.mp hk
    have hstarts : k = t'.lifecycle.transitions / 2 := of_decide_eq_true hstarts
    have hk := (hrest k hk).2
    have heven := hregular.even (beq_iff_eq.mp hrun)
    omega

end ControlLoop

namespace World

variable {ρ : Type}

/-- Nothing was done to the nth control loop, and the life cycle has made steps. -/
structure Unharmed (n : Nat) (w w' : World ρ) : Prop where
  loop : w'.loops[n]? = w.loops[n]?
  lifecycle : w.bench.transport.lifecycle.Leads w'.bench.transport.lifecycle

theorem Unharmed.refl (n : Nat) (w : World ρ) : Unharmed n w w := ⟨rfl, .refl⟩

theorem unharmed_pass (n : Nat) (w : World ρ) (i : Interval) : Unharmed n w (w.pass i) := by
  have hacts : ∀ (acts : List ClientAct) (b : Bench),
      (acts.foldl Bench.undergo b).transport.lifecycle = b.transport.lifecycle := by
    intro acts
    induction acts with
    | nil => exact fun b => rfl
    | cons a acts ih => exact fun b => (ih (b.undergo a)).trans (by cases a <;> rfl)
  refine ⟨rfl, ?_⟩
  change Lifecycle.Leads _ (i.acts.foldl Bench.undergo w.bench).transport.lifecycle
  rw [hacts]
  exact .refl

theorem unharmed_read (n : Nat) (w : World ρ) : Unharmed n w (Clock.read w).2 := by
  change Unharmed n w w.read.2
  unfold read
  split
  · exact .refl n w
  · next i ahead _ =>
    obtain ⟨hloop, hlifecycle⟩ := unharmed_pass n { w with ahead } i
    exact ⟨hloop, hlifecycle⟩

end World

/-- A job that does nothing to the nth control loop. It may start and end experiments. -/
structure Job.Spares {ρ : Type} (n : Nat) (job : Job (World ρ)) : Prop where
  run : ∀ w, World.Unharmed n w (job.run w).2
  shutdown : ∀ w, World.Unharmed n w (job.shutdown w).2

namespace World

variable {ρ : Type}

theorem spares_linkJob (n : Nat) : Job.Spares n (linkJob : Job (World ρ)) where
  run w := ⟨rfl, w.bench.transport.leads_run⟩
  shutdown w := .refl n w

theorem spares_scriptJob (n k : Nat) : Job.Spares n (scriptJob k : Job (World ρ)) where
  run w := by
    unfold scriptJob
    dsimp only
    split <;> exact ⟨rfl, .refl⟩
  shutdown w := by
    unfold scriptJob
    dsimp only
    split <;> exact ⟨rfl, .refl⟩

variable [Rig ρ]

theorem run_controlJob {w : World ρ} {n : Nat} {c : ControlLoop ρ} (hc : w.loops[n]? = some c) :
    ((controlJob n).run w).2 =
      { w with
        bench.transport := (c.tick w.bench.link w.bench.transport).2.2
        loops := w.loops.set n (c.tick w.bench.link w.bench.transport).2.1 } := by
  unfold controlJob Bench.tick
  dsimp only
  rw [hc]
  dsimp only
  split <;> rfl

theorem shutdown_controlJob {w : World ρ} {n : Nat} {c : ControlLoop ρ}
    (hc : w.loops[n]? = some c) :
    ((controlJob n).shutdown w).2 = { w with loops := w.loops.set n c.shutdown.2 } := by
  unfold controlJob
  dsimp only
  rw [hc]

end World

variable {ρ : Type} [Rig ρ]

def World.AtZero (n : Nat) (w : World ρ) : Prop :=
  ∃ c, w.loops[n]? = some c ∧ (Rig.measure c.rig).1 = .ok .zero

namespace TaskCall

omit [Rig ρ] in
/-- The control loop before the call, if the call is a tick of it. -/
def ticked? (n : Nat) (control : String) (call : TaskCall (World ρ)) : Option (ControlLoop ρ) :=
  if call.task = control ∧ call.isShutdown = false then call.before.loops[n]? else none

end TaskCall

/-- How many experiments had been started when last a tick ended one, unless a tick since has found
one more. The newest call stands first. -/
def startsAtRest (n : Nat) (control : String) : List (TaskCall (World ρ)) → Option Nat
  | [] => none
  | call :: log =>
    match call.ticked? n control with
    | none => startsAtRest n control log
    | some c =>
      c.restAfter call.before.bench.link call.before.bench.transport (startsAtRest n control log)

/-- From a tick that ends an experiment on, the rig is at zero before and after every call, until a
tick that finds another one started. -/
def RestsThrough (n : Nat) (control : String) (log : List (TaskCall (World ρ))) : Prop :=
  ∀ call older, call :: older <:+ log →
    (startsAtRest n control older ≠ none → call.before.AtZero n) ∧
      (startsAtRest n control (call :: older) ≠ none → call.after.AtZero n)

variable {n : Nat} {control : String} {log : List (TaskCall (World ρ))}

theorem startsAtRest_cons_of_not_ticked {call : TaskCall (World ρ)}
    (h : call.ticked? n control = none) :
    startsAtRest n control (call :: log) = startsAtRest n control log := by
  rw [startsAtRest, h]

theorem startsAtRest_cons_of_ticked {call : TaskCall (World ρ)} {c : ControlLoop ρ}
    (h : call.ticked? n control = some c) (log : List (TaskCall (World ρ))) :
    startsAtRest n control (call :: log) =
      c.restAfter call.before.bench.link call.before.bench.transport
        (startsAtRest n control log) := by
  rw [startsAtRest, h]

theorem RestsThrough.cons (h : RestsThrough n control log) {call : TaskCall (World ρ)}
    (hbefore : startsAtRest n control log ≠ none → call.before.AtZero n)
    (hafter : startsAtRest n control (call :: log) ≠ none → call.after.AtZero n) :
    RestsThrough n control (call :: log) := by
  intro call' older hsuffix
  rcases List.suffix_cons_iff.mp hsuffix with heq | hsuffix
  · obtain ⟨rfl, rfl⟩ := List.cons_eq_cons.mp heq
    exact ⟨hbefore, hafter⟩
  · exact h call' older hsuffix

/-- While the scheduler goes: the rig of the nth control loop comes home, and it is there from a
tick that ends an experiment on until a tick that finds another one started. -/
structure Safe (home : ρ) (P : ρ → Prop) (n : Nat) (control : String) (x : Logged (World ρ)) :
    Prop where
  loop : ∃ c, x.world.loops[n]? = some c ∧ P c.rig ∧
    ∀ k, startsAtRest n control x.log = some k →
      c.rig = home ∧ 2 * k + 1 ≤ x.world.bench.transport.lifecycle.transitions
  regular : x.world.bench.transport.lifecycle.Regular
  rests : RestsThrough n control x.log

namespace Safe

variable {home : ρ} {P : ρ → Prop} {x : Logged (World ρ)}

theorem atZero (h : Safe home P n control x) (hzero : (Rig.measure home).1 = .ok .zero)
    (hrest : startsAtRest n control x.log ≠ none) : x.world.AtZero n := by
  obtain ⟨c, hc, -, hhome⟩ := h.loop
  obtain ⟨k, hk⟩ := Option.ne_none_iff_exists'.mp hrest
  exact ⟨c, hc, by rw [(hhome k hk).1, hzero]⟩

theorem move (h : Safe home P n control x) {w' : World ρ} (hw : World.Unharmed n x.world w') :
    Safe home P n control { x with world := w' } where
  loop := by
    obtain ⟨c, hc, hrig, hhome⟩ := h.loop
    exact ⟨c, hw.loop.trans hc, hrig, fun k hk =>
      ⟨(hhome k hk).1, Nat.le_trans (hhome k hk).2 hw.lifecycle.transitions_le⟩⟩
  regular := hw.lifecycle.regular h.regular
  rests := h.rests

theorem clock_keeps : Clock.Keeps (Safe home P n control) where
  read x h := h.move (x.world.unharmed_read n)
  sleepUntil _ _ h := h.move ⟨rfl, .refl⟩

theorem note (h : Safe home P n control x) (hzero : (Rig.measure home).1 = .ok .zero)
    {task : String} (htask : task ≠ control) (isShutdown : Bool) {w' : World ρ}
    (hw : World.Unharmed n x.world w') :
    Safe home P n control (x.note task isShutdown w') := by
  have hmoved := h.move hw
  have hlog : startsAtRest n control (x.note task isShutdown w').log =
      startsAtRest n control x.log :=
    startsAtRest_cons_of_not_ticked (if_neg fun hticked => htask hticked.1)
  exact
    { loop := by rw [hlog]; exact hmoved.loop
      regular := hmoved.regular
      rests := h.rests.cons (h.atZero hzero) fun hrest => hmoved.atZero hzero (hlog ▸ hrest) }

theorem note_tick (h : Safe home P n control x) (hP : Rig.Homing home P)
    (hzero : (Rig.measure home).1 = .ok .zero) :
    Safe home P n control (x.note control false ((World.controlJob n).run x.world).2) := by
  obtain ⟨c, hc, hrig, hhome⟩ := h.loop
  have hticked : TaskCall.ticked? n control
      ⟨control, false, x.world, ((World.controlJob n).run x.world).2⟩ = some c :=
    (if_pos ⟨rfl, rfl⟩).trans hc
  have hlog := startsAtRest_cons_of_ticked hticked x.log
  obtain ⟨hrig', hhome'⟩ := c.tick_rests hP hrig x.world.bench.link h.regular hhome
  have hregular := (c.leads_tick x.world.bench.link x.world.bench.transport).regular h.regular
  have hplace : n < x.world.loops.length := (List.getElem?_eq_some_iff.mp hc).1
  rw [World.run_controlJob hc] at hlog ⊢
  have hset := List.getElem?_set_self
    (a := (c.tick x.world.bench.link x.world.bench.transport).2.1) hplace
  exact
    { loop := ⟨_, hset, hrig', fun k hk => hhome' k (hlog.symm.trans hk)⟩
      regular := hregular
      rests := h.rests.cons (h.atZero hzero) fun hne => by
        obtain ⟨k, hk⟩ := Option.ne_none_iff_exists'.mp hne
        exact ⟨_, hset, by rw [(hhome' k (hlog.symm.trans hk)).1, hzero]⟩ }

end Safe

/-- The nth control loop is run by one task of the roster, and the others do nothing to it. -/
structure Hosts (n : Nat) (control : String) (roster : List (String × Job (World ρ))) : Prop where
  names : (roster.map Prod.fst).Nodup
  hosts : (control, World.controlJob n) ∈ roster
  others : ∀ r ∈ roster, r.1 ≠ control → r.2.Spares n

variable {home : ρ} {P : ρ → Prop}

theorem Hosts.cases {roster : List (String × Job (World ρ))} (h : Hosts n control roster)
    {r : String × Job (World ρ)} (hr : r ∈ roster) :
    r = (control, World.controlJob n) ∨ r.1 ≠ control ∧ r.2.Spares n := by
  by_cases hname : r.1 = control
  · exact .inl (List.inj_on_of_nodup_map h.names hr h.hosts hname)
  · exact .inr ⟨hname, h.others r hr hname⟩

theorem safe_rounds {s : Scheduler (World ρ)} (hhosts : Hosts n control s.roster)
    (hP : Rig.Homing home P) (hzero : (Rig.measure home).1 = .ok .zero) {x : Logged (World ρ)}
    (h : Safe home P n control x) (k : Nat) : Safe home P n control (s.logged.rounds k x).2 := by
  refine (Scheduler.rounds_keeps Safe.clock_keeps k ?_ h).1
  rw [Scheduler.roster_logged]
  intro r' hr' x hx
  obtain ⟨r, hr, rfl⟩ := List.mem_map.mp hr'
  rcases hhosts.cases hr with rfl | ⟨hname, hspares⟩
  · exact hx.note_tick hP hzero
  · exact hx.note hzero hname false (hspares.run x.world)

structure LetGo (rig : ρ) (n : Nat) (control : String) (x : Logged (World ρ)) : Prop where
  loop : ∃ c, x.world.loops[n]? = some c ∧ c.rig = rig
  rests : RestsThrough n control x.log

theorem LetGo.atZero {rig : ρ} {x : Logged (World ρ)} (h : LetGo rig n control x)
    (hzero : (Rig.measure rig).1 = .ok .zero) : x.world.AtZero n := by
  obtain ⟨c, hc, hrig⟩ := h.loop
  exact ⟨c, hc, by rw [hrig, hzero]⟩

theorem LetGo.note {rig : ρ} {x : Logged (World ρ)} (h : LetGo rig n control x)
    (hzero : (Rig.measure rig).1 = .ok .zero) (task : String) (isShutdown : Bool) {w' : World ρ}
    (hw : World.Unharmed n x.world w') : LetGo rig n control (x.note task isShutdown w') := by
  obtain ⟨c, hc, hrig⟩ := h.loop
  have hc' := hw.loop.trans hc
  exact ⟨⟨c, hc', hrig⟩,
    h.rests.cons (fun _ => h.atZero hzero) fun _ => ⟨c, hc', by rw [hrig, hzero]⟩⟩

theorem Safe.note_shutdown {x : Logged (World ρ)} (h : Safe home P n control x)
    (hP : Rig.Homing home P) (hzero : (Rig.measure home).1 = .ok .zero)
    (hzero' : (Rig.measure (Rig.shutdown home).2).1 = .ok .zero) :
    LetGo (Rig.shutdown home).2 n control
      (x.note control true ((World.controlJob n).shutdown x.world).2) := by
  obtain ⟨c, hc, hrig, -⟩ := h.loop
  have hplace : n < x.world.loops.length := (List.getElem?_eq_some_iff.mp hc).1
  have hset := List.getElem?_set_self (a := c.shutdown.2) hplace
  have hdown : c.shutdown.2.rig = (Rig.shutdown home).2 := by
    unfold ControlLoop.shutdown
    rw [hP.safeState _ hrig]
  rw [World.shutdown_controlJob hc]
  exact ⟨⟨_, hset, hdown⟩,
    h.rests.cons (h.atZero hzero) fun _ => ⟨_, hset, by rw [hdown, hzero']⟩⟩

theorem LetGo.shutdownAll {rig : ρ} (hzero : (Rig.measure rig).1 = .ok .zero)
    {ts : List (PeriodicTask (World ρ))} (hts : ∀ t ∈ ts, t.job.Spares n) {x : Logged (World ρ)}
    (h : LetGo rig n control x) :
    LetGo rig n control (Scheduler.shutdownAll (ts.map PeriodicTask.logged) x) := by
  induction ts generalizing x with
  | nil => exact h
  | cons t ts ih =>
    obtain ⟨ht, hts⟩ := List.forall_mem_cons.mp hts
    exact ih hts (h.note hzero t.name true (ht.shutdown x.world))

theorem Safe.shutdownAll (hP : Rig.Homing home P) (hzero : (Rig.measure home).1 = .ok .zero)
    (hzero' : (Rig.measure (Rig.shutdown home).2).1 = .ok .zero)
    {ts : List (PeriodicTask (World ρ))} (hhosts : Hosts n control (ts.map PeriodicTask.role))
    {x : Logged (World ρ)} (h : Safe home P n control x) :
    LetGo (Rig.shutdown home).2 n control
      (Scheduler.shutdownAll (ts.map PeriodicTask.logged) x) := by
  -- `Safe` goes along up to the task of the control loop, `LetGo` from there to the end.
  induction ts generalizing x with
  | nil => exact absurd hhosts.hosts List.not_mem_nil
  | cons t ts ih =>
    obtain ⟨hfirst, hnames⟩ := List.nodup_cons.mp hhosts.names
    rcases hhosts.cases List.mem_cons_self with hrole | ⟨hname, hspares⟩
    · have hothers : ∀ t ∈ ts, t.job.Spares n := fun t' ht' =>
        hhosts.others t'.role (List.mem_cons_of_mem _ (List.mem_map_of_mem ht')) fun hname => by
          refine hfirst (List.mem_map.mpr ⟨t'.role, List.mem_map_of_mem ht', ?_⟩)
          rw [hrole, hname]
      obtain ⟨hname, hjob⟩ := Prod.mk.inj hrole
      refine LetGo.shutdownAll hzero' hothers ?_
      change LetGo _ n control (x.note t.name true (t.job.shutdown x.world).2)
      rw [hname, hjob]
      exact h.note_shutdown hP hzero hzero'
    · have hhosts' : Hosts n control (ts.map PeriodicTask.role) :=
        { names := hnames
          hosts := (List.mem_cons.mp hhosts.hosts).resolve_left fun heq =>
            hname (congrArg Prod.fst heq).symm
          others := fun r hr => hhosts.others r (List.mem_cons_of_mem _ hr) }
      exact ih hhosts' (h.note hzero hname true (hspares.shutdown x.world))

/-- From a tick that ends an experiment on, the rig of an initialised control loop is at zero until
a tick finds another experiment started. However the scheduler comes to its end, it shuts every task
down once and in order, behind the last run of any, whatever the tasks answer, returns what its loop
ended with, and leaves the rig at zero and, if it is simulated, refusing to be driven. -/
theorem rig_left_safe {s : Scheduler (World ConfiguredRig)} {w : World ConfiguredRig} {n : Nat}
    {control : String} {c : ControlLoop ConfiguredRig} {raw : ConfiguredRig}
    (hhosts : Hosts n control s.roster) (hloop : w.loops[n]? = some c)
    (hrig : Rig.init raw = (.ok (), c.rig))
    (hlife : Lifecycle.Leads {} w.bench.transport.lifecycle) :
    (∀ k, ∃ log,
      s.logged.rounds k { world := w } = ((s.rounds k w).1.logged, ⟨(s.rounds k w).2, log⟩) ∧
      RestsThrough n control log ∧
      (startsAtRest n control log ≠ none → (s.rounds k w).2.AtZero n)) ∧
    ∀ fuel e s' w', s.run fuel w = some (e, s', w') → e ≠ .crashed →
      (∃ (w₁ : World ConfiguredRig) (up down : List (TaskCall (World ConfiguredRig))),
        s.runLoop fuel w = some (e, s', w₁) ∧
        s.logged.rounds fuel { world := w } = (s'.logged, ⟨w₁, up⟩) ∧
        s.logged.run fuel { world := w } = some (e, s'.logged, ⟨w', down.reverse ++ up⟩) ∧
        (∀ call ∈ up, call.isShutdown = false) ∧ (∀ call ∈ down, call.isShutdown = true) ∧
        down.map (·.task) = s.names ∧ RestsThrough n control (down.reverse ++ up)) ∧
      ∃ c', w'.loops[n]? = some c' ∧ (Rig.measure c'.rig).1 = .ok .zero ∧
        ((∃ r, raw = .simulated r) → ∀ setpoint dt,
          Rig.apply c'.rig setpoint dt = (.error (.io .rigNotInitialized), c'.rig)) := by
  obtain ⟨P, hP, hmeasure, -⟩ := ConfiguredRig.exists_homing hrig
  have hzero : (Rig.measure c.rig).1 = .ok .zero := congrArg Prod.fst hmeasure
  obtain ⟨hzero', hrefuses⟩ := ConfiguredRig.shutdown_of_init hrig
  have hstart : Safe c.rig P n control { world := w } :=
    { loop := ⟨c, hloop, hP.begins, nofun⟩
      regular := hlife.regular (by unfold Lifecycle.Regular; decide)
      rests := fun call older hsuffix => nomatch List.suffix_nil.mp hsuffix }
  refine ⟨fun k => ?_, fun fuel e s' w' hrun he => ?_⟩
  · have hsafe := safe_rounds hhosts hP hzero hstart k
    obtain ⟨log, hlogged⟩ := s.rounds_logged k w []
    rw [hlogged] at hsafe
    exact ⟨log, hlogged, hsafe.rests, hsafe.atZero hzero⟩
  · obtain ⟨w₁, up, down, hloop', hrounds, hlogged, hdown, hup, hshut, hnames⟩ :=
      Scheduler.run_log hrun he
    have hsafe := safe_rounds hhosts hP hzero hstart fuel
    rw [hrounds] at hsafe
    have hhosts' : Hosts n control s'.roster := Scheduler.roster_of_runLoop hloop' ▸ hhosts
    have hgone := hsafe.shutdownAll hP hzero hzero' hhosts'
    rw [show s'.tasks.map PeriodicTask.logged = s'.logged.tasks from rfl, hdown] at hgone
    obtain ⟨⟨c', hc', hrig'⟩, hrests⟩ := hgone
    refine ⟨⟨w₁, up, down, hloop', hrounds, hlogged, hup, hshut, hnames, hrests⟩, c', hc', ?_, ?_⟩
    · rw [hrig', hzero']
    · rw [hrig']
      exact hrefuses

/-- The client leaves, and in the next cycle the task before that of the control loop fails. -/
theorem rig_left_safe_lost_link :
    let raw : ConfiguredRig := .simulated { timeConstant := .ofMillis 50 }
    let c : ControlLoop ConfiguredRig :=
      { rig := (Rig.init raw).2
        settings := ⟨.ofMillis 100, .zero, false, true⟩
        watchesLink := true }
    let lost : BenchError := .io (.other "lost")
    let t := { (Bench.new 4 4).transport with lifecycle := ⟨.idle, some .uninitialized, 1⟩ }
    let starts : Interval := { acts := [.connect, .submit Command.start.toFrame] }
    let leaves : Interval := { acts := [.disconnect] }
    let w : World ConfiguredRig :=
      { bench := { transport := t }
        loops := [c]
        scripts := [{ name := "load", failAt := some (3, lost), shutdownFails := true }]
        ahead := starts :: List.replicate 11 {} ++ [leaves] }
    let period : Duration := .ofMillis 10
    let s : Scheduler (World ConfiguredRig) :=
      { histogramSize := 1
        tasks :=
          [{ name := "link", period, job := World.linkJob, metrics := .new 1 period },
            { name := "load", period, job := World.scriptJob 0, metrics := .new 1 period },
            { name := "control", period, job := World.controlJob 0, metrics := .new 1 period }] }
    startsAtRest 0 "control" (s.logged.rounds 2 { world := w }).2.log = some 1 ∧
      (s.rounds 2 w).2.AtZero 0 ∧
      ∃ s' w', s.run 4 w = some (.failed (.taskFailed "load" lost), s', w') ∧
        ∃ c', w'.loops[0]? = some c' ∧ (Rig.measure c'.rig).1 = .ok .zero ∧
          Rig.apply c'.rig .zero (.ofMillis 100) = (.error (.io .rigNotInitialized), c'.rig) := by
  intro raw c lost t starts leaves w period s
  have hhosts : Hosts 0 "control" s.roster :=
    { names := by decide
      hosts := List.mem_cons_of_mem _ (List.mem_cons_of_mem _ List.mem_cons_self)
      others := fun r hr hname => by
        rcases List.mem_cons.mp hr with rfl | hr
        · exact World.spares_linkJob 0
        rcases List.mem_cons.mp hr with rfl | hr
        · exact World.spares_scriptJob 0 0
        · exact absurd (congrArg Prod.fst (List.mem_singleton.mp hr)) hname }
  have hlife : Lifecycle.Leads {} w.bench.transport.lifecycle :=
    .single ⟨.idle, rfl⟩
  have hrig : Rig.init raw = (.ok (), c.rig) := rfl
  obtain ⟨hrounds, hrun⟩ := rig_left_safe (w := w) (c := c) hhosts rfl hrig hlife
  obtain ⟨log, hlogged, -, hzero⟩ := hrounds 2
  have hrest : startsAtRest 0 "control" (s.logged.rounds 2 { world := w }).2.log = some 1 := by
    decide +kernel
  have hends : (s.run 4 w).map (·.1) = some (.failed (.taskFailed "load" lost)) := by
    decide +kernel
  obtain ⟨⟨e, s', w'⟩, hreturns, rfl⟩ := Option.map_eq_some_iff.mp hends
  obtain ⟨-, c', hc', hmeasure, hrefuses⟩ := hrun 4 _ s' w' hreturns nofun
  refine ⟨hrest, hzero ?_, s', w', hreturns, c', hc', hmeasure, hrefuses ⟨_, rfl⟩ _ _⟩
  rw [hlogged] at hrest
  rw [hrest]
  nofun

end RigBench
